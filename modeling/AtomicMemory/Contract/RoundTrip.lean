import AtomicMemory.Contract.Encoding

-- A valid page is decoded and encoded to itself up to its normal form, and an encoded page is
-- decoded to itself with its datetimes cut down to the millisecond.

open Calendar
open PyValue hiding none
open Schema

namespace AtomicMemory.Contract

def rewriteTimestamp : PyValue → PyValue
  | .str s => .str (((parseRfc3339 s.toList).map DateTime.zText).getD s)
  | v => v

def onDict (f : Items → Items) : PyValue → PyValue
  | .dict items => .dict (f items)
  | v => v

def onList (f : PyValue → PyValue) : PyValue → PyValue
  | .list xs => .list (xs.map f)
  | v => v

/-- Without `key`, where its value is null. -/
def dropNull (items : Items) (key : String) : Items :=
  match items.lookup key with
  | some .none => items.erase key
  | _ => items

def normalizeMemory (items : Items) : Items :=
  (items.update "createdAt" rewriteTimestamp).update "updatedAt" rewriteTimestamp

def normalizeSearchResult (items : Items) : Items :=
  (dropNull items "version_id").update "memory" (onDict normalizeMemory)

def normalizeSearchResultPage (items : Items) : Items :=
  items.update "results" (onList (onDict normalizeSearchResult))

/-- Numbers are exactly representable, timestamps are instants of years 1 to 9999, and what
an open object holds is JSON. -/
def Representable : Schema → PyValue → Prop
  | .number _ _, .int n => ExactFloat n
  | .integer _, .float q => q.num.natAbs < 2 ^ 63
  | .dateTime, .str s => ∀ d ∈ parseRfc3339 s.toList, d.InRange
  | .object _ _ true, .dict items => itemsIsJson items = true
  | _, _ => True

/-- `f` reads the value, and what `g` writes for the model is the value's normal form. -/
def Reads {α : Type} (f : PyValue → Option α) (g : α → PyValue) (norm : PyValue → PyValue)
    (ok : α → Prop) (v : PyValue) : Prop :=
  v ≠ .none ∧ ∃ a, f v = some a ∧ ok a ∧ Same (g a) (norm v)

section

variable {α : Type} {f : PyValue → Option α} {g : α → PyValue} {norm : PyValue → PyValue}
  {ok : α → Prop} {items : Items} {key : String}

theorem field_reads (hkey : key ∈ Items.keys items)
    (h : ∀ v, items.lookup key = some v → Reads f g norm ok v) :
    ∃ a, field f items key = some a ∧ ok a ∧
      Option.Rel Same (some (g a)) ((items.lookup key).map norm) := by
  obtain ⟨v, hv⟩ := (Items.mem_keys_iff items key).mp hkey
  obtain ⟨-, a, ha, hok, hsame⟩ := h v hv
  refine ⟨a, field_eq hv ha, hok, ?_⟩
  rw [hv]
  exact .some hsame

theorem optField_reads (h : ∀ v, items.lookup key = some v → Reads f g norm ok v) :
    ∃ x, optField f items key = some x ∧ (∀ a ∈ x, ok a) ∧
      Option.Rel Same (x.map g) ((items.lookup key).map norm) := by
  unfold optField
  cases hv : items.lookup key with
  | none => exact ⟨none, rfl, nofun, .none⟩
  | some v =>
    obtain ⟨hne, a, ha, hok, hsame⟩ := h v hv
    refine ⟨some a, nullable_eq hne ha, ?_, .some hsame⟩
    rintro _ ⟨⟩
    exact hok

end

theorem list_reads {α : Type} {f : PyValue → Option α} {g : α → PyValue} {norm : PyValue → PyValue}
    {ok : α → Prop} {xs : List PyValue} (h : ∀ x ∈ xs, Reads f g norm ok x) :
    ∃ ms, xs.mapM f = some ms ∧ (∀ m ∈ ms, ok m) ∧
      Same (.list (ms.map g)) (.list (xs.map norm)) := by
  suffices hall : ∃ ms, List.Forall₂ (fun x m => f x = some m) xs ms ∧ (∀ m ∈ ms, ok m) ∧
      List.Forall₂ Same (ms.map g) (xs.map norm) by
    obtain ⟨ms, hread, hok, hsame⟩ := hall
    exact ⟨ms, mapM_eq_some_iff.mpr hread, hok, .list hsame⟩
  induction xs with
  | nil => exact ⟨[], .nil, nofun, .nil⟩
  | cons x xs ih =>
    obtain ⟨hx, hxs⟩ := List.forall_mem_cons.mp h
    obtain ⟨-, m, hm, hok, hsame⟩ := hx
    obtain ⟨ms, hread, hoks, hsames⟩ := ih hxs
    exact ⟨m :: ms, .cons hm hread, List.forall_mem_cons.mpr ⟨hok, hoks⟩, .cons hsame hsames⟩

theorem defaultField_of_field {α : Type} {f : PyValue → Option α} {default a : α} {items : Items}
    {key : String} (h : field f items key = some a) :
    defaultField f default items key = some a := by
  obtain ⟨v, hv, ha⟩ := Option.bind_eq_some_iff.mp h
  rw [defaultField, hv]
  exact ha

def Trivial {α : Type} (_ : α) : Prop := True

def Wire : Schema → PyValue → Prop := All fun s v => s.Matches v ∧ Representable s v

theorem wire_object {properties : List (String × Schema)} {required : List String}
    {additional : Bool} {v : PyValue} (h : Wire (object properties required additional) v) :
    ∃ items, v = .dict items ∧ (∀ key ∈ required, key ∈ Items.keys items) ∧
      (additional = false → ∀ key ∈ Items.keys items, key ∈ properties.map Prod.fst) ∧
      propertiesAll (fun s v => s.Matches v ∧ Representable s v) properties items := by
  cases v with
  | dict items =>
    obtain ⟨⟨⟨hrequired, hkeys⟩, -⟩, hproperties⟩ := h
    exact ⟨items, rfl, hrequired, hkeys, hproperties⟩
  | _ => exact h.1.elim

theorem string_reads {v : PyValue} (h : Wire .string v) : Reads str? .str id Trivial v := by
  cases v with
  | str s => exact ⟨nofun, s, rfl, trivial, .refl _⟩
  | _ => exact h.1.elim

theorem dateTime_reads_str {v : PyValue} (h : Wire .dateTime v) :
    Reads str? .str id Trivial v := by
  cases v with
  | str s => exact ⟨nofun, s, rfl, trivial, .refl _⟩
  | _ => exact h.1.elim

theorem dateTime_reads (py : Pydantic) {v : PyValue} (h : Wire .dateTime v) :
    Reads py.datetime (fun d => .str d.zText) rewriteTimestamp DateTime.InRange v := by
  cases v with
  | str s =>
    obtain ⟨d, hd⟩ := Option.isSome_iff_exists.mp h.1
    refine ⟨nofun, d, py.datetime_str s d hd, h.2 d hd, ?_⟩
    rw [rewriteTimestamp, hd]
    exact .refl _
  | _ => exact h.1.elim

theorem kind_reads {v : PyValue} (h : Wire memoryKindSchema v) :
    Reads MemoryKind.ofValue (fun kind => .str kind.text) id Trivial v := by
  cases v with
  | str s =>
    have hs : s ∈ ["fact", "episode", "summary", "procedure", "document"] := h.1
    simp only [List.mem_cons, List.not_mem_nil, or_false] at hs
    rcases hs with rfl | rfl | rfl | rfl | rfl <;>
      exact ⟨nofun, _, rfl, trivial, .refl _⟩
  | _ => exact h.1.elim

theorem number_reads (py : Pydantic) {minimum maximum : Option ℚ} {v : PyValue}
    (h : Wire (.number minimum maximum) v) : Reads py.float .float id Trivial v := by
  cases v with
  | int n => exact ⟨nofun, n, py.float_int n h.2, trivial, .floatInt n⟩
  | float q => exact ⟨nofun, q, py.float_float q, trivial, .refl _⟩
  | _ => exact h.1.elim

theorem integer_reads (py : Pydantic) {minimum : ℤ} {v : PyValue}
    (h : Wire (.integer minimum) v) : Reads py.int .int id Trivial v := by
  cases v with
  | int n => exact ⟨nofun, n, py.int_int n, trivial, .refl _⟩
  | float q =>
    obtain ⟨⟨hden, -⟩, hlt⟩ := h
    have hq : q = (q.num : ℚ) := (Rat.den_eq_one_iff q).mp hden |>.symm
    rw [hq]
    exact ⟨nofun, q.num, py.int_float _ hlt, trivial, .intFloat _⟩
  | _ => exact h.1.elim

theorem open_reads {v : PyValue} (h : Wire (.object [] [] true) v) :
    Reads dict? .dict id (fun items => itemsIsJson items = true) v := by
  cases v with
  | dict items => exact ⟨nofun, items, rfl, h.1.2, .refl _⟩
  | _ => exact h.1.elim

theorem scope_reads {v : PyValue} (h : Wire scopeSchema v) :
    Reads Scope.ofValue (fun s => .dict s.dump) id Trivial v := by
  obtain ⟨items, rfl, -, hkeys, huser, hagent, hspace, hthread, -⟩ := wire_object h
  obtain ⟨user, hu, -, ru⟩ := optField_reads fun v hv => string_reads (huser v hv)
  obtain ⟨agent, ha, -, ra⟩ := optField_reads fun v hv => string_reads (hagent v hv)
  obtain ⟨nameSpace, hn, -, rn⟩ := optField_reads fun v hv => string_reads (hspace v hv)
  obtain ⟨thread, ht, -, rt⟩ := optField_reads fun v hv => string_reads (hthread v hv)
  have hscope : ∀ key ∈ Items.keys items, key ∈ scopeKeys := hkeys rfl
  have hread : Scope.ofItems items = some ⟨user, agent, nameSpace, thread⟩ := by
    unfold Scope.ofItems
    rw [forbidExtra_eq hscope, hu, ha, hn, ht]
    rfl
  refine ⟨nofun, _, hread, trivial, Same.dict_of_keys (Scope.keys_dump _) hscope ?_⟩
  rw [Option.map_id_fun, id] at ru ra rn rt
  simp [scopeKeys, Scope.dump, Items.lookup_append, lookup_optItem, ru, ra, rn, rt]

theorem provenance_reads {v : PyValue} (h : Wire provenanceSchema v) :
    Reads (ofDict readProvenance) (fun p => .dict (encodeProvenance p)) id Trivial v := by
  obtain ⟨items, rfl, -, hkeys, hsource, hurl, hid, hextractor, -⟩ := wire_object h
  obtain ⟨source, hs, -, rs⟩ := optField_reads fun v hv => string_reads (hsource v hv)
  obtain ⟨sourceUrl, hu, -, ru⟩ := optField_reads fun v hv => string_reads (hurl v hv)
  obtain ⟨sourceId, hi, -, ri⟩ := optField_reads fun v hv => string_reads (hid v hv)
  obtain ⟨extractor, he, -, re⟩ := optField_reads fun v hv => string_reads (hextractor v hv)
  have hwire : ∀ key ∈ Items.keys items, key ∈ provenanceWireKeys := hkeys rfl
  have hread : readProvenance items = some ⟨source, sourceUrl, sourceId, extractor⟩ := by
    unfold readProvenance
    rw [forbidExtra_eq hwire, hs, hu, hi, he]
    rfl
  refine ⟨nofun, _, hread, trivial, Same.dict_of_keys (keys_encodeProvenance _) hwire ?_⟩
  rw [Option.map_id_fun, id] at rs ru ri re
  simp [provenanceWireKeys, encodeProvenance, Items.lookup_rename, Provenance.dump,
    Items.lookup_append, lookup_optItem, rs, ru, ri, re]

theorem lookup_normalizeMemory (items : Items) (key : String) :
    (normalizeMemory items).lookup key =
      if key = "createdAt" ∨ key = "updatedAt" then (items.lookup key).map rewriteTimestamp
      else items.lookup key := by
  simp only [normalizeMemory, Items.lookup_update]
  by_cases hu : key = "updatedAt"
  · simp [hu]
  · by_cases hc : key = "createdAt" <;> simp [hu, hc]

theorem keys_normalizeMemory (items : Items) :
    Items.keys (normalizeMemory items) = Items.keys items :=
  (Items.keys_update _ _ _).trans (Items.keys_update _ _ _)

theorem memory_reads (py : Pydantic) {v : PyValue} (h : Wire memorySchema v) :
    Reads (ofDict (readMemory py)) (fun m => .dict (wireMemory py m)) (onDict normalizeMemory)
      Encodable v := by
  obtain ⟨items, rfl, hrequired, hkeys, hid, hcontent, hscope, hkind, hcreated, hupdated, hprov,
    hmeta, -⟩ := wire_object h
  have hmem (key : String) (hkey : key ∈ ["id", "content", "scope", "createdAt"]) :
      key ∈ Items.keys items := hrequired key hkey
  obtain ⟨mid, h1, -, r1⟩ :=
    field_reads (hmem "id" (by decide)) fun v hv => string_reads (hid v hv)
  obtain ⟨content, h2, -, r2⟩ :=
    field_reads (hmem "content" (by decide)) fun v hv => string_reads (hcontent v hv)
  obtain ⟨scope, h3, -, r3⟩ :=
    field_reads (hmem "scope" (by decide)) fun v hv => scope_reads (hscope v hv)
  obtain ⟨kind, h4, -, r4⟩ := optField_reads fun v hv => kind_reads (hkind v hv)
  obtain ⟨createdAt, h5, hc, r5⟩ :=
    field_reads (hmem "createdAt" (by decide)) fun v hv => dateTime_reads py (hcreated v hv)
  obtain ⟨updatedAt, h6, hu, r6⟩ := optField_reads fun v hv => dateTime_reads py (hupdated v hv)
  obtain ⟨provenance, h7, -, r7⟩ := optField_reads fun v hv => provenance_reads (hprov v hv)
  obtain ⟨metadata, h8, hj, r8⟩ := optField_reads fun v hv => open_reads (hmeta v hv)
  have hwire : ∀ key ∈ Items.keys items, key ∈ memoryWireKeys := hkeys rfl
  have hread : readMemory py items =
      some ⟨mid, content, scope, kind, createdAt, updatedAt, provenance, metadata⟩ := by
    unfold readMemory
    rw [forbidExtra_eq hwire, h1, h2, h3, h4, h5, h6, h7, h8]
    rfl
  -- key by key, what is written is the normal form of what was read
  refine ⟨nofun, _, hread, ⟨hc, hu, hj⟩, Same.dict_of_keys (keys_wireMemory py _) ?_ ?_⟩
  · rw [keys_normalizeMemory]
    exact hwire
  · rw [Option.map_id_fun, id] at r1 r2 r3 r4 r7 r8
    simp [memoryWireKeys, lookup_wireMemory, lookup_normalizeMemory, r1, r2, r3, r4, r5, r6, r7, r8]

theorem lookup_dropNull (items : Items) (key other : String) :
    (dropNull items key).lookup other =
      if other = key then (items.lookup key).filter fun v => !v.isNone else items.lookup other := by
  unfold dropNull
  split
  · rename_i h
    rw [Items.lookup_erase, h]
    rfl
  · rename_i h
    split
    · rename_i hkey
      rw [hkey]
      cases hv : items.lookup key with
      | none => rfl
      | some v => cases v <;> first | rfl | exact absurd hv h
    · rfl

theorem keys_dropNull {items : Items} {key : String} {allowed : List String}
    (h : ∀ k ∈ Items.keys items, k ∈ allowed) :
    ∀ k ∈ Items.keys (dropNull items key), k ∈ allowed := by
  rw [Items.keys_subset_iff] at h ⊢
  intro k hk
  rw [lookup_dropNull]
  split
  · rename_i hkey
    rw [← hkey, h k hk]
    rfl
  · exact h k hk

theorem lookup_normalizeSearchResult (items : Items) (key : String) :
    (normalizeSearchResult items).lookup key =
      if key = "memory" then (items.lookup "memory").map (onDict normalizeMemory)
      else (dropNull items "version_id").lookup key := by
  have hne : "memory" ≠ "version_id" := by decide
  rw [normalizeSearchResult, Items.lookup_update, lookup_dropNull items "version_id" "memory",
    if_neg hne]

theorem version_reads {items : Items}
    (h : ∀ v, items.lookup "version_id" = some v → Wire .nullableString v) :
    ∃ x, optField str? items "version_id" = some x ∧
      Option.Rel Same (x.map .str) ((dropNull items "version_id").lookup "version_id") := by
  rw [lookup_dropNull, if_pos rfl]
  unfold optField
  cases hv : items.lookup "version_id" with
  | none => exact ⟨none, rfl, .none⟩
  | some v =>
    have hmatch := (h v hv).1
    cases v with
    | none => exact ⟨none, rfl, .none⟩
    | str s => exact ⟨some s, rfl, .some (.refl _)⟩
    | _ => exact hmatch.elim

theorem searchResult_reads (py : Pydantic) {v : PyValue} (h : Wire searchResultSchema v) :
    Reads (ofDict (readSearchResult py)) (fun r => .dict (wireSearchResult py r))
      (onDict normalizeSearchResult) (fun r => Encodable r.memory) v := by
  obtain ⟨items, rfl, hrequired, hkeys, hmemory, hscore, hsimilarity, hranking, hrelevance,
    hversion, hobserved, -⟩ := wire_object h
  obtain ⟨memory, h1, hm, r1⟩ := field_reads (hrequired "memory" (by decide)) fun v hv =>
    memory_reads py (hmemory v hv)
  obtain ⟨score, h2, -, r2⟩ := field_reads (hrequired "score" (by decide)) fun v hv =>
    number_reads py (hscore v hv)
  obtain ⟨similarity, h3, -, r3⟩ := optField_reads fun v hv => number_reads py (hsimilarity v hv)
  obtain ⟨ranking, h4, -, r4⟩ := optField_reads fun v hv => number_reads py (hranking v hv)
  obtain ⟨relevance, h5, -, r5⟩ := optField_reads fun v hv => number_reads py (hrelevance v hv)
  obtain ⟨version, h6, r6⟩ := version_reads hversion
  obtain ⟨observed, h7, -, r7⟩ := optField_reads fun v hv => dateTime_reads_str (hobserved v hv)
  have hwire : ∀ key ∈ Items.keys items, key ∈ searchResultWireKeys := hkeys rfl
  have hread : readSearchResult py items =
      some ⟨memory, score, similarity, ranking, relevance, version, observed⟩ := by
    unfold readSearchResult
    rw [forbidExtra_eq hwire, h1, h2, h3, h4, h5, h6, h7]
    rfl
  refine ⟨nofun, _, hread, hm, Same.dict_of_keys (keys_wireSearchResult py _) ?_ ?_⟩
  · -- normalizing adds no key
    unfold normalizeSearchResult
    rw [Items.keys_update]
    exact keys_dropNull hwire
  · rw [Option.map_id_fun, id] at r2 r3 r4 r5 r7
    simp [searchResultWireKeys, lookup_wireSearchResult, lookup_normalizeSearchResult,
      r1, r6]
    simp [lookup_dropNull, r2, r3, r4, r5, r7]

theorem results_reads (py : Pydantic) {v : PyValue} (h : Wire (.array searchResultSchema) v) :
    Reads (readResults py)
      (fun results => .list (results.map fun r => .dict (wireSearchResult py r)))
      (onList (onDict normalizeSearchResult))
      (fun results => ∀ r ∈ results, Encodable r.memory) v := by
  cases v with
  | list xs => exact ⟨nofun, list_reads fun x hx => searchResult_reads py (h.2 x hx)⟩
  | _ => exact h.1.elim

theorem texts_reads {v : PyValue} (h : Wire (.array .string) v) :
    Reads (list? str?) (fun texts => .list (texts.map .str)) id Trivial v := by
  cases v with
  | list xs =>
    obtain ⟨texts, hread, -, hsame⟩ := list_reads fun x hx => string_reads (h.2 x hx)
    rw [List.map_id] at hsame
    exact ⟨nofun, texts, hread, trivial, hsame⟩
  | _ => exact h.1.elim

theorem keys_receipt (receipt : RetrievalReceipt) :
    ∀ key ∈ Items.keys receipt.dump, key ∈ propertyKeys retrievalReceiptSchema := by
  intro key hkey
  simp only [RetrievalReceipt.dump, keys_append, List.mem_append] at hkey
  rcases hkey with hkey | hkey
  · rw [keys_optItem hkey]
    decide
  · exact List.mem_cons_of_mem _ hkey

theorem receipt_reads (py : Pydantic) {v : PyValue} (h : Wire retrievalReceiptSchema v) :
    Reads (RetrievalReceipt.ofValue py) (fun receipt => .dict receipt.dump) id Trivial v := by
  obtain ⟨items, rfl, hrequired, hkeys, hprovider, hmodel, hversion, hdimensions, hquery,
    hcandidates, htrace, -⟩ := wire_object h
  obtain ⟨provider, h1, -, r1⟩ := optField_reads fun v hv => string_reads (hprovider v hv)
  obtain ⟨model, h2, -, r2⟩ := field_reads (hrequired "embedding_model" (by decide)) fun v hv =>
    string_reads (hmodel v hv)
  obtain ⟨version, h3, -, r3⟩ := field_reads (hrequired "embedding_model_version" (by decide))
    fun v hv => string_reads (hversion v hv)
  obtain ⟨dimensions, h4, -, r4⟩ := field_reads (hrequired "embedding_dimensions" (by decide))
    fun v hv => integer_reads py (hdimensions v hv)
  obtain ⟨query, h5, -, r5⟩ := field_reads (hrequired "query_text" (by decide)) fun v hv =>
    string_reads (hquery v hv)
  obtain ⟨candidates, h6, -, r6⟩ := field_reads (hrequired "candidate_ids" (by decide))
    fun v hv => texts_reads (hcandidates v hv)
  obtain ⟨trace, h7, -, r7⟩ := field_reads (hrequired "trace_id" (by decide)) fun v hv =>
    string_reads (htrace v hv)
  have hread : RetrievalReceipt.ofItems py items =
      some ⟨provider, model, version, dimensions, query, candidates, trace⟩ := by
    unfold RetrievalReceipt.ofItems
    rw [h1, h2, h3, h4, h5, defaultField_of_field h6, h7]
    rfl
  have hreceipt : ∀ key ∈ Items.keys items, key ∈ propertyKeys retrievalReceiptSchema := hkeys rfl
  refine ⟨nofun, _, hread, trivial, Same.dict_of_keys (keys_receipt _) hreceipt ?_⟩
  rw [Option.map_id_fun, id] at r1 r2 r3 r4 r5 r6 r7
  simp [propertyKeys, retrievalReceiptSchema, RetrievalReceipt.dump, Items.lookup_append,
    Items.lookup_cons, lookup_optItem, r1, r2, r3, r4, r5, r6, r7]

/-- A valid page is read as a page that can be encoded, to the normal form of the first. -/
theorem page_reads (py : Pydantic) {items : Items} (h : Wire searchResultPageSchema (.dict items)) :
    ∃ page, readSearchResultPage py items = some page ∧
      (∀ r ∈ page.results, Encodable r.memory) ∧
      Same (.dict (wireSearchResultPage py page)) (.dict (normalizeSearchResultPage items)) := by
  obtain ⟨_, ⟨⟩, hrequired, hkeys, hresults, hcursor, hretrieval, -⟩ := wire_object h
  obtain ⟨results, h1, hok, r1⟩ := field_reads (hrequired "results" (by decide)) fun v hv =>
    results_reads py (hresults v hv)
  obtain ⟨cursor, h2, -, r2⟩ := optField_reads fun v hv => string_reads (hcursor v hv)
  obtain ⟨retrieval, h3, -, r3⟩ := optField_reads fun v hv => receipt_reads py (hretrieval v hv)
  have hwire : ∀ key ∈ Items.keys items, key ∈ searchResultPageWireKeys := hkeys rfl
  have hread : readSearchResultPage py items = some ⟨results, cursor, retrieval⟩ := by
    unfold readSearchResultPage
    rw [forbidExtra_eq hwire, defaultField_of_field h1, h2, h3]
    rfl
  refine ⟨_, hread, hok, Same.dict_of_keys (keys_wireSearchResultPage py _) ?_ ?_⟩
  · unfold normalizeSearchResultPage
    rw [Items.keys_update]
    exact hwire
  · rw [Option.map_id_fun, id] at r2 r3
    simp [searchResultPageWireKeys, lookup_wireSearchResultPage, normalizeSearchResultPage,
      Items.lookup_update, r1, r2, r3]

/-- Valid pages with representable numbers and timestamps are decoded, and encoded to their
normal form. Pages whose datetimes lie in years 1 to 9999 and whose metadata is JSON are
encoded, and decoded with their datetimes cut down to the millisecond in UTC. -/
theorem codec_round_trip (py : Pydantic) :
    (∀ wire : Items, searchResultPageSchema.Valid (.dict wire) →
      searchResultPageSchema.All Representable (.dict wire) →
      ∃ page encoded, decodeSearchResultPage py wire = .ok page ∧
        encodeSearchResultPage py page = .ok encoded ∧
        Same (.dict encoded) (.dict (normalizeSearchResultPage wire))) ∧
    ∀ page : SearchResultPage String, (∀ r ∈ page.results, Encodable r.memory) →
      ∃ encoded, encodeSearchResultPage py page = .ok encoded ∧
        decodeSearchResultPage py encoded = .ok (floorSearchResultPage page) := by
  constructor
  · intro wire hvalid hrepresentable
    obtain ⟨page, hread, hok, hsame⟩ := page_reads py (All.and _ _ hvalid hrepresentable)
    exact ⟨page, _, (decodeSearchResultPage_iff py wire page).mpr hread,
      encodeSearchResultPage_eq py hok, hsame⟩
  · intro page hok
    exact ⟨_, encodeSearchResultPage_eq py hok,
      (decodeSearchResultPage_iff py _ _).mpr (readSearchResultPage_wire py hok)⟩

def samplePage : Items :=
  [("results", .list [.dict
    [("memory", .dict [("id", .str "m"), ("content", .str "c"), ("scope", .dict []),
        ("createdAt", .str "2026-05-30T12:00:00+02:00"), ("metadata", .dict [("k", .none)])]),
      ("score", .int 1), ("version_id", .none)]])]

theorem codec_round_trip_sample : ∃ page encoded,
    decodeSearchResultPage Pydantic.reference samplePage = .ok page ∧
      encodeSearchResultPage Pydantic.reference page = .ok encoded ∧
      Same (.dict encoded) (.dict (normalizeSearchResultPage samplePage)) := by
  have hstamp : (parseRfc3339 "2026-05-30T12:00:00+02:00".toList).isSome ∧
      ∀ d ∈ parseRfc3339 "2026-05-30T12:00:00+02:00".toList, d.InRange := by decide
  have hone : ExactFloat 1 := ⟨1, 0, by decide, by decide, by decide⟩
  refine (codec_round_trip Pydantic.reference).1 samplePage ?_ ?_
  · simpa [samplePage, searchResultPageSchema, searchResultSchema, memorySchema, scopeSchema,
      Schema.Valid, All, propertiesAll, Matches, Within, Items.lookup_cons, Items.keys]
      using hstamp.1
  · simpa [samplePage, searchResultPageSchema, searchResultSchema, memorySchema, scopeSchema,
      All, propertiesAll, Representable, itemsIsJson, isJson, Items.lookup_cons, hone]
      using hstamp.2

def earlyDatetime : DateTime := (parseRfc3339 "0001-01-01T00:00:00+01:00".toList).get rfl

def earlyPage : SearchResultPage String :=
  ⟨[⟨⟨"m", "c", ⟨none, none, none, none⟩, none, earlyDatetime, none, none, none⟩, 1, none, none,
    none, none, none⟩], none, none⟩

def hugePage : Items :=
  [("results", .list []),
    ("retrieval", .dict [("embedding_model", .str "m"), ("embedding_model_version", .str "1"),
      ("embedding_dimensions", .float (10 ^ 19)), ("query_text", .str "q"),
      ("candidate_ids", .list []), ("trace_id", .str "t")])]

/-- A datetime with no UTC form in years 1 to 9999 cannot be encoded, and a valid page with
a large dimension cannot be decoded. -/
theorem not_always_round_trips :
    encodeSearchResultPage Pydantic.reference earlyPage = .error .overflowError ∧
      searchResultPageSchema.Valid (.dict hugePage) ∧ ExactFloat (10 ^ 19) ∧
      decodeSearchResultPage Pydantic.reference hugePage =
        .error (.validationError "SearchResultPage") := by
  refine ⟨rfl, ?_, ⟨5 ^ 19, 19, by decide, by decide, by decide⟩, rfl⟩
  simp [hugePage, searchResultPageSchema, retrievalReceiptSchema, Schema.Valid, All, propertiesAll,
    Matches, Items.lookup_cons, Items.keys]

end AtomicMemory.Contract
