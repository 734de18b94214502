import AtomicMemory.Contract.WireForm

-- Encoding succeeds on a model whose datetimes lie in years 1 to 9999 and whose metadata is
-- JSON, and the decoders read the model back with its datetimes cut down to the millisecond.

open Calendar
open PyValue hiding none

namespace AtomicMemory.Contract

theorem instant_replaceUtc {d : DateTime} (h : d.offset = none) :
    d.replaceUtc.instant = d.instant := by
  simp [DateTime.instant, DateTime.replaceUtc, DateTime.utc, h]

theorem instant_localized (d : DateTime) :
    (if d.offset = none then d.replaceUtc else d).instant = d.instant := by
  split
  · exact instant_replaceUtc ‹_›
  · rfl

theorem toIsoZ_eq {d : DateTime} (h : d.InRange) : toIsoZ d = .ok d.zText := by
  set value := if d.offset = none then d.replaceUtc else d with hvalue
  have hinstant : value.instant = d.instant := instant_localized d
  have hrange : value.InRange := by
    unfold DateTime.InRange
    rw [hinstant]
    exact h
  have hutc : value.astimezoneUtc = some (.utc d.instant.toNat (DateTime.toNat_instant_lt h)) := by
    unfold DateTime.astimezoneUtc
    rw [dif_pos hrange]
    simp only [hinstant]
  have hoffset : offsetText (some 0) = '+' :: "00:00".toList := by decide
  have hplus : "+00:00".toList = '+' :: "00:00".toList := by decide
  have hz : "Z".toList = ['Z'] := by decide
  have htext (u : DateTime) (hu : u.offset = some 0) :
      replaceFrom "+00:00".toList "Z".toList 0 u.isoMillis = u.millisText ++ ['Z'] := by
    rw [DateTime.isoMillis, hu, hoffset, hplus, hz]
    exact replaceFrom_append u.plus_not_mem_millisText
  unfold toIsoZ
  simp only [← hvalue, hutc]
  rw [htext _ rfl, DateTime.zText, dif_pos h]

mutual
theorem jsonify_eq : ∀ v : PyValue, v.isJson = true → jsonify v = .ok v
  | .datetime _, h => by cases h
  | .dict items, h => by
    rw [jsonify, jsonifyItems_eq items h]
    rfl
  | .list xs, h => by
    rw [jsonify, jsonifyList_eq xs h]
    rfl
  | .none, _ | .bool _, _ | .int _, _ | .float _, _ | .str _, _ => rfl

theorem jsonifyList_eq : ∀ xs : List PyValue, listIsJson xs = true → jsonifyList xs = .ok xs
  | [], _ => rfl
  | x :: xs, h => by
    obtain ⟨hx, hxs⟩ := Bool.and_eq_true_iff.mp h
    rw [jsonifyList, jsonify_eq x hx, jsonifyList_eq xs hxs]
    rfl

theorem jsonifyItems_eq : ∀ items : Items, itemsIsJson items = true → jsonifyItems items = .ok items
  | [], _ => rfl
  | (key, v) :: items, h => by
    obtain ⟨hv, hitems⟩ := Bool.and_eq_true_iff.mp h
    rw [jsonifyItems, jsonify_eq v hv, jsonifyItems_eq items hitems]
    rfl
end

structure Encodable (m : Memory String) : Prop where
  createdAt : m.createdAt.InRange
  updatedAt : ∀ d ∈ m.updatedAt, d.InRange
  metadata : ∀ items ∈ m.metadata, itemsIsJson items = true

section

variable (py : Pydantic)

/-- What `encodeMemory` emits for a model that can be encoded. -/
def wireMemory (m : Memory String) : Items :=
  let data : Items := m.dump py.jsonMode
  let data := (data.erase "created_at").erase "updated_at"
  let data := data.set "createdAt" (.str m.createdAt.zText)
  let data := data.setSome "updatedAt" ((m.updatedAt.map DateTime.zText).map .str)
  let data := data.setSome "provenance" (m.provenance.map fun p => .dict (encodeProvenance p))
  data.setSome "metadata" (m.metadata.map .dict)

def wireSearchResult (r : SearchResult String) : Items :=
  let data : Items := r.dump py.jsonMode
  (data.rename "ranking_score" "rankingScore").set "memory" (.dict (wireMemory py r.memory))

def wireSearchResultPage (page : SearchResultPage String) : Items :=
  [("results", .list (page.results.map fun r => .dict (wireSearchResult py r)))] ++
    optItem "cursor" page.cursor .str ++
    optItem "retrieval" page.retrieval fun receipt => .dict receipt.dump

theorem encodeMemory_eq {m : Memory String} (h : Encodable m) :
    encodeMemory py m = .ok (wireMemory py m) := by
  obtain ⟨hcreated, hupdated, hmeta⟩ := h
  have htext : m.updatedAt.mapM toIsoZ = .ok (m.updatedAt.map DateTime.zText) := by
    cases hu : m.updatedAt with
    | none => rfl
    | some d =>
      rw [Option.mapM_some, toIsoZ_eq (hupdated d hu)]
      rfl
  unfold encodeMemory wireMemory
  rw [toIsoZ_eq hcreated, htext]
  simp only [bind, Except.bind]
  generalize hdata : Items.setSome _ "provenance" _ = data
  -- the guard looks at the JSON dump, what is written comes from the model
  have hlookup : data.lookup "metadata" = m.metadata.map fun items =>
      .dict (items.map fun item => (item.1, py.jsonMode.any item.2)) := by
    rw [← hdata]
    simp [Items.lookup_setSome, Items.lookup_set, Items.lookup_erase, Memory.dump,
      Items.lookup_append, Items.lookup_cons, lookup_optItem]
  rw [Items.get, hlookup]
  cases hm : m.metadata with
  | none => rfl
  | some items =>
    have hjson : jsonify (.dict items) = .ok (.dict items) := jsonify_eq _ (hmeta items hm)
    simp only [Option.map_some, Option.getD_some, hjson]
    rfl

theorem encodeSearchResult_eq {r : SearchResult String} (h : Encodable r.memory) :
    encodeSearchResult py r = .ok (wireSearchResult py r) := by
  unfold encodeSearchResult
  rw [encodeMemory_eq py h]
  rfl

theorem encodeSearchResultPage_eq {page : SearchResultPage String}
    (h : ∀ r ∈ page.results, Encodable r.memory) :
    encodeSearchResultPage py page = .ok (wireSearchResultPage py page) := by
  have hresults (n : ℕ) (results : List (SearchResult String))
      (h : ∀ r ∈ results, Encodable r.memory) :
      comprehension (fun _ r => do
        let result ← encodeSearchResult py r
        .ok (PyValue.dict result)) n results =
      .ok (results.map fun r => .dict (wireSearchResult py r)) := by
    induction results generalizing n with
    | nil => rfl
    | cons r results ih =>
      obtain ⟨hr, hrest⟩ := List.forall_mem_cons.mp h
      rw [comprehension, encodeSearchResult_eq py hr, ih (n + 1) hrest]
      rfl
  unfold encodeSearchResultPage
  rw [hresults 0 _ h]
  rfl

def floorMemory (m : Memory String) : Memory String :=
  { m with createdAt := m.createdAt.floored, updatedAt := m.updatedAt.map DateTime.floored }

def floorSearchResult (r : SearchResult String) : SearchResult String :=
  { r with memory := floorMemory r.memory }

def floorSearchResultPage (page : SearchResultPage String) : SearchResultPage String :=
  { page with results := page.results.map floorSearchResult }

theorem keys_encodeProvenance (p : Provenance) :
    ∀ key ∈ Items.keys (encodeProvenance p), key ∈ provenanceWireKeys := by
  rw [Items.keys_subset_iff]
  intro key hkey
  simp only [provenanceWireKeys, List.mem_cons, List.not_mem_nil, or_false, not_or] at hkey
  simp only [encodeProvenance, Items.lookup_rename, Provenance.dump, Items.lookup_append,
    lookup_optItem, hkey, if_false, Option.none_or]
  split
  · rfl
  · split
    · rfl
    · rfl

theorem readProvenance_encode (p : Provenance) : readProvenance (encodeProvenance p) = some p := by
  have hfield (key : String) (x : Option String)
      (h : (encodeProvenance p).lookup key = x.map .str) :
      optField str? (encodeProvenance p) key = some x := optField_map h fun a _ => ⟨nofun, rfl⟩
  unfold readProvenance
  rw [forbidExtra_eq (keys_encodeProvenance p), hfield "source" p.source,
    hfield "sourceUrl" p.sourceUrl, hfield "sourceId" p.sourceId,
    hfield "extractor" p.extractor]
  · rfl
  all_goals simp [encodeProvenance, Items.lookup_rename, Provenance.dump, Items.lookup_append,
    lookup_optItem]

theorem map_or_map {α β : Type} (x : Option α) (f g : α → β) :
    (x.map f).or (x.map g) = x.map f := by
  cases x <;> rfl

theorem lookup_wireMemory (m : Memory String) (key : String) :
    (wireMemory py m).lookup key =
      if key = "metadata" then m.metadata.map .dict
      else if key = "provenance" then m.provenance.map fun p => .dict (encodeProvenance p)
      else if key = "updatedAt" then m.updatedAt.map fun d => .str d.zText
      else if key = "createdAt" then some (.str m.createdAt.zText)
      else if key = "id" then some (.str m.id)
      else if key = "content" then some (.str m.content)
      else if key = "scope" then some (.dict m.scope.dump)
      else if key = "kind" then m.kind.map fun kind => .str kind.text
      else none := by
  simp only [wireMemory, Items.lookup_setSome, Items.lookup_set, Items.lookup_erase]
  -- the names of the dump that are removed play a part too
  by_cases hkey : key ∈ "created_at" :: "updated_at" :: memoryWireKeys
  · simp only [memoryWireKeys, List.mem_cons, List.not_mem_nil, or_false] at hkey
    rcases hkey with rfl | rfl | rfl | rfl | rfl | rfl | rfl | rfl | rfl | rfl <;>
      simp [Memory.dump, Items.lookup_append, Items.lookup_cons, lookup_optItem, map_or_map,
        Function.comp_def]
  · simp only [memoryWireKeys, List.mem_cons, List.not_mem_nil, or_false, not_or] at hkey
    simp [Memory.dump, Items.lookup_append, Items.lookup_cons, lookup_optItem, hkey]

theorem keys_wireMemory (m : Memory String) :
    ∀ key ∈ Items.keys (wireMemory py m), key ∈ memoryWireKeys := by
  rw [Items.keys_subset_iff]
  intro key hkey
  simp only [memoryWireKeys, List.mem_cons, List.not_mem_nil, or_false, not_or] at hkey
  simp [lookup_wireMemory, hkey]

theorem readMemory_wire {m : Memory String} (h : Encodable m) :
    readMemory py (wireMemory py m) = some (floorMemory m) := by
  have hdatetime (d : DateTime) (hd : d.InRange) : py.datetime (.str d.zText) = some d.floored :=
    py.datetime_str _ _ (DateTime.parseRfc3339_zText hd)
  have hupdated : optField py.datetime (wireMemory py m) "updatedAt" =
      some (m.updatedAt.map DateTime.floored) := by
    have hlookup : (wireMemory py m).lookup "updatedAt" =
        m.updatedAt.map fun d => .str d.zText := by
      simp [lookup_wireMemory]
    unfold optField
    rw [hlookup]
    cases hu : m.updatedAt with
    | none => rfl
    | some d => exact nullable_eq nofun (hdatetime d (h.updatedAt d hu))
  unfold readMemory
  rw [forbidExtra_eq (keys_wireMemory py m), field_eq (a := m.id) (v := .str m.id) _ rfl,
    field_eq (a := m.content) (v := .str m.content) _ rfl,
    field_eq (a := m.scope) (v := .dict m.scope.dump) _ (Scope.ofItems_dump m.scope),
    optField_map (x := m.kind) (g := fun kind => .str kind.text) _
      fun kind _ => ⟨nofun, MemoryKind.ofValue_text kind⟩,
    field_eq (v := .str m.createdAt.zText) _ (hdatetime _ h.createdAt), hupdated,
    optField_map (x := m.provenance) (g := fun p => .dict (encodeProvenance p)) _
      fun p _ => ⟨nofun, readProvenance_encode p⟩,
    optField_map (x := m.metadata) (g := .dict) _ fun items _ => ⟨nofun, rfl⟩]
  · rfl
  all_goals simp [lookup_wireMemory]

theorem lookup_wireSearchResult (r : SearchResult String) (key : String) :
    (wireSearchResult py r).lookup key =
      if key = "memory" then some (.dict (wireMemory py r.memory))
      else if key = "rankingScore" then r.rankingScore.map .float
      else if key = "score" then some (.float r.score)
      else if key = "similarity" then r.similarity.map .float
      else if key = "relevance" then r.relevance.map .float
      else if key = "version_id" then r.versionId.map .str
      else if key = "observed_at" then r.observedAt.map .str
      else none := by
  have hlookup : (wireSearchResult py r).lookup key = if key = "memory" then
      some (.dict (wireMemory py r.memory)) else
        (Items.rename (r.dump py.jsonMode) "ranking_score" "rankingScore").lookup key :=
    Items.lookup_set _ _ _ _
  rw [hlookup, Items.lookup_rename]
  by_cases hkey : key ∈ "ranking_score" :: searchResultWireKeys
  · simp only [searchResultWireKeys, List.mem_cons, List.not_mem_nil, or_false] at hkey
    rcases hkey with rfl | rfl | rfl | rfl | rfl | rfl | rfl | rfl <;>
      simp [SearchResult.dump, Items.lookup_append, Items.lookup_cons, lookup_optItem]
  · simp only [searchResultWireKeys, List.mem_cons, List.not_mem_nil, or_false, not_or] at hkey
    simp [SearchResult.dump, Items.lookup_append, Items.lookup_cons, lookup_optItem, hkey]

theorem keys_wireSearchResult (r : SearchResult String) :
    ∀ key ∈ Items.keys (wireSearchResult py r), key ∈ searchResultWireKeys := by
  rw [Items.keys_subset_iff]
  intro key hkey
  simp only [searchResultWireKeys, List.mem_cons, List.not_mem_nil, or_false, not_or] at hkey
  simp [lookup_wireSearchResult, hkey]

theorem readSearchResult_wire {r : SearchResult String} (h : Encodable r.memory) :
    readSearchResult py (wireSearchResult py r) = some (floorSearchResult r) := by
  unfold readSearchResult
  rw [forbidExtra_eq (keys_wireSearchResult py r),
    field_eq (v := .dict (wireMemory py r.memory)) _ (readMemory_wire py h),
    field_eq (a := r.score) (v := .float r.score) _ (py.float_float _),
    optField_map (x := r.similarity) (g := .float) _ fun q _ => ⟨nofun, py.float_float q⟩,
    optField_map (x := r.rankingScore) (g := .float) _ fun q _ => ⟨nofun, py.float_float q⟩,
    optField_map (x := r.relevance) (g := .float) _ fun q _ => ⟨nofun, py.float_float q⟩,
    optField_map (x := r.versionId) (g := .str) _ fun text _ => ⟨nofun, rfl⟩,
    optField_map (x := r.observedAt) (g := .str) _ fun text _ => ⟨nofun, rfl⟩]
  · rfl
  all_goals simp [lookup_wireSearchResult]

theorem lookup_wireSearchResultPage (page : SearchResultPage String) (key : String) :
    (wireSearchResultPage py page).lookup key =
      if key = "results" then some (.list (page.results.map fun r => .dict (wireSearchResult py r)))
      else if key = "cursor" then page.cursor.map .str
      else if key = "retrieval" then page.retrieval.map fun receipt => .dict receipt.dump
      else none := by
  simp only [wireSearchResultPage, Items.lookup_append, Items.lookup_cons, lookup_optItem,
    List.lookup_nil]
  split
  · rfl
  · split
    · rename_i hcursor
      simp [hcursor]
    · rfl

theorem keys_wireSearchResultPage (page : SearchResultPage String) :
    ∀ key ∈ Items.keys (wireSearchResultPage py page), key ∈ searchResultPageWireKeys := by
  rw [Items.keys_subset_iff]
  intro key hkey
  simp only [searchResultPageWireKeys, List.mem_cons, List.not_mem_nil, or_false, not_or] at hkey
  simp [lookup_wireSearchResultPage, hkey]

theorem readSearchResultPage_wire {page : SearchResultPage String}
    (h : ∀ r ∈ page.results, Encodable r.memory) :
    readSearchResultPage py (wireSearchResultPage py page) = some (floorSearchResultPage page) := by
  have hresults : defaultField (readResults py) [] (wireSearchResultPage py page) "results" =
      some (page.results.map floorSearchResult) := by
    have hlookup : (wireSearchResultPage py page).lookup "results" =
        some (.list (page.results.map fun r => .dict (wireSearchResult py r))) := rfl
    unfold defaultField
    rw [hlookup]
    refine mapM_eq_some_iff.mpr ?_
    rw [List.forall₂_map_left_iff, List.forall₂_map_right_iff]
    exact List.forall₂_same.mpr fun r hr => readSearchResult_wire py (h r hr)
  unfold readSearchResultPage
  rw [forbidExtra_eq (keys_wireSearchResultPage py page), hresults,
    optField_map (x := page.cursor) (g := .str) _ fun text _ => ⟨nofun, rfl⟩,
    optField_map (x := page.retrieval) (g := fun receipt => .dict receipt.dump) _
      fun receipt _ => ⟨nofun, RetrievalReceipt.ofItems_dump py receipt⟩]
  · rfl
  all_goals simp [lookup_wireSearchResultPage]

end

end AtomicMemory.Contract
