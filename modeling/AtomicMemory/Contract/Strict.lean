import AtomicMemory.Contract.WireForm

-- The guards and the models check the keys of pages, results, memories, provenances and
-- scopes. They leave open a missing list, which its default replaces, and the keys of the
-- retrieval receipt.

open PyValue hiding none
open Schema

namespace AtomicMemory.Contract

theorem optField_ok {α : Type} {f : PyValue → Option α} {items : Items} {key : String}
    {x : Option α} {v : PyValue} (h : optField f items key = some x)
    (hv : items.lookup key = some v) : v = .none ∨ ∃ a, f v = some a := by
  unfold optField at h
  rw [hv] at h
  dsimp only [nullable] at h
  split at h
  · exact .inl rfl
  · obtain ⟨a, ha, -⟩ := Option.map_eq_some_iff.mp h
    exact .inr ⟨a, ha⟩

/-- An object that is read by `f`, or `None`, has the keys that `f` asks for. -/
theorem strictKeys_ofDict {α : Type} {f : Items → Option α} {s : Schema}
    (hs : ∀ items m, f items = some m → s.StrictKeys (.dict items)) {v : PyValue}
    (h : ∃ a, ofDict f v = some a) : s.StrictKeys v := by
  obtain ⟨a, ha⟩ := h
  obtain ⟨items, hitems, ha⟩ := Option.bind_eq_some_iff.mp ha
  cases v with
  | dict items' =>
    cases hitems
    exact hs items a ha
  | _ => cases hitems

theorem readProvenance_strictKeys (items : Items) (p : Provenance)
    (h : readProvenance items = some p) : provenanceSchema.StrictKeys (.dict items) := by
  obtain ⟨hkeys, -⟩ := forbidExtra_ok h
  simpa [provenanceSchema, StrictKeys, All, propertiesAll, HasKeys, provenanceWireKeys] using hkeys

theorem scope_strictKeys (items : Items) (s : Scope String) (h : Scope.ofItems items = some s) :
    scopeSchema.StrictKeys (.dict items) := by
  obtain ⟨hkeys, -⟩ := forbidExtra_ok h
  simpa [scopeSchema, StrictKeys, All, propertiesAll, HasKeys, scopeKeys] using hkeys

section

variable {py : Pydantic}

theorem readMemory_strictKeys (items : Items) (m : Memory String)
    (h : readMemory py items = some m) : memorySchema.StrictKeys (.dict items) := by
  obtain ⟨hkeys, h⟩ := forbidExtra_ok h
  obtain ⟨_, hid, h⟩ := Option.bind_eq_some_iff.mp h
  obtain ⟨_, hcontent, h⟩ := Option.bind_eq_some_iff.mp h
  obtain ⟨_, hscope, h⟩ := Option.bind_eq_some_iff.mp h
  obtain ⟨_, -, h⟩ := Option.bind_eq_some_iff.mp h
  obtain ⟨_, hcreated, h⟩ := Option.bind_eq_some_iff.mp h
  obtain ⟨_, -, h⟩ := Option.bind_eq_some_iff.mp h
  obtain ⟨_, hprov, -⟩ := Option.bind_eq_some_iff.mp h
  have hscope' : ∀ v, items.lookup "scope" = some v → scopeSchema.StrictKeys v := by
    intro v hv
    rw [field, hv] at hscope
    exact strictKeys_ofDict scope_strictKeys ⟨_, hscope⟩
  have hprov' : ∀ v, items.lookup "provenance" = some v → provenanceSchema.StrictKeys v := by
    intro v hv
    obtain rfl | hread := optField_ok hprov hv
    · trivial
    · exact strictKeys_ofDict readProvenance_strictKeys hread
  have hmeta : ∀ v, items.lookup "metadata" = some v → (object [] [] true).StrictKeys v := by
    intro v _
    cases v <;> simp [StrictKeys, All, propertiesAll, HasKeys]
  refine ⟨⟨?_, fun _ => hkeys⟩, fun _ _ => trivial, fun _ _ => trivial, hscope', fun _ _ => trivial,
    fun _ _ => trivial, fun _ _ => trivial, hprov', hmeta, trivial⟩
  simp [mem_keys_of_field hid, mem_keys_of_field hcontent, mem_keys_of_field hscope,
    mem_keys_of_field hcreated]

theorem readSearchResult_strictKeys (items : Items) (r : SearchResult String)
    (h : readSearchResult py items = some r) : searchResultSchema.StrictKeys (.dict items) := by
  obtain ⟨hkeys, h⟩ := forbidExtra_ok h
  obtain ⟨_, hmemory, h⟩ := Option.bind_eq_some_iff.mp h
  obtain ⟨_, hscore, -⟩ := Option.bind_eq_some_iff.mp h
  have hmemory' : ∀ v, items.lookup "memory" = some v → memorySchema.StrictKeys v := by
    intro v hv
    rw [field, hv] at hmemory
    exact strictKeys_ofDict readMemory_strictKeys ⟨_, hmemory⟩
  refine ⟨⟨?_, fun _ => hkeys⟩, hmemory', fun _ _ => trivial, fun _ _ => trivial,
    fun _ _ => trivial, fun _ _ => trivial, fun _ _ => trivial, fun _ _ => trivial, trivial⟩
  simp [mem_keys_of_field hmemory, mem_keys_of_field hscore]

theorem readResults_strictKeys {v : PyValue} {results : List (SearchResult String)}
    (h : readResults py v = some results) : (array searchResultSchema).StrictKeys v := by
  cases v with
  | list xs =>
    refine ⟨trivial, fun x hx => ?_⟩
    have hread := mapM_eq_some_iff.mp h
    obtain ⟨n, hn, rfl⟩ := List.mem_iff_getElem.mp hx
    have hlen := hread.length_eq
    exact strictKeys_ofDict readSearchResult_strictKeys ⟨results[n], hread.get hn (hlen ▸ hn)⟩
  | _ => trivial

theorem texts_strictKeys (v : PyValue) : (array string).StrictKeys v := by
  cases v with
  | list xs => exact ⟨trivial, fun _ _ => trivial⟩
  | _ => trivial

theorem receipt_required {items : Items} {r : RetrievalReceipt}
    (h : RetrievalReceipt.ofItems py items = some r) :
    ∀ key ∈ ["embedding_model", "embedding_model_version", "embedding_dimensions", "query_text",
      "trace_id"], key ∈ Items.keys items := by
  obtain ⟨_, -, h⟩ := Option.bind_eq_some_iff.mp h
  obtain ⟨_, hmodel, h⟩ := Option.bind_eq_some_iff.mp h
  obtain ⟨_, hversion, h⟩ := Option.bind_eq_some_iff.mp h
  obtain ⟨_, hdimensions, h⟩ := Option.bind_eq_some_iff.mp h
  obtain ⟨_, hquery, h⟩ := Option.bind_eq_some_iff.mp h
  obtain ⟨_, -, h⟩ := Option.bind_eq_some_iff.mp h
  obtain ⟨_, htrace, -⟩ := Option.bind_eq_some_iff.mp h
  simp [mem_keys_of_field hmodel, mem_keys_of_field hversion, mem_keys_of_field hdimensions,
    mem_keys_of_field hquery, mem_keys_of_field htrace]

theorem receipt_strictKeys_iff {items : Items} {r : RetrievalReceipt}
    (h : RetrievalReceipt.ofItems py items = some r) :
    retrievalReceiptSchema.StrictKeys (.dict items) ↔ "candidate_ids" ∈ Items.keys items ∧
      ∀ key ∈ Items.keys items, key ∈ propertyKeys retrievalReceiptSchema := by
  have hreq := receipt_required h
  constructor
  · rintro ⟨⟨hrequired, hkeys⟩, -⟩
    exact ⟨hrequired _ (by decide), hkeys rfl⟩
  · rintro ⟨hcandidates, hkeys⟩
    refine ⟨⟨?_, fun _ => hkeys⟩, ?_⟩
    · obtain ⟨hmodel, hversion, hdimensions, hquery, htrace⟩ := by simpa using hreq
      simp [hmodel, hversion, hdimensions, hquery, hcandidates, htrace]
    · exact ⟨fun _ _ => trivial, fun _ _ => trivial, fun _ _ => trivial, fun _ _ => trivial,
        fun _ _ => trivial, fun v _ => texts_strictKeys v, fun _ _ => trivial, trivial⟩

end

/-- An accepted page is strict exactly if it has its results, and its receipt, when there is
one, has its candidates and no keys of its own; an accepted ingest result, if it has all
three lists. -/
theorem accepted_strict_iff (py : Pydantic) (wire : Items) :
    (∀ page, decodeSearchResultPage py wire = .ok page →
      (searchResultPageSchema.StrictKeys (.dict wire) ↔ "results" ∈ Items.keys wire ∧
        ∀ receipt, wire.lookup "retrieval" = some (.dict receipt) →
          "candidate_ids" ∈ Items.keys receipt ∧
            ∀ key ∈ Items.keys receipt, key ∈ propertyKeys retrievalReceiptSchema)) ∧
    ∀ result, decodeIngestResult wire = .ok result →
      (ingestResultSchema.StrictKeys (.dict wire) ↔
        ∀ key ∈ ingestResultWireKeys, key ∈ Items.keys wire) := by
  constructor
  · intro page h
    obtain ⟨hkeys, h⟩ := forbidExtra_ok ((decodeSearchResultPage_iff py wire page).mp h)
    obtain ⟨results, hresults, h⟩ := Option.bind_eq_some_iff.mp h
    obtain ⟨_, -, h⟩ := Option.bind_eq_some_iff.mp h
    obtain ⟨retrieval, hretrieval, -⟩ := Option.bind_eq_some_iff.mp h
    have hreceipt : ∀ receipt, wire.lookup "retrieval" = some (.dict receipt) →
        (retrievalReceiptSchema.StrictKeys (.dict receipt) ↔
          "candidate_ids" ∈ Items.keys receipt ∧
            ∀ key ∈ Items.keys receipt, key ∈ propertyKeys retrievalReceiptSchema) := by
      intro receipt hv
      obtain hnone | ⟨r, hr⟩ := optField_ok hretrieval hv
      · cases hnone
      · exact receipt_strictKeys_iff hr
    constructor
    · rintro ⟨⟨hrequired, -⟩, -, -, hstrict, -⟩
      exact ⟨hrequired _ (by decide), fun receipt hv => (hreceipt receipt hv).mp (hstrict _ hv)⟩
    · rintro ⟨hpresent, hclosed⟩
      -- the results and their parts are strict in any accepted page
      refine ⟨⟨by simpa using hpresent, fun _ => hkeys⟩, fun v hv => ?_, fun _ _ => trivial,
        fun v hv => ?_, trivial⟩
      · rw [defaultField, hv] at hresults
        exact readResults_strictKeys hresults
      · cases v with
        | dict receipt => exact (hreceipt receipt hv).mpr (hclosed receipt hv)
        | _ => trivial
  · intro result h
    obtain ⟨hkeys, -⟩ := forbidExtra_ok ((decodeIngestResult_iff wire result).mp h)
    constructor
    · rintro ⟨⟨hrequired, -⟩, -⟩
      exact hrequired
    · intro hrequired
      exact ⟨⟨hrequired, fun _ => hkeys⟩, fun v _ => texts_strictKeys v,
        fun v _ => texts_strictKeys v, fun v _ => texts_strictKeys v, trivial⟩

def openReceiptPage : Items :=
  [("results", .list []),
    ("retrieval", .dict [("embedding_model", .str "m"), ("embedding_model_version", .str "1"),
      ("embedding_dimensions", .int 8), ("query_text", .str "q"),
      ("candidate_ids", .list [.str "m1"]), ("trace_id", .str "t"), ("note", .int 1)])]

theorem accepted_strict_iff_openReceipt :
    ∃ page, decodeSearchResultPage Pydantic.reference openReceiptPage = .ok page ∧
      ¬searchResultPageSchema.StrictKeys (.dict openReceiptPage) := by
  have hdecode : decodeSearchResultPage Pydantic.reference openReceiptPage =
      .ok ⟨[], none, some ⟨none, "m", "1", 8, "q", ["m1"], "t"⟩⟩ := rfl
  refine ⟨_, hdecode, fun hstrict => ?_⟩
  obtain ⟨-, hreceipt⟩ := ((accepted_strict_iff _ _).1 _ hdecode).mp hstrict
  obtain ⟨-, hclosed⟩ := hreceipt _ rfl
  exact absurd (hclosed "note" (by decide)) (by decide)

/-- The empty object passes for a page and for an ingest result, and is strict as neither. -/
theorem not_always_strict :
    (∃ page, decodeSearchResultPage Pydantic.reference [] = .ok page ∧
      ¬searchResultPageSchema.StrictKeys (.dict [])) ∧
    ∃ result, decodeIngestResult [] = .ok result ∧ ¬ingestResultSchema.StrictKeys (.dict []) := by
  refine ⟨⟨⟨[], none, none⟩, rfl, ?_⟩, ⟨[], [], []⟩, rfl, ?_⟩
  · rintro ⟨⟨hrequired, -⟩, -⟩
    exact absurd (hrequired "results" (by decide)) (by decide)
  · rintro ⟨⟨hrequired, -⟩, -⟩
    exact absurd (hrequired "created" (by decide)) (by decide)

end AtomicMemory.Contract
