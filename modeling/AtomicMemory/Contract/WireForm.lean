import AtomicMemory.Contract.Schema

-- The models read straight from the wire names, without renaming or validating twice. A
-- decoder returns a model exactly if this reading does.

open Calendar
open PyValue hiding none

namespace AtomicMemory

theorem modelValidate_ok_iff {α : Type} {model : String} {result : Option α} {m : α} :
    modelValidate model result = .ok m ↔ result = some m := by
  refine ⟨modelValidate_ok, fun h => ?_⟩
  rw [h]
  rfl

namespace Contract

/-- A nested object, read by `f`. -/
def ofDict {α : Type} (f : Items → Option α) (v : PyValue) : Option α := (dict? v).bind f

def readProvenance : Items → Option Provenance :=
  forbidExtra provenanceWireKeys fun items => do
    let source ← optField str? items "source"
    let sourceUrl ← optField str? items "sourceUrl"
    let sourceId ← optField str? items "sourceId"
    let extractor ← optField str? items "extractor"
    some ⟨source, sourceUrl, sourceId, extractor⟩

section

variable (py : Pydantic)

def readMemory : Items → Option (Memory String) :=
  forbidExtra memoryWireKeys fun items => do
    let id ← field str? items "id"
    let content ← field str? items "content"
    let scope ← field Scope.ofValue items "scope"
    let kind ← optField MemoryKind.ofValue items "kind"
    let createdAt ← field py.datetime items "createdAt"
    let updatedAt ← optField py.datetime items "updatedAt"
    let provenance ← optField (ofDict readProvenance) items "provenance"
    let metadata ← optField dict? items "metadata"
    some ⟨id, content, scope, kind, createdAt, updatedAt, provenance, metadata⟩

def readSearchResult : Items → Option (SearchResult String) :=
  forbidExtra searchResultWireKeys fun items => do
    let memory ← field (ofDict (readMemory py)) items "memory"
    let score ← field py.float items "score"
    let similarity ← optField py.float items "similarity"
    let rankingScore ← optField py.float items "rankingScore"
    let relevance ← optField py.float items "relevance"
    let versionId ← optField str? items "version_id"
    let observedAt ← optField str? items "observed_at"
    some ⟨memory, score, similarity, rankingScore, relevance, versionId, observedAt⟩

def readResults (v : PyValue) : Option (List (SearchResult String)) :=
  match iterate v with
  | .ok xs => xs.mapM (ofDict (readSearchResult py))
  | .error _ => none

def readSearchResultPage : Items → Option (SearchResultPage String) :=
  forbidExtra searchResultPageWireKeys fun items => do
    let results ← defaultField (readResults py) [] items "results"
    let cursor ← optField str? items "cursor"
    let retrieval ← optField (RetrievalReceipt.ofValue py) items "retrieval"
    some ⟨results, cursor, retrieval⟩

end

def readIngestResult : Items → Option IngestResult :=
  forbidExtra ingestResultWireKeys IngestResult.ofItems

theorem requireWireKeys_dict (items : Items) (allowed : List String) (typeName : String) :
    requireWireKeys (.dict items) allowed typeName = .ok () ↔
      ∀ key ∈ Items.keys items, key ∈ allowed := by
  have hset : setOf (.dict items) = .ok ((Items.keys items).map .str) := by
    have hhash : ((Items.keys items).map PyValue.str).all hashable = true := by
      simp [hashable]
    exact if_pos hhash
  have hempty : ((((Items.keys items).map PyValue.str).filter fun key =>
      !isKey allowed key).isEmpty = true) ↔ ∀ key ∈ Items.keys items, key ∈ allowed := by
    simp [isKey]
  unfold requireWireKeys
  rw [hset]
  simp only [bind, Except.bind]
  rw [← hempty]
  split <;> simp [*]

theorem requireWireKeys_ok {wire : PyValue} {allowed : List String} {typeName : String}
    (h : requireWireKeys wire allowed typeName = .ok ()) :
    ∃ keys, iterate wire = .ok keys ∧ ∀ key ∈ keys, isKey allowed key = true := by
  obtain ⟨keys, hset, h⟩ := Except.bind_ok h
  obtain ⟨xs, hxs, hset⟩ := Except.bind_ok hset
  split at hset
  · cases hset
    refine ⟨keys, hxs, ?_⟩
    dsimp only at h
    split at h
    · rename_i hempty
      simpa using hempty
    · cases h
  · cases hset

theorem dictOf_eq {wire : PyValue} {keys : List PyValue} (hkeys : iterate wire = .ok keys)
    (hwire : ∀ items, wire ≠ .dict items) : dictOf wire = comprehension pairOf 0 keys := by
  cases wire with
  | dict items => exact absurd rfl (hwire items)
  | _ => rw [dictOf, hkeys] <;> first | rfl | exact hwire

/-- A guarded value that is no dict becomes the empty dict, if it becomes one: no allowed
key is the two characters long that a pair is made of. -/
theorem dictOf_eq_nil {wire : PyValue} {allowed : List String} {typeName : String} {data : Items}
    (hlen : ∀ key ∈ allowed, key.toList.length ≠ 2)
    (hguard : requireWireKeys wire allowed typeName = .ok ()) (h : dictOf wire = .ok data)
    (hwire : ∀ items, wire ≠ .dict items) : data = [] := by
  obtain ⟨keys, hkeys, hallowed⟩ := requireWireKeys_ok hguard
  rw [dictOf_eq hkeys hwire] at h
  cases keys with
  | nil =>
    cases h
    rfl
  | cons key keys =>
    -- the first element would have to be a pair
    obtain ⟨pair, hpair, -⟩ := Except.bind_ok h
    have hkey := hallowed key List.mem_cons_self
    cases key with
    | str k =>
      have hk : k.toList.length ≠ 2 := hlen k (by simpa [isKey] using hkey)
      unfold pairOf at hpair
      dsimp only at hpair
      split at hpair
      · rename_i htwo
        rw [htwo] at hk
        exact absurd rfl hk
      · cases hpair
    | _ => cases hkey

/-- A guarded dict whose copy is decoded into what `f` reads. -/
theorem guarded_ok_iff {α : Type} {items : Items} {allowed : List String} {typeName : String}
    {f : Items → Option α} {m : α} (rest : Items → Except PyError α)
    (h : (∀ key ∉ allowed, items.lookup key = none) → (rest items = .ok m ↔ f items = some m)) :
    (do
      requireWireKeys (.dict items) allowed typeName
      let data ← dictOf (.dict items)
      rest data) = Except.ok m ↔ forbidExtra allowed f items = some m := by
  rw [Except.bind_ok_iff, forbidExtra]
  split
  · rename_i hkeys
    rw [← h ((Items.keys_subset_iff items allowed).mp hkeys)]
    refine ⟨fun ⟨_, _, hrest⟩ => hrest, fun hrest => ⟨(), ?_, hrest⟩⟩
    exact (requireWireKeys_dict items allowed typeName).mpr hkeys
  · rename_i hkeys
    refine ⟨fun ⟨_, hguard, _⟩ => absurd ?_ hkeys, nofun⟩
    exact (requireWireKeys_dict items allowed typeName).mp hguard

theorem decodeProvenance_dict (items : Items) (p : Provenance) :
    decodeProvenance (.dict items) = .ok p ↔ readProvenance items = some p := by
  refine guarded_ok_iff (fun data => modelValidate "Provenance" (Provenance.ofItems
    ((data.rename "sourceUrl" "source_url").rename "sourceId" "source_id"))) fun hkeys => ?_
  have hurl : items.lookup "source_url" = none := hkeys "source_url" (by decide)
  have hid : items.lookup "source_id" = none := hkeys "source_id" (by decide)
  have hdata : ∀ key ∈ Items.keys ((Items.rename items "sourceUrl" "source_url").rename "sourceId"
      "source_id"), key ∈ provenanceKeys := by
    rw [Items.keys_subset_iff]
    intro key hkey
    simp only [provenanceKeys, List.mem_cons, List.not_mem_nil, or_false, not_or] at hkey
    simp only [Items.lookup_rename, hkey, if_false]
    split
    · rfl
    · split
      · rfl
      · exact hkeys key (by simp [provenanceWireKeys, *])
  rw [modelValidate_ok_iff, Provenance.ofItems, forbidExtra_eq hdata]
  simp [optField, Items.lookup_rename, hurl, hid]

section

variable {α : Type} {key : String} {decode : PyValue → Except PyError α} {dump : α → Items}
  {read ofItems : Items → Option α} {data : Items}

theorem decodeAt_ok (hread : ∀ items m, decode (.dict items) = .ok m ↔ read items = some m)
    (hdump : ∀ m, ofItems (dump m) = some m) {data' : Items}
    (h : decodeAt key decode dump data = .ok data') :
    field (ofDict ofItems) data' key = field (ofDict read) data key ∧
      optField (ofDict ofItems) data' key = optField (ofDict read) data key ∧
      ∀ other ≠ key, data'.lookup other = data.lookup other := by
  unfold decodeAt at h
  split at h
  · rename_i items hitems
    obtain ⟨m, hm, h⟩ := Except.bind_ok h
    cases h
    have hnew : (data.set key (.dict (dump m))).lookup key = some (.dict (dump m)) := by
      rw [Items.lookup_set, if_pos rfl]
    have hr := (hread items m).mp hm
    refine ⟨?_, ?_, fun other hne => by rw [Items.lookup_set, if_neg hne]⟩
    · rw [field_eq hnew (hdump m), field_eq hitems hr]
    · simp only [optField, hnew, hitems, nullable, ofDict, dict?, Option.bind_some, hdump, hr]
  · rename_i hdict
    cases h
    -- what is no dict stays, and neither reader takes it
    cases hv : data.lookup key with
    | none => simp [field, optField, hv]
    | some v =>
      have hno : ∀ items, v ≠ .dict items := fun items hd => hdict items (hd ▸ hv)
      refine ⟨?_, ?_, fun _ _ => rfl⟩ <;> cases v <;>
        first
        | exact absurd rfl (hno _)
        | simp [field, optField, hv, nullable, ofDict, dict?]

theorem decodeAt_error (hread : ∀ items m, decode (.dict items) = .ok m ↔ read items = some m)
    {e : PyError} (h : decodeAt key decode dump data = .error e) :
    ∃ v, data.lookup key = some (.dict v) ∧ read v = none := by
  unfold decodeAt at h
  split at h
  · rename_i items hitems
    refine ⟨items, hitems, Option.eq_none_iff_forall_ne_some.mpr fun m hm => ?_⟩
    rw [(hread items m).mpr hm] at h
    cases h
  · cases h

end

theorem decodeMemory_dict (py : Pydantic) (items : Items) (m : Memory String) :
    decodeMemory py (.dict items) = .ok m ↔ readMemory py items = some m := by
  refine guarded_ok_iff (fun data => do
    let data ← decodeAt "provenance" decodeProvenance Provenance.dump
      ((data.rename "createdAt" "created_at").rename "updatedAt" "updated_at")
    modelValidate "Memory" (Memory.ofItems py data)) fun hkeys => ?_
  have hcreated : items.lookup "created_at" = none := hkeys "created_at" (by decide)
  have hupdated : items.lookup "updated_at" = none := hkeys "updated_at" (by decide)
  cases hdata : decodeAt "provenance" decodeProvenance Provenance.dump
      ((items.rename "createdAt" "created_at").rename "updatedAt" "updated_at") with
  | error e =>
    -- a provenance that is not decoded is not read either
    obtain ⟨v, hv, hnone⟩ := decodeAt_error decodeProvenance_dict hdata
    have hv : items.lookup "provenance" = some (.dict v) := by simpa [Items.lookup_rename] using hv
    have hfield : optField (ofDict readProvenance) items "provenance" = none := by
      simp [optField, hv, nullable, ofDict, dict?, hnone]
    simp [hfield, bind, Except.bind]
  | ok data =>
    obtain ⟨-, hprov, hother⟩ := decodeAt_ok decodeProvenance_dict Provenance.ofItems_dump hdata
    change modelValidate "Memory" (Memory.ofItems py data) = .ok m ↔ _
    rw [modelValidate_ok_iff]
    have hp : optField Provenance.ofValue data "provenance" =
        optField (ofDict readProvenance) items "provenance" := by
      refine hprov.trans ?_
      simp [optField, Items.lookup_rename]
    unfold Memory.ofItems
    rw [hp]
    generalize optField (ofDict readProvenance) items "provenance" = provenance
    -- the other fields are looked up under their wire names
    simp [field, optField, hother, Items.lookup_rename, hcreated, hupdated]

section

variable (py : Pydantic)

theorem decodeSearchResult_dict (items : Items) (r : SearchResult String) :
    decodeSearchResult py (.dict items) = .ok r ↔ readSearchResult py items = some r := by
  refine guarded_ok_iff (fun data => do
    let data ← decodeAt "memory" (decodeMemory py) (Memory.dump pythonMode)
      (data.rename "rankingScore" "ranking_score")
    modelValidate "SearchResult" (SearchResult.ofItems py data)) fun hkeys => ?_
  have hranking : items.lookup "ranking_score" = none := hkeys "ranking_score" (by decide)
  cases hdata : decodeAt "memory" (decodeMemory py) (Memory.dump pythonMode)
      (items.rename "rankingScore" "ranking_score") with
  | error e =>
    obtain ⟨v, hv, hnone⟩ := decodeAt_error (decodeMemory_dict py) hdata
    have hv : items.lookup "memory" = some (.dict v) := by simpa [Items.lookup_rename] using hv
    have hfield : field (ofDict (readMemory py)) items "memory" = none := by
      simp [field, hv, ofDict, dict?, hnone]
    simp [hfield, bind, Except.bind]
  | ok data =>
    obtain ⟨hmemory, -, hother⟩ :=
      decodeAt_ok (decodeMemory_dict py) (Memory.ofItems_dump py) hdata
    change modelValidate "SearchResult" (SearchResult.ofItems py data) = .ok r ↔ _
    rw [modelValidate_ok_iff]
    have hm : field (Memory.ofValue py) data "memory" =
        field (ofDict (readMemory py)) items "memory" := by
      refine hmemory.trans ?_
      simp [field, Items.lookup_rename]
    unfold SearchResult.ofItems
    rw [hm]
    generalize field (ofDict (readMemory py)) items "memory" = memory
    simp [field, optField, hother, Items.lookup_rename, hranking]

theorem decodeSearchResult_dict_only {v : PyValue} {r : SearchResult String}
    (h : decodeSearchResult py v = .ok r) : ∃ items, v = .dict items := by
  by_contra hv
  obtain ⟨⟨⟩, hguard, h⟩ := Except.bind_ok h
  obtain ⟨data, hdata, h⟩ := Except.bind_ok h
  obtain rfl := dictOf_eq_nil (by decide) hguard hdata fun items heq => hv ⟨items, heq⟩
  cases h

theorem decodeSearchResult_iff (v : PyValue) (r : SearchResult String) :
    decodeSearchResult py v = .ok r ↔ ofDict (readSearchResult py) v = some r := by
  constructor
  · intro h
    obtain ⟨items, rfl⟩ := decodeSearchResult_dict_only py h
    exact (decodeSearchResult_dict py items r).mp h
  · intro h
    obtain ⟨items, hitems, hr⟩ := Option.bind_eq_some_iff.mp h
    cases v with
    | dict items' =>
      cases hitems
      exact (decodeSearchResult_dict py items r).mpr hr
    | _ => cases hitems

def decodeResults : ℕ → List PyValue → Except PyError (List PyValue) :=
  comprehension fun _ r => do
    let result ← decodeSearchResult py r
    .ok (PyValue.dict (result.dump pythonMode))

theorem decodeResults_iff (n : ℕ) (xs : List PyValue) (dumps : List PyValue) :
    decodeResults py n xs = .ok dumps ↔
      ∃ results, xs.mapM (ofDict (readSearchResult py)) = some results ∧
        dumps = results.map fun r => .dict (r.dump pythonMode) := by
  -- the index counts up along the list
  induction xs generalizing n dumps with
  | nil =>
    refine ⟨fun h => ⟨[], rfl, (Except.ok.inj h).symm⟩, ?_⟩
    rintro ⟨results, hresults, rfl⟩
    cases hresults
    rfl
  | cons x xs ih =>
    unfold decodeResults comprehension
    rw [Except.bind_ok_iff]
    constructor
    · rintro ⟨dump, hdump, h⟩
      obtain ⟨r, hr, hdump⟩ := Except.bind_ok hdump
      cases hdump
      obtain ⟨rest, hrest, h⟩ := Except.bind_ok h
      cases h
      obtain ⟨results, hresults, rfl⟩ := (ih (n + 1) rest).mp hrest
      refine ⟨r :: results, ?_, rfl⟩
      rw [List.mapM_cons, (decodeSearchResult_iff py x r).mp hr, hresults]
      rfl
    · rintro ⟨results, hresults, rfl⟩
      rw [List.mapM_cons] at hresults
      obtain ⟨r, hr, hresults⟩ := Option.bind_eq_some_iff.mp hresults
      obtain ⟨rest, hrest, hresults⟩ := Option.bind_eq_some_iff.mp hresults
      cases hresults
      refine ⟨.dict (r.dump pythonMode), ?_, ?_⟩
      · rw [(decodeSearchResult_iff py x r).mpr hr]
        rfl
      · have htail := (ih (n + 1) _).mpr ⟨rest, hrest, rfl⟩
        unfold decodeResults at htail
        rw [htail]
        rfl

theorem decodeSearchResultPage_iff (items : Items) (page : SearchResultPage String) :
    decodeSearchResultPage py items = .ok page ↔ readSearchResultPage py items = some page := by
  refine guarded_ok_iff (fun data => do
    let results ← iterate ((data.lookup "results").getD (.list []))
    let results ← decodeResults py 0 results
    modelValidate "SearchResultPage"
      (SearchResultPage.ofItems py (data.set "results" (.list results)))) fun _ => ?_
  -- `data.get("results", [])` is the default of the model
  have hread : defaultField (readResults py) [] items "results" =
      readResults py ((items.lookup "results").getD (.list [])) := by
    unfold defaultField
    split <;> simp [*, readResults, iterate]
  have hpage (results : List (SearchResult String)) : SearchResultPage.ofItems py
      (items.set "results" (.list (results.map fun r => .dict (r.dump pythonMode)))) = (do
        let cursor ← optField str? items "cursor"
        let retrieval ← optField (RetrievalReceipt.ofValue py) items "retrieval"
        some ⟨results, cursor, retrieval⟩) := by
    have hresults : list? (SearchResult.ofValue py)
        (.list (results.map fun r => .dict (r.dump pythonMode))) = some results :=
      mapM_map (fun r => SearchResult.ofItems_dump py r) results
    simp [SearchResultPage.ofItems, defaultField, optField, Items.lookup_set, hresults]
  rw [hread, readResults, Except.bind_ok_iff]
  cases hiter : iterate ((items.lookup "results").getD (.list [])) with
  | error e =>
    refine ⟨?_, fun h => by cases h⟩
    rintro ⟨_, h, -⟩
    cases h
  | ok xs =>
    constructor
    · rintro ⟨_, hxs, h⟩
      cases hxs
      obtain ⟨dumps, hdumps, h⟩ := Except.bind_ok h
      obtain ⟨results, hresults, rfl⟩ := (decodeResults_iff py 0 xs dumps).mp hdumps
      rw [modelValidate_ok_iff, hpage] at h
      dsimp only
      rw [hresults]
      exact h
    · intro h
      obtain ⟨results, hresults, h⟩ := Option.bind_eq_some_iff.mp h
      refine ⟨xs, rfl, ?_⟩
      rw [(decodeResults_iff py 0 xs _).mpr ⟨results, hresults, rfl⟩]
      exact (modelValidate_ok_iff.mpr ((hpage results).trans h))

end

theorem decodeIngestResult_iff (items : Items) (result : IngestResult) :
    decodeIngestResult items = .ok result ↔ readIngestResult items = some result :=
  guarded_ok_iff (fun data => modelValidate "IngestResult" (IngestResult.ofItems data))
    fun _ => modelValidate_ok_iff

end Contract
end AtomicMemory
