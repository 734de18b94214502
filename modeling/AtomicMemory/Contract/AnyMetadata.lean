import AtomicMemory.Contract.IngestCodec
import AtomicMemory.Lib.AnyValue

-- The encoders of memories, search pages and ingest inputs on metadata that holds whatever
-- Pydantic dumps to JSON: they write it with a walk of their own, which turns datetimes into
-- texts and looks inside dicts and lists only.

open Calendar
open PyValue (Items)
open AnyValue hiding none list

namespace AtomicMemory

structure AnyMemory where
  id : String
  content : String
  scope : Scope String
  kind : Option MemoryKind
  createdAt : DateTime
  updatedAt : Option DateTime
  provenance : Option Provenance
  metadata : Option AnyItems

def AnyMemory.base (m : AnyMemory) : Memory String :=
  ⟨m.id, m.content, m.scope, m.kind, m.createdAt, m.updatedAt, m.provenance, none⟩

def AnyMemory.ofMemory (m : Memory String) : AnyMemory :=
  ⟨m.id, m.content, m.scope, m.kind, m.createdAt, m.updatedAt, m.provenance,
    m.metadata.map ofItems⟩

structure AnySearchResult where
  memory : AnyMemory
  score : ℚ
  similarity : Option ℚ
  rankingScore : Option ℚ
  relevance : Option ℚ
  versionId : Option String
  observedAt : Option String

def AnySearchResult.base (r : AnySearchResult) : SearchResult String :=
  ⟨r.memory.base, r.score, r.similarity, r.rankingScore, r.relevance, r.versionId, r.observedAt⟩

structure AnySearchResultPage where
  results : List AnySearchResult
  cursor : Option String
  retrieval : Option RetrievalReceipt

structure AnyIngestInput where
  scope : Scope String
  provenance : Option Provenance
  metadata : Option AnyItems
  contentClass : Option ContentClass
  content : IngestContent

def AnyIngestInput.base (input : AnyIngestInput) : IngestInput :=
  ⟨input.scope, input.provenance, none, input.contentClass, input.content⟩

def AnyIngestInput.ofInput (input : IngestInput) : AnyIngestInput :=
  ⟨input.scope, input.provenance, input.metadata.map ofItems, input.contentClass, input.content⟩

namespace Contract

mutual
/-- `_jsonify`: a tuple is no list, and a date no datetime. -/
def jsonifyAny : AnyValue → Except PyError AnyValue
  | .datetime d => (toIsoZ d).map .str
  | .dict items => (jsonifyAnyItems items).map .dict
  | .list xs => (jsonifyAnyList xs).map .list
  | v => .ok v

def jsonifyAnyList : List AnyValue → Except PyError (List AnyValue)
  | [] => .ok []
  | x :: xs => do
    let y ← jsonifyAny x
    let ys ← jsonifyAnyList xs
    .ok (y :: ys)

def jsonifyAnyItems : AnyItems → Except PyError AnyItems
  | [] => .ok []
  | (key, v) :: items => do
    let w ← jsonifyAny v
    let rest ← jsonifyAnyItems items
    .ok ((key, w) :: rest)
end

/-- `if data.get("metadata") is not None: data["metadata"] = _jsonify(model.metadata)`. -/
def setMetadata (metadata : Option AnyItems) (data : AnyItems) : Except PyError AnyItems :=
  match metadata with
  | none => .ok data
  | some items => do
    let metadata ← jsonifyAny (.dict items)
    .ok (data.set "metadata" metadata)

section

variable (py : Pydantic)

def encodeAnyMemory (memory : AnyMemory) : Except PyError AnyItems := do
  let data ← encodeMemory py memory.base
  setMetadata memory.metadata (ofItems data)

def encodeAnySearchResult (result : AnySearchResult) : Except PyError AnyItems := do
  let data : Items := result.base.dump py.jsonMode
  let data := data.rename "ranking_score" "rankingScore"
  let memory ← encodeAnyMemory py result.memory
  .ok ((ofItems data).set "memory" (.dict memory))

def encodeAnySearchResultPage (page : AnySearchResultPage) : Except PyError AnyItems := do
  let results ← comprehension (fun _ r => do
    let result ← encodeAnySearchResult py r
    .ok (AnyValue.dict result)) 0 page.results
  .ok ([("results", .list results)] ++ ofItems (optItem "cursor" page.cursor .str ++
    optItem "retrieval" page.retrieval fun receipt => .dict receipt.dump))

def encodeAnyIngestInput (input : AnyIngestInput) : Except PyError AnyItems := do
  let data ← encodeIngestInput py input.base
  setMetadata input.metadata (ofItems data)

end

mutual
theorem jsonifyAny_ofValue :
    ∀ v : PyValue, jsonifyAny (ofValue v) = (jsonify v).map ofValue
  | .datetime d => by
    rw [ofValue, jsonifyAny, jsonify]
    cases toIsoZ d <;> rfl
  | .dict items => by
    rw [ofValue, jsonifyAny, jsonify, jsonifyAnyItems_ofItems items]
    cases jsonifyItems items <;> rfl
  | .list xs => by
    rw [ofValue, jsonifyAny, jsonify, jsonifyAnyList_ofList xs]
    cases jsonifyList xs <;> rfl
  | .none | .bool _ | .int _ | .float _ | .str _ => rfl

theorem jsonifyAnyList_ofList :
    ∀ xs : List PyValue, jsonifyAnyList (ofList xs) = (jsonifyList xs).map ofList
  | [] => rfl
  | x :: xs => by
    rw [ofList, jsonifyAnyList, jsonifyList, jsonifyAny_ofValue x, jsonifyAnyList_ofList xs]
    cases jsonify x with
    | error e => rfl
    | ok y => cases jsonifyList xs <;> rfl

theorem jsonifyAnyItems_ofItems :
    ∀ items : Items, jsonifyAnyItems (ofItems items) = (jsonifyItems items).map ofItems
  | [] => rfl
  | (key, v) :: items => by
    rw [ofItems, jsonifyAnyItems, jsonifyItems, jsonifyAny_ofValue v,
      jsonifyAnyItems_ofItems items]
    cases jsonify v with
    | error e => rfl
    | ok w => cases jsonifyItems items <;> rfl
end

def readings (r : Except PyError AnyItems) : Except PyError (String → Option AnyValue) :=
  r.map fun data key => data.lookup key

theorem setMetadata_ofItems {metadata : Option Items} {full data : Items} {f : Items → Items}
    (h : ∀ key, full.lookup key = if key = "metadata" then metadata.map fun items => .dict (f items)
      else data.lookup key) (hnone : data.lookup "metadata" = none) :
    readings (setMetadata (metadata.map ofItems) (ofItems data)) =
      readings ((writeMetadata metadata full).map ofItems) := by
  have hmeta : full.lookup "metadata" = metadata.map fun items => .dict (f items) := by
    rw [h, if_pos rfl]
  unfold writeMetadata Items.get
  rw [hmeta]
  cases metadata with
  | none =>
    refine congrArg Except.ok (funext fun key => ?_)
    beta_reduce
    rw [lookup_ofItems, lookup_ofItems, h]
    split
    · rename_i hkey
      rw [hkey, hnone]
      rfl
    · rfl
  | some items =>
    have hjson := jsonifyAny_ofValue (.dict items)
    rw [ofValue] at hjson
    simp only [Option.map_some, Option.getD_some, setMetadata, hjson]
    cases jsonify (.dict items) with
    | error e => rfl
    | ok w =>
      refine congrArg Except.ok (funext fun key => ?_)
      beta_reduce
      rw [AnyItems.lookup_set, lookup_ofItems, lookup_ofItems, Items.lookup_set, h]
      split <;> rfl

section

variable (py : Pydantic)

/-- What `encodeMemory` has made before it writes the metadata. -/
def memoryData (m : Memory String) (createdAt : String) (updatedAt : Option String) : Items :=
  let data : Items := m.dump py.jsonMode
  let data := (data.erase "created_at").erase "updated_at"
  let data := data.set "createdAt" (.str createdAt)
  let data := data.setSome "updatedAt" (updatedAt.map .str)
  data.setSome "provenance" (m.provenance.map fun p => .dict (encodeProvenance p))

theorem encodeMemory_eq_write (m : Memory String) :
    encodeMemory py m = (do
      let createdAt ← toIsoZ m.createdAt
      let updatedAt ← m.updatedAt.mapM toIsoZ
      writeMetadata m.metadata (memoryData py m createdAt updatedAt)) :=
  rfl

theorem lookup_memoryData (m : Memory String) (createdAt : String) (updatedAt : Option String)
    (key : String) : (memoryData py m createdAt updatedAt).lookup key =
      if key = "metadata" then m.metadata.map fun items =>
        .dict (items.map fun item => (item.1, py.jsonMode.any item.2))
      else (memoryData py { m with metadata := none } createdAt updatedAt).lookup key := by
  by_cases hkey : key = "metadata"
  · simp [hkey, memoryData, Memory.dump, Items.lookup_setSome, Items.lookup_set,
      Items.lookup_erase, Items.lookup_append, Items.lookup_cons, lookup_optItem]
  · simp [hkey, memoryData, Memory.dump, Items.lookup_setSome, Items.lookup_set,
      Items.lookup_erase, Items.lookup_append, Items.lookup_cons, lookup_optItem]

theorem writeMetadata_none {data : Items} (h : data.lookup "metadata" = none) :
    writeMetadata none data = .ok data := by
  unfold writeMetadata Items.get
  rw [h]
  rfl

theorem encodeAnyMemory_ofMemory (m : Memory String) :
    readings (encodeAnyMemory py (.ofMemory m)) = readings ((encodeMemory py m).map ofItems) := by
  have hdata (createdAt : String) (updatedAt : Option String) :
      (memoryData py { m with metadata := none } createdAt updatedAt).lookup "metadata" = none :=
    lookup_memoryData py { m with metadata := none } createdAt updatedAt "metadata"
  unfold encodeAnyMemory AnyMemory.base AnyMemory.ofMemory
  rw [encodeMemory_eq_write, encodeMemory_eq_write]
  dsimp only
  cases toIsoZ m.createdAt with
  | error e => rfl
  | ok createdAt =>
    cases m.updatedAt.mapM toIsoZ with
    | error e => rfl
    | ok updatedAt =>
      have hstep := setMetadata_ofItems (lookup_memoryData py m createdAt updatedAt)
        (hdata createdAt updatedAt)
      simp only [bind, Except.bind, writeMetadata_none (hdata createdAt updatedAt)]
      exact hstep

theorem lookup_ingestData (input : IngestInput) (key : String) :
    (ingestData py input).lookup key =
      if key = "metadata" then input.metadata.map fun items =>
        .dict (items.map fun item => (item.1, py.jsonMode.any item.2))
      else (ingestData py { input with metadata := none }).lookup key := by
  rw [ingestData_eq, ingestData_eq, Items.lookup_setSome, Items.lookup_setSome]
  by_cases hkey : key = "metadata"
  · simp [hkey, lookup_dump]
  · simp [hkey, lookup_dump, IngestInput.mode]

theorem encodeAnyIngestInput_ofInput (input : IngestInput) :
    readings (encodeAnyIngestInput py (.ofInput input)) =
      readings ((encodeIngestInput py input).map ofItems) := by
  have hdata : (ingestData py { input with metadata := none }).lookup "metadata" = none :=
    lookup_ingestData py { input with metadata := none } "metadata"
  unfold encodeAnyIngestInput AnyIngestInput.base AnyIngestInput.ofInput
  by_cases hclass : input.contentClass = none ∨ input.isVerbatim = true
  · have hbase : encodeIngestInput py { input with metadata := none } = _ :=
      encodeIngestInput_accepted py hclass
    rw [encodeIngestInput_accepted py hclass, hbase, writeMetadata_none hdata]
    exact setMetadata_ofItems (lookup_ingestData py input) hdata
  · rw [not_or] at hclass
    obtain ⟨c, hc⟩ := Option.ne_none_iff_exists'.mp hclass.1
    have hmode : input.isVerbatim = false := Bool.eq_false_iff.mpr hclass.2
    have hbase : encodeIngestInput py { input with metadata := none } = _ :=
      encodeIngestInput_refused py hc hmode
    rw [encodeIngestInput_refused py hc hmode, hbase]
    rfl

end

end Contract

end AtomicMemory
