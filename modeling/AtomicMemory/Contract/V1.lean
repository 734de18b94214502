import AtomicMemory.Core.Python
import AtomicMemory.Memory.Types

-- `contract/v1.py`: search pages and ingest results between the wire form, whose names are
-- partly camel case, and the models.

open Calendar
open PyValue hiding none

namespace AtomicMemory.Contract

def memoryWireKeys : List String :=
  ["id", "content", "scope", "kind", "createdAt", "updatedAt", "provenance", "metadata"]

def provenanceWireKeys : List String := ["source", "sourceUrl", "sourceId", "extractor"]

def searchResultWireKeys : List String :=
  ["memory", "score", "similarity", "rankingScore", "relevance", "version_id", "observed_at"]

def searchResultPageWireKeys : List String := ["results", "cursor", "retrieval"]

def ingestResultWireKeys : List String := ["created", "updated", "unchanged"]

def hashable : PyValue → Bool
  | .list _ | .dict _ => false
  | _ => true

/-- `set(wire)`. -/
def setOf (wire : PyValue) : Except PyError (List PyValue) := do
  let xs ← iterate wire
  if xs.all hashable then .ok xs else .error .typeError

def isKey (allowed : List String) : PyValue → Bool
  | .str s => s ∈ allowed
  | _ => false

def isNumber : PyValue → Bool
  | .bool _ | .int _ | .float _ => true
  | _ => false

/-- Values that are no strings, but that `sorted` can compare. -/
def comparable (xs : List PyValue) : Bool := xs.all isNumber || xs.all PyValue.isNone

/-- The error that lists the unknown keys; `sorted` rejects keys of several types. -/
def wireKeysError (unknown : List PyValue) (allowed : List String) (typeName : String) : PyError :=
  match unknown.mapM str? with
  | some keys => .wireKeys typeName keys allowed
  | none => if comparable unknown then .valueError (typeName ++ ": non-v1 wire keys")
    else .typeError

def requireWireKeys (wire : PyValue) (allowed : List String) (typeName : String) :
    Except PyError Unit := do
  let keys ← setOf wire
  let unknown := keys.filter fun key => !isKey allowed key
  if unknown.isEmpty then .ok () else .error (wireKeysError unknown allowed typeName)

/-- The `n`th element of the argument of `dict`; a list never gets past the guard before. -/
def pairOf (n : ℕ) : PyValue → Except PyError (String × PyValue)
  | .str s =>
    match s.toList with
    | [key, value] => .ok (String.singleton key, .str (String.singleton value))
    | cs => .error (.valueError ("dictionary update sequence element #" ++ toString n ++
        " has length " ++ toString cs.length ++ "; 2 is required"))
  | _ => .error .typeError

/-- `dict(wire)`. -/
def dictOf : PyValue → Except PyError Items
  | .dict items => .ok items
  | wire => do
    let xs ← iterate wire
    comprehension pairOf 0 xs

def toIsoZ (value : DateTime) : Except PyError String :=
  let value := if value.offset = none then value.replaceUtc else value
  match value.astimezoneUtc with
  | some utc => .ok (String.ofList (replaceFrom "+00:00".toList "Z".toList 0 utc.isoMillis))
  | none => .error .overflowError

mutual
def jsonify : PyValue → Except PyError PyValue
  | .datetime d => (toIsoZ d).map .str
  | .dict items => (jsonifyItems items).map .dict
  | .list xs => (jsonifyList xs).map .list
  | v => .ok v

def jsonifyList : List PyValue → Except PyError (List PyValue)
  | [] => .ok []
  | x :: xs => do
    let y ← jsonify x
    let ys ← jsonifyList xs
    .ok (y :: ys)

def jsonifyItems : Items → Except PyError Items
  | [] => .ok []
  | (key, v) :: items => do
    let w ← jsonify v
    let rest ← jsonifyItems items
    .ok ((key, w) :: rest)
end

/-- `if isinstance(data.get(key), dict): data[key] = decode(data[key]).model_dump(...)`. -/
def decodeAt {α : Type} (key : String) (decode : PyValue → Except PyError α) (dump : α → Items)
    (data : Items) : Except PyError Items :=
  match data.lookup key with
  | some (.dict items) => do
    let m ← decode (.dict items)
    .ok (data.set key (.dict (dump m)))
  | _ => .ok data

def decodeProvenance (wire : PyValue) : Except PyError Provenance := do
  requireWireKeys wire provenanceWireKeys "Provenance"
  let data ← dictOf wire
  let data := data.rename "sourceUrl" "source_url"
  let data := data.rename "sourceId" "source_id"
  modelValidate "Provenance" (Provenance.ofItems data)

def encodeProvenance (provenance : Provenance) : Items :=
  let data := provenance.dump
  let data := Items.rename data "source_url" "sourceUrl"
  Items.rename data "source_id" "sourceId"

section

variable (py : Pydantic)

def decodeMemory (wire : PyValue) : Except PyError (Memory String) := do
  requireWireKeys wire memoryWireKeys "Memory"
  let data ← dictOf wire
  let data := data.rename "createdAt" "created_at"
  let data := data.rename "updatedAt" "updated_at"
  let data ← decodeAt "provenance" decodeProvenance Provenance.dump data
  modelValidate "Memory" (Memory.ofItems py data)

def encodeMemory (memory : Memory String) : Except PyError Items := do
  let data : Items := memory.dump py.jsonMode
  let data := data.erase "created_at"
  let data := data.erase "updated_at"
  let createdAt ← toIsoZ memory.createdAt
  let data := data.set "createdAt" (.str createdAt)
  let updatedAt ← memory.updatedAt.mapM toIsoZ
  let data := data.setSome "updatedAt" (updatedAt.map .str)
  let data := data.setSome "provenance" (memory.provenance.map fun p => .dict (encodeProvenance p))
  match data.get "metadata" with
  | .none => .ok data
  | _ => do
    let metadata ← jsonify ((memory.metadata.map .dict).getD .none)
    .ok (data.set "metadata" metadata)

def decodeSearchResult (wire : PyValue) : Except PyError (SearchResult String) := do
  requireWireKeys wire searchResultWireKeys "SearchResult"
  let data ← dictOf wire
  let data := data.rename "rankingScore" "ranking_score"
  let data ← decodeAt "memory" (decodeMemory py) (Memory.dump pythonMode) data
  modelValidate "SearchResult" (SearchResult.ofItems py data)

def encodeSearchResult (result : SearchResult String) : Except PyError Items := do
  let data : Items := result.dump py.jsonMode
  let data := data.rename "ranking_score" "rankingScore"
  let memory ← encodeMemory py result.memory
  .ok (data.set "memory" (.dict memory))

def decodeSearchResultPage (wire : Items) : Except PyError (SearchResultPage String) := do
  requireWireKeys (.dict wire) searchResultPageWireKeys "SearchResultPage"
  let results ← iterate ((wire.lookup "results").getD (.list []))
  let results ← comprehension (fun _ r => do
    let result ← decodeSearchResult py r
    .ok (PyValue.dict (result.dump pythonMode))) 0 results
  modelValidate "SearchResultPage"
    (SearchResultPage.ofItems py (wire.set "results" (.list results)))

def encodeSearchResultPage (page : SearchResultPage String) : Except PyError Items := do
  let results ← comprehension (fun _ r => do
    let result ← encodeSearchResult py r
    .ok (PyValue.dict result)) 0 page.results
  .ok ([("results", .list results)] ++ optItem "cursor" page.cursor .str ++
    optItem "retrieval" page.retrieval fun receipt => .dict receipt.dump)

end

def decodeIngestResult (wire : Items) : Except PyError IngestResult := do
  requireWireKeys (.dict wire) ingestResultWireKeys "IngestResult"
  modelValidate "IngestResult" (IngestResult.ofItems wire)

end AtomicMemory.Contract
