import AtomicMemory.Lib.PercentEncoding
import AtomicMemory.Lib.RequestTarget
import AtomicMemory.Memory.IngestInput
import AtomicMemory.Providers.Http

-- The V3 core methods of `HindsightProvider`, with the mappers and request builders they use.

open Calendar
open PercentEncoding
open PyValue hiding none

namespace AtomicMemory.HindsightProvider

/-- `bank_id_for_scope`. -/
def bankIdForScope (scope : Scope String) : String := scope.user.getD ""

/-- `_map_memory_kind`. -/
def mapMemoryKind : PyValue → Option MemoryKind
  | .str "world" => some .fact
  | .str "experience" => some .episode
  | .str "observation" => some .summary
  | _ => none

/-- `_require_string`. -/
def requireString (value : PyValue) (field : String) : Except PyError String :=
  match value with
  | .str s =>
    if s = "" then .error (.valueError ("Hindsight response missing required " ++ field)) else .ok s
  | _ => .error (.valueError ("Hindsight response missing required " ++ field))

/-- `_parse_iso`. -/
def parseIso (python : Python) : PyValue → Except PyError (Option DateTime)
  | .str s => if s = "" then .ok none else (python.parseIsoText s).map some
  | _ => .ok none

/-- `_parse_memory_date`, for a record whose id has been read. -/
def parseMemoryDate (python : Python) (memoryId : String) (raw : Items) :
    Except PyError DateTime := do
  let createdAt := Items.get raw "created_at"
  let mentionedAt := Items.get raw "mentioned_at"
  let value :=
    if createdAt.truthy then createdAt
    else if mentionedAt.truthy then mentionedAt else Items.get raw "date"
  match ← parseIso python value with
  | some d => .ok d
  | none => .error (.valueError ("Hindsight memory " ++ memoryId ++ " missing timestamp field"))

/-- `_METADATA_FIELDS`. -/
def metadataFields : List (String × String) :=
  [("type", "hindsightType"), ("context", "context"), ("tags", "tags"), ("entities", "entities"),
    ("occurred_start", "occurredStart"), ("occurred_end", "occurredEnd"),
    ("mentioned_at", "mentionedAt"), ("date", "hindsightDate")]

/-- `_build_metadata`. -/
def buildMetadata (raw : Items) : PyValue :=
  let metadata :=
    match Items.get raw "metadata" with
    | .dict items => items
    | _ => []
  let metadata := metadataFields.foldl (fun metadata (source, target) =>
    let v := Items.get raw source
    if v.isNone then metadata else Items.set metadata target v) metadata
  if metadata = [] then .none else .dict metadata

/-- `to_memory`: the scope is the request's. -/
def toMemory (python : Python) (scope : Scope String) (raw : PyValue) :
    Except PyError (Memory String) :=
  match raw with
  | .dict raw => do
    let id ← requireString (Items.get raw "id") "id"
    let content ← requireString (Items.get raw "text") ("text for memory " ++ id)
    let createdAt ← parseMemoryDate python id raw
    let updatedAt ← parseIso python (Items.get raw "updated_at")
    Memory.create (.str id) (.str content) scope (mapMemoryKind (Items.get raw "type")) createdAt
      updatedAt none (buildMetadata raw)
  | _ => .error .attributeError

theorem toMemory_ok {python : Python} {scope : Scope String} {raw : PyValue} {m : Memory String}
    (h : toMemory python scope raw = .ok m) : ∃ items, raw = .dict items ∧ m.scope = scope := by
  cases raw with
  | dict items =>
    obtain ⟨id, -, h⟩ := Except.bind_ok h
    obtain ⟨content, -, h⟩ := Except.bind_ok h
    obtain ⟨createdAt, -, h⟩ := Except.bind_ok h
    obtain ⟨updatedAt, -, h⟩ := Except.bind_ok h
    exact ⟨items, rfl, (Memory.create_ok h).2⟩
  | _ => cases h

/-- `isinstance(v, int)`, which holds of booleans too. -/
def int? : PyValue → Option ℤ
  | .int n => some n
  | .bool b => some (if b then 1 else 0)
  | _ => none

/-- `_map_list_page`. -/
def mapListPage (python : Python) (raw : PyValue) (scope : Scope String) (offset : ℤ) :
    Except PyError (ListResultPage String) :=
  match raw with
  | .dict items =>
    match Items.get items "items" with
    | .list rows =>
      match int? (Items.get items "total") with
      | none => .error (.valueError "Hindsight list response missing total")
      | some total => do
        let nextOffset := offset + rows.length
        let memories ← comprehension (fun _ => toMemory python scope) 0 rows
        .ok ⟨memories, if nextOffset < total then some (toString nextOffset) else none⟩
    | _ => .error (.valueError "Hindsight list response missing items array")
  | _ => .error (.valueError "Hindsight list response missing items array")

theorem mapListPage_ok {python : Python} {raw : PyValue} {scope : Scope String} {offset : ℤ}
    {page : ListResultPage String} (h : mapListPage python raw scope offset = .ok page) :
    ∃ rows, getD raw "items" .none = .ok (.list rows) ∧
      List.Forall₂ (fun row m => toMemory python scope row = .ok m) rows page.memories := by
  unfold mapListPage at h
  split at h
  · split at h
    · rename_i items _ rows hrows
      split at h
      · cases h
      · obtain ⟨memories, hmemories, h⟩ := Except.bind_ok h
        cases h
        refine ⟨rows, congrArg Except.ok hrows, (comprehension_ok hmemories).imp ?_⟩
        rintro row m ⟨_, hm⟩
        exact hm
    · cases h
  · cases h

/-- `to_search_result`. -/
def toSearchResult (python : Python) (py : Pydantic) (scope : Scope String) (raw : PyValue) :
    Except PyError (SearchResult String) := do
  let memory ← toMemory python scope raw
  SearchResult.create py memory (.float 0) .none .none .none .none .none

/-- `unwrap_results`. -/
def unwrapResults : PyValue → Except PyError (List PyValue)
  | .dict items =>
    match Items.get items "results" with
    | .list rows => .ok rows
    | _ => .error (.valueError "Hindsight recall response missing results array")
  | _ => .error (.valueError "Hindsight recall response missing results array")

/-- `rows[:limit]`, which counts a negative limit from the end. -/
def sliceTo {α : Type} (rows : List α) (limit : ℤ) : List α :=
  if limit < 0 then rows.take (rows.length - limit.natAbs) else rows.take limit.toNat

/-- `HindsightRetainResponse`, as far as `do_ingest` reads it. -/
structure RetainResponse where
  success : Option Bool
  itemsCount : Option ℤ
  isAsync : Option Bool
  operationId : Option String
  operationIds : Option (List String)

/-- `HindsightRetainResponse.model_validate`; `bool` is Pydantic's coercion. The field
`async_` is found under either of its names. -/
def RetainResponse.ofItems (py : Pydantic) (bool : PyValue → Option Bool) (items : Items) :
    Option RetainResponse := do
  let success ← optField bool items "success"
  let _ ← optField str? items "bank_id"
  let itemsCount ← optField py.int items "items_count"
  let isAsync ←
    if (items.lookup "async").isSome then optField bool items "async"
    else optField bool items "async_"
  let operationId ← optField str? items "operation_id"
  let operationIds ← optField (list? str?) items "operation_ids"
  let _ ← optField dict? items "usage"
  some ⟨success, itemsCount, isAsync, operationId, operationIds⟩

/-- `_retain_failure_context`. -/
def retainFailureContext (raw : RetainResponse) : String :=
  let ids := nonEmpty (some (",".intercalate (raw.operationIds.getD [])))
  let ids := (ids.orElse fun _ => nonEmpty raw.operationId).getD "none"
  let count :=
    match raw.itemsCount with
    | none | some 0 => "unknown"
    | some n => toString n
  let isAsync :=
    match raw.isAsync with
    | none => "None"
    | some b => if b then "True" else "False"
  "operation_id=" ++ ids ++ ", items_count=" ++ count ++ ", async=" ++ isAsync

/-- `_assert_retain_succeeded`. -/
def assertRetainSucceeded (raw : RetainResponse) : Except PyError Unit :=
  if raw.success = some false then
    .error (.providerRefusal ("Hindsight retain failed: " ++ retainFailureContext raw))
  else .ok ()

/-- `tags_for_scope`. -/
def tagsForScope (scope : Scope String) : List String :=
  let tag (label : String) (value : Option String) : List String :=
    match nonEmpty value with
    | some value => [label ++ value]
    | none => []
  tag "agent:" scope.agent ++ tag "namespace:" scope.nameSpace ++ tag "thread:" scope.thread

/-- `_build_ingest_metadata`. -/
def buildIngestMetadata (input : IngestInput) : Items :=
  let entry (metadata : Items) (key : String) (value : Option String) : Items :=
    match nonEmpty value with
    | some value => Items.set metadata key (.str value)
    | none => metadata
  let metadata := input.metadata.getD []
  match input.provenance with
  | none => metadata
  | some provenance =>
    let metadata := entry metadata "source" provenance.source
    let metadata := entry metadata "sourceUrl" provenance.sourceUrl
    entry metadata "sourceId" provenance.sourceId

/-- `build_retain_request`. -/
def buildRetainRequest (input : IngestInput) : Items :=
  let metadata := buildIngestMetadata input
  let context := input.provenance.bind fun provenance => nonEmpty provenance.source
  let item : Items :=
    [("content", .str input.conversation), ("tags", .list ((tagsForScope input.scope).map .str))] ++
      optItem "context" context .str ++
      if metadata = [] then [] else [("metadata", .dict metadata)]
  [("items", .list [.dict item]), ("async", .bool false)]

inductive RecallBudget
  | low
  | mid
  | high
  deriving DecidableEq

def RecallBudget.text : RecallBudget → String
  | low => "low"
  | mid => "mid"
  | high => "high"

/-- What `build_recall_request` reads of `HindsightProviderConfig`. -/
structure Config where
  defaultBudget : Option RecallBudget
  defaultMaxTokens : Option ℤ

/-- `config.default_max_tokens or HINDSIGHT_DEFAULT_MAX_TOKENS`. -/
def Config.maxTokens (config : Config) : ℤ :=
  match config.defaultMaxTokens with
  | none | some 0 => 4096
  | some n => n

/-- `build_recall_request`. -/
def buildRecallRequest (query : String) (scope : Scope String) (config : Config)
    (maxTokens : Option ℤ) : Items :=
  let tags := tagsForScope scope
  [("query", .str query), ("max_tokens", .int (maxTokens.getD config.maxTokens))] ++
    optItem "budget" config.defaultBudget (fun budget => .str budget.text) ++
    if tags = [] then []
    else [("tags", .list (tags.map .str)), ("tags_match", .str "all_strict")]

/-- What the methods read of the provider: `_api_version`, `_project_id`, and whether it is
initialized and has a client. -/
structure Provider where
  apiVersion : List Char
  projectId : List Char
  initialized : Bool

/-- `capabilities().required_scope.default`. -/
def requiredScope : List String := ["user"]

namespace Provider

variable (p : Provider)

/-- `_route`. -/
def route (path : List Char) : List Char :=
  '/' :: p.apiVersion ++ '/' :: p.projectId ++ path

/-- `_bank_path`. -/
def bankPath (scope : Scope String) : List Char :=
  p.route ("/banks/".toList ++ quote (bankIdForScope scope).toList)

/-- `_memory_path`. -/
def memoryPath (ref : MemoryRef) : List Char :=
  p.bankPath ref.scope ++ "/memories/".toList ++ quote ref.id.toList

/-- `do_ingest`. -/
def doIngest (py : Pydantic) (bool : PyValue → Option Bool) (input : IngestInput) :
    Except PyError (Call IngestResult) :=
  if input.isVerbatim then
    .error (.providerRefusal "hindsight does not support verbatim ingest.")
  else do
    requireClient p.initialized
    .ok
      { request := ⟨"POST", p.bankPath input.scope ++ "/memories".toList,
          some (buildRetainRequest input)⟩
        receive := fun outcome => do
          let raw ← fetchJson outcome
          let retained ←
            modelValidate "HindsightRetainResponse"
              ((dict? raw).bind (RetainResponse.ofItems py bool))
          assertRetainSucceeded retained
          .ok ⟨[], [], []⟩ }

/-- `do_search`. -/
def doSearch (python : Python) (py : Pydantic) (config : Config) (request : SearchRequest) :
    Except PyError (Call (SearchResultPage String)) := do
  requireClient p.initialized
  .ok
    { request := ⟨"POST", p.bankPath request.scope ++ "/memories/recall".toList,
        some (buildRecallRequest request.query request.scope config none)⟩
      receive := fun outcome => do
        let raw ← fetchJson outcome
        let rows ← unwrapResults raw
        let results ← comprehension (fun _ => toSearchResult python py request.scope) 0 rows
        .ok ⟨(request.limit.map (sliceTo results)).getD results, none, none⟩ }

/-- `do_get`. -/
def doGet (python : Python) (ref : MemoryRef) : Except PyError (Call (Option (Memory String))) := do
  requireClient p.initialized
  .ok
    { request := ⟨"GET", p.memoryPath ref, none⟩
      receive := fun outcome => do
        match ← fetchJsonOrNone outcome with
        | .dict items => (toMemory python ref.scope (.dict items)).map some
        | _ => .ok none }

/-- `do_delete`. -/
def doDelete (ref : MemoryRef) : Except PyError (Call Unit) := do
  requireClient p.initialized
  .ok
    { request := ⟨"DELETE", p.memoryPath ref, none⟩
      receive := deleteIgnore404 }

/-- `request.limit or 20`. -/
def limitOf (request : ListRequest) : ℤ :=
  match request.limit with
  | some limit => if limit = 0 then 20 else limit
  | none => 20

/-- `urlencode({"limit": str(limit), "offset": str(offset)})`. -/
def listQuery (limit offset : ℤ) : List Char :=
  urlencode [("limit".toList, (toString limit).toList), ("offset".toList, (toString offset).toList)]

/-- `do_list`. -/
def doList (python : Python) (request : ListRequest) :
    Except PyError (Call (ListResultPage String)) := do
  let offset ← startOffset python request.cursor
  requireClient p.initialized
  .ok
    { request := ⟨"GET", p.bankPath request.scope ++ "/memories/list?".toList ++
        listQuery (limitOf request) offset, none⟩
      receive := fun outcome => do
        let raw ← fetchJson outcome
        mapListPage python raw request.scope offset }

def ingest (py : Pydantic) (bool : PyValue → Option Bool) (input : IngestInput) :
    Except PyError (Call IngestResult) :=
  runOperation p.initialized requiredScope "ingest" input.scope (p.doIngest py bool input)

def search (python : Python) (py : Pydantic) (config : Config) (request : SearchRequest) :
    Except PyError (Call (SearchResultPage String)) :=
  runOperation p.initialized requiredScope "search" request.scope
    (p.doSearch python py config request)

def get (python : Python) (ref : MemoryRef) : Except PyError (Call (Option (Memory String))) :=
  runOperation p.initialized requiredScope "get" ref.scope (p.doGet python ref)

def delete (ref : MemoryRef) : Except PyError (Call Unit) :=
  runOperation p.initialized requiredScope "delete" ref.scope (p.doDelete ref)

def list (python : Python) (request : ListRequest) :
    Except PyError (Call (ListResultPage String)) :=
  runOperation p.initialized requiredScope "list" request.scope (p.doList python request)

variable {p}

/-- What `list` sends, and where the memories of the page it returns come from. -/
theorem list_ok {python : Python} {request : ListRequest} {call : Call (ListResultPage String)}
    (h : p.list python request = .ok call) :
    ∃ offset, call.request = ⟨"GET", p.bankPath request.scope ++ "/memories/list?".toList ++
        listQuery (limitOf request) offset, none⟩ ∧
      ∀ outcome result, call.receive outcome = .ok result → ∃ status body rows,
        outcome = .response status (some body) ∧ getD body "items" .none = .ok (.list rows) ∧
        List.Forall₂ (fun row m => toMemory python request.scope row = .ok m) rows
          result.memories := by
  obtain ⟨inner, hinner, hrequest, -, hreceive⟩ := runOperation_ok h
  obtain ⟨offset, -, hinner⟩ := Except.bind_ok hinner
  obtain ⟨_, -, hinner⟩ := Except.bind_ok hinner
  cases hinner
  refine ⟨offset, hrequest, fun outcome result hresult => ?_⟩
  obtain ⟨raw, hraw, hlist⟩ := Except.bind_ok ((hreceive outcome result).mp hresult)
  obtain ⟨status, rfl⟩ := fetchJson_ok hraw
  obtain ⟨rows, hrows, hmapped⟩ := mapListPage_ok hlist
  exact ⟨status, raw, rows, rfl, hrows, hmapped⟩

end Provider

end AtomicMemory.HindsightProvider
