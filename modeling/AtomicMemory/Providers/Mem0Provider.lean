import AtomicMemory.Lib.RequestTarget
import AtomicMemory.Memory.IngestInput
import AtomicMemory.Providers.Http

-- The V3 core methods of `Mem0Provider`, with the mappers and body builders they use. The
-- second, best-effort request of a deferred ingest is left out.

open Calendar
open PyValue hiding none

namespace AtomicMemory.Mem0Provider

/-- `unwrap_mem0_array`. -/
def unwrapMem0Array : PyValue → List PyValue
  | .list xs => xs
  | .dict items =>
    match items.lookup "results" with
    | some (.list xs) => xs
    | _ => []
  | _ => []

/-- `_extract_memory_text`. -/
def extractMemoryText (python : Python) (raw : Items) : String :=
  let memory := Items.get raw "memory"
  if !memory.isNone then python.str memory
  else
    match Items.get raw "data" with
    | .dict data =>
      let memory := Items.get data "memory"
      if !memory.isNone then python.str memory else ""
    | _ => ""

/-- `_parse_iso`; only a `str` has `endswith`. -/
def parseIso (python : Python) : PyValue → Except PyError (Option DateTime)
  | .none => .ok none
  | .str s => (python.parseIsoText s).map some
  | _ => .error .attributeError

/-- `to_memory`, the `n`th of its call: the scope is the request's. -/
def toMemory (python : Python) (scope : Scope String) (n : ℕ) (raw : PyValue) :
    Except PyError (Memory String) :=
  match raw with
  | .dict raw => do
    let id ← item raw "id"
    let createdAt ← parseIso python (Items.get raw "created_at")
    let updatedAt ← parseIso python (Items.get raw "updated_at")
    Memory.create (.str (python.str id)) (.str (extractMemoryText python raw)) scope none
      (createdAt.getD (python.clock n)) updatedAt none (Items.get raw "metadata")
  -- `raw["id"]` of something that is not a dict
  | _ => .error .typeError

theorem toMemory_ok {python : Python} {scope : Scope String} {n : ℕ} {raw : PyValue}
    {m : Memory String} (h : toMemory python scope n raw = .ok m) :
    ∃ items, raw = .dict items ∧ m.scope = scope := by
  cases raw with
  | dict items =>
    obtain ⟨id, -, h⟩ := Except.bind_ok h
    obtain ⟨createdAt, -, h⟩ := Except.bind_ok h
    obtain ⟨updatedAt, -, h⟩ := Except.bind_ok h
    exact ⟨items, rfl, (Memory.create_ok h).2⟩
  | _ => cases h

/-- `to_search_result`; `float` is Python's. -/
def toSearchResult (float : PyValue → Except PyError ℚ) (python : Python) (py : Pydantic)
    (scope : Scope String) (n : ℕ) (raw : PyValue) : Except PyError (SearchResult String) :=
  match raw with
  | .dict items => do
    let rawScore := Items.get items "score"
    let score ← if rawScore.isNone then .ok 0 else float rawScore
    let memory ← toMemory python scope n raw
    SearchResult.create py memory (.float score) .none .none .none .none .none
  | _ => .error .attributeError

/-- One turn of the loop of `to_ingest_result`. No character outside ASCII has an upper case
that these names are made of. -/
def addIngested (python : Python) (result : IngestResult) (raw : PyValue) :
    Except PyError IngestResult :=
  match raw with
  | .dict mem =>
    let id := python.str ((mem.lookup "id").getD (.str ""))
    let event := Items.get mem "event"
    match if event.truthy then event else .str "ADD" with
    | .str event =>
      let event := event.toList.map Char.toUpper
      if event = "UPDATE".toList then
        .ok { result with updated := result.updated ++ [id] }
      else if event = "NONE".toList ∨ event = "NOOP".toList then
        .ok { result with unchanged := result.unchanged ++ [id] }
      else .ok { result with created := result.created ++ [id] }
    | _ => .error .attributeError
  | _ => .error .attributeError

/-- `to_ingest_result`. -/
def toIngestResult (python : Python) (rawMemories : List PyValue) : Except PyError IngestResult :=
  rawMemories.foldlM (addIngested python) ⟨[], [], []⟩

/-- What the body builders read of `Mem0ProviderConfig`. -/
structure Config where
  defaultInfer : Bool
  deferInference : Bool
  orgId : Option String
  projectId : Option String

/-- `resolve_infer_flag`. -/
def resolveInferFlag (input : IngestInput) (config : Config) : Bool :=
  match Items.get (input.metadata.getD []) "infer" with
  | .bool infer => infer
  | _ => config.defaultInfer

/-- `_apply_enterprise_fields`. -/
def enterpriseFields (config : Config) : Items :=
  optItem "org_id" (nonEmpty config.orgId) .str ++
    optItem "project_id" (nonEmpty config.projectId) .str

/-- `_apply_scope_identifiers`. -/
def scopeIdentifiers (scope : Scope String) : Items :=
  optItem "agent_id" (nonEmpty scope.agent) .str ++ optItem "run_id" (nonEmpty scope.thread) .str

/-- The `messages` of an ingest body, which a verbatim one has none of. -/
def messagesField (input : IngestInput) : Items :=
  let message (role content : String) : PyValue :=
    .dict [("role", .str role), ("content", .str content)]
  match input.content with
  | .text content => [("messages", .list [message "user" content])]
  | .messages messages =>
    [("messages", .list (messages.map fun m => message m.role.text m.content))]
  | .verbatim _ _ => []

/-- `build_ingest_body`. -/
def buildIngestBody (input : IngestInput) (userId : String) (config : Config) : Items :=
  let cleanMetadata := (input.metadata.getD []).filter fun item => item.1 ≠ "infer"
  [("user_id", .str userId), ("infer", .bool (resolveInferFlag input config))] ++
    (if cleanMetadata = [] then [] else [("metadata", .dict cleanMetadata)]) ++
    messagesField input ++ enterpriseFields config ++ scopeIdentifiers input.scope

/-- `build_search_body`. -/
def buildSearchBody (query : String) (scope : Scope String) (config : Config)
    (limit : Option ℤ) : Items :=
  let filters := optItem "user_id" (nonEmpty scope.user) .str ++ scopeIdentifiers scope
  [("query", .str query), ("filters", .dict filters)] ++ optItem "limit" limit .int ++
    enterpriseFields config

/-- What the methods read of the provider: `_prefix`, and whether it is initialized and has
a client. -/
structure Provider where
  pathPrefix : List Char
  initialized : Bool

/-- `capabilities().required_scope.default`. -/
def requiredScope : List String := ["user"]

namespace Provider

variable (p : Provider)

/-- `_path`. -/
def path (endpoint : List Char) : List Char := p.pathPrefix ++ endpoint

/-- `_search_path`. -/
def searchPath : List Char :=
  (if p.pathPrefix = [] then "/memories/search/" else "/v2/memories/search/").toList

/-- `do_ingest`. -/
def doIngest (python : Python) (config : Config) (input : IngestInput) :
    Except PyError (Call IngestResult) :=
  if input.isVerbatim then
    .error (.providerRefusal ("mem0 does not support verbatim ingest; use the atomicmemory " ++
      "provider for deterministic one-input-equals-one-memory storage."))
  else do
    let body := buildIngestBody input (input.scope.user.getD "") config
    let shouldDefer := config.deferInference && resolveInferFlag input config
    let body := if shouldDefer then Items.set body "infer" (.bool false) else body
    requireClient p.initialized
    .ok
      { request := ⟨"POST", p.path "/memories/".toList, some body⟩
        receive := fun outcome => do
          let raw ← fetchJson outcome
          toIngestResult python (unwrapMem0Array raw) }

/-- `do_search`. -/
def doSearch (float : PyValue → Except PyError ℚ) (python : Python) (py : Pydantic)
    (config : Config) (request : SearchRequest) :
    Except PyError (Call (SearchResultPage String)) := do
  requireClient p.initialized
  .ok
    { request := ⟨"POST", p.searchPath,
        some (buildSearchBody request.query request.scope config request.limit)⟩
      receive := fun outcome => do
        let raw ← fetchJson outcome
        let results ←
          comprehension (toSearchResult float python py request.scope) 0 (unwrapMem0Array raw)
        .ok ⟨results, none, none⟩ }

def memoryPath (ref : MemoryRef) : List Char := "/memories/".toList ++ ref.id.toList ++ ['/']

/-- `do_get`. -/
def doGet (python : Python) (ref : MemoryRef) : Except PyError (Call (Option (Memory String))) := do
  requireClient p.initialized
  .ok
    { request := ⟨"GET", p.path (memoryPath ref), none⟩
      receive := fun outcome => do
        let raw ← fetchJsonOrNone outcome
        if raw.isNone then .ok none else (toMemory python ref.scope 0 raw).map some }

/-- `do_delete`. -/
def doDelete (ref : MemoryRef) : Except PyError (Call Unit) := do
  requireClient p.initialized
  .ok
    { request := ⟨"DELETE", p.path (memoryPath ref), none⟩
      receive := deleteIgnore404 }

/-- The page that an offset lies on, which is only sent from the second page's offset on. -/
def pageOf (offset limit : ℤ) : Except PyError (Option ℤ) :=
  if offset > 0 then
    if limit = 0 then .error .zeroDivisionError else .ok (some (offset.fdiv limit + 1))
  else .ok none

def pageParameter : Option ℤ → List Char
  | some page => "&page=".toList ++ (toString page).toList
  | none => []

def listPath (scope : Scope String) (limit : ℤ) (page : Option ℤ) : List Char :=
  "/memories/?user_id=".toList ++ (scope.user.getD "").toList ++ "&page_size=".toList ++
    (toString limit).toList ++ pageParameter page

/-- `do_list`. -/
def doList (python : Python) (request : ListRequest) :
    Except PyError (Call (ListResultPage String)) := do
  let limit := request.limit.getD 20
  let offset ← startOffset python request.cursor
  let page ← pageOf offset limit
  requireClient p.initialized
  .ok
    { request := ⟨"GET", p.path (listPath request.scope limit page), none⟩
      receive := fun outcome => do
        let raw ← fetchJson outcome
        let memories ← comprehension (toMemory python request.scope) 0 (unwrapMem0Array raw)
        .ok ⟨memories, nextCursor offset limit memories.length⟩ }

def ingest (python : Python) (config : Config) (input : IngestInput) :
    Except PyError (Call IngestResult) :=
  runOperation p.initialized requiredScope "ingest" input.scope (p.doIngest python config input)

def search (float : PyValue → Except PyError ℚ) (python : Python) (py : Pydantic)
    (config : Config) (request : SearchRequest) :
    Except PyError (Call (SearchResultPage String)) :=
  runOperation p.initialized requiredScope "search" request.scope
    (p.doSearch float python py config request)

def get (python : Python) (ref : MemoryRef) : Except PyError (Call (Option (Memory String))) :=
  runOperation p.initialized requiredScope "get" ref.scope (p.doGet python ref)

def delete (ref : MemoryRef) : Except PyError (Call Unit) :=
  runOperation p.initialized requiredScope "delete" ref.scope (p.doDelete ref)

def list (python : Python) (request : ListRequest) :
    Except PyError (Call (ListResultPage String)) :=
  runOperation p.initialized requiredScope "list" request.scope (p.doList python request)

variable {p}

/-- What `list` sends, and where the memories of the page it returns come from. -/
theorem list_ok {python : Python} {request : ListRequest} {call : Call (ListResultPage String)}
    (h : p.list python request = .ok call) :
    ∃ offset page, startOffset python request.cursor = .ok offset ∧
      pageOf offset (request.limit.getD 20) = .ok page ∧
      call.request = ⟨"GET", p.path (listPath request.scope (request.limit.getD 20) page), none⟩ ∧
      ∀ outcome result, call.receive outcome = .ok result → ∃ status body,
        outcome = .response status (some body) ∧
        List.Forall₂ (fun row m => ∃ k, toMemory python request.scope k row = .ok m)
          (unwrapMem0Array body) result.memories := by
  obtain ⟨inner, hinner, hrequest, -, hreceive⟩ := runOperation_ok h
  obtain ⟨offset, hoffset, hinner⟩ := Except.bind_ok hinner
  obtain ⟨page, hpage, hinner⟩ := Except.bind_ok hinner
  obtain ⟨_, -, hinner⟩ := Except.bind_ok hinner
  cases hinner
  refine ⟨offset, page, hoffset, hpage, hrequest, fun outcome result hresult => ?_⟩
  obtain ⟨raw, hraw, hlist⟩ := Except.bind_ok ((hreceive outcome result).mp hresult)
  obtain ⟨status, rfl⟩ := fetchJson_ok hraw
  obtain ⟨mapped, hmapped, hlist⟩ := Except.bind_ok hlist
  cases hlist
  exact ⟨status, raw, rfl, comprehension_ok hmapped⟩

end Provider

end AtomicMemory.Mem0Provider
