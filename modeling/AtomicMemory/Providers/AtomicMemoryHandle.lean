import AtomicMemory.Lib.DotSegments
import AtomicMemory.Providers.AtomicMemoryProvider

-- The namespace scopes, and the routes of `AtomicMemoryHandle` that read or delete one memory
-- or ingest. `AsyncAtomicMemoryHandle` builds the same requests and maps the same responses.

open Calendar
open PercentEncoding
open PyValue hiding none

namespace AtomicMemory.AtomicMemoryHandle

inductive AgentScope
  | one (agentId : String)
  | many (agentIds : List String)

/-- `MemoryScope`; its thread is a text, or what a response reports. -/
inductive MemoryScope (α : Type)
  | user (userId : String) (thread : Option α)
  | workspace (userId workspaceId agentId : String) (thread : Option α)
      (agentScope : Option AgentScope)

namespace MemoryScope

variable {α β : Type}

def kind : MemoryScope α → String
  | user .. => "user"
  | workspace .. => "workspace"

def userId : MemoryScope α → String
  | user userId _ => userId
  | workspace userId .. => userId

def thread : MemoryScope α → Option α
  | user _ thread => thread
  | workspace _ _ _ thread _ => thread

def isWorkspace : MemoryScope α → Bool
  | user .. => false
  | workspace .. => true

/-- `model_copy(update={"thread": thread})`. -/
def withThread (scope : MemoryScope α) (thread : Option β) : MemoryScope β :=
  match scope with
  | user userId _ => user userId thread
  | workspace userId workspaceId agentId _ agentScope =>
    workspace userId workspaceId agentId thread agentScope

end MemoryScope

/-- `scope_to_fields`. -/
def scopeToFields (scope : MemoryScope String) (includeAgentScope includeThread : Bool) : Items :=
  let threadField (thread : Option String) :=
    if includeThread then optItem "session_id" thread .str else []
  match scope with
  | .user userId thread => [("user_id", .str userId)] ++ threadField thread
  | .workspace userId workspaceId agentId thread agentScope =>
    [("user_id", .str userId), ("workspace_id", .str workspaceId), ("agent_id", .str agentId)] ++
      (if includeAgentScope then
        optItem "agent_scope" agentScope fun
          | .one agentId => .str agentId
          | .many agentIds => .list (agentIds.map .str)
      else []) ++ threadField thread

/-- `scope_to_query_pairs`. -/
def scopeToQueryPairs (scope : MemoryScope String) (includeAgentScope includeThread : Bool) :
    List (List Char × List Char) :=
  let pair (name value : String) := (name.toList, value.toList)
  let threadPair (thread : Option String) :=
    if includeThread then (thread.map (pair "session_id")).toList else []
  match scope with
  | .user userId thread => [pair "user_id" userId] ++ threadPair thread
  | .workspace userId workspaceId agentId thread agentScope =>
    [pair "user_id" userId, pair "workspace_id" workspaceId, pair "agent_id" agentId] ++
      (if includeAgentScope then
        match agentScope with
        | none => []
        | some (.one agentId) => [pair "agent_scope" agentId]
        | some (.many agentIds) => agentIds.map (pair "agent_scope")
      else []) ++ threadPair thread

/-- `strip_read_filters`. -/
def stripReadFilters (scope : MemoryScope String) : MemoryScope String :=
  match scope with
  | .user userId _ => .user userId none
  | .workspace userId workspaceId agentId _ _ => .workspace userId workspaceId agentId none none

inductive Visibility
  | agentOnly
  | restricted
  | workspace
  deriving DecidableEq

def Visibility.text : Visibility → String
  | agentOnly => "agent_only"
  | restricted => "restricted"
  | workspace => "workspace"

def Visibility.ofValue : PyValue → Option Visibility
  | .str "agent_only" => some .agentOnly
  | .str "restricted" => some .restricted
  | .str "workspace" => some .workspace
  | _ => none

/-- The SDK's own `ValidationError`, with its context. -/
structure ValidationError where
  message : String
  scopeKind : String
  visibility : Visibility

/-- `assert_scope_allows_visibility`. -/
def assertScopeAllowsVisibility (scope : MemoryScope String) (visibility : Option Visibility) :
    Except ValidationError Unit :=
  match visibility with
  | none => .ok ()
  | some visibility =>
    if scope.isWorkspace then .ok ()
    else .error ⟨"ingest `visibility` is only valid with workspace scope; omit it or use a " ++
      "workspace scope variant.", scope.kind, visibility⟩

structure AtomicMemoryMemory where
  id : String
  content : String
  scope : MemoryScope PyValue
  createdAt : DateTime
  updatedAt : Option DateTime
  importance : Option ℚ
  sourceSite : Option String
  sourceUrl : Option String
  episodeId : Option String
  visibility : Option Visibility
  metadata : Option Items

/-- `_build_memory_scope`; `model_copy` validates nothing. -/
def buildMemoryScope (raw : Items) (requested : MemoryScope String) :
    Except PyError (MemoryScope PyValue) :=
  let sessionId := Items.get raw "session_id"
  if requested.thread.isSome && !sessionId.truthy then
    .error (.valueError ("atomicmemory provider: backend response missing required `session_id` " ++
      "for thread-scoped request"))
  else if requested.thread.any (fun thread => !AtomicMemoryProvider.isText sessionId thread) then
    .error (.valueError ("atomicmemory provider: backend response `session_id` did not match " ++
      "requested thread scope"))
  else if sessionId.truthy then .ok (requested.withThread (some sessionId))
  else .ok (requested.withThread (requested.thread.map .str))

theorem buildMemoryScope_ok {raw : Items} {requested : MemoryScope String}
    {scope : MemoryScope PyValue} (h : buildMemoryScope raw requested = .ok scope) :
    (∀ thread, requested.thread = some thread → Items.get raw "session_id" = .str thread) ∧
    scope = requested.withThread (if (Items.get raw "session_id").truthy then
      some (Items.get raw "session_id") else none) := by
  unfold buildMemoryScope at h
  simp only at h
  split at h
  · cases h
  rename_i hmissing
  split at h
  · cases h
  rename_i hthread
  constructor
  · intro thread hrequested
    rw [hrequested, Option.any_some] at hthread
    exact AtomicMemoryProvider.isText_iff.mp (by simpa using hthread)
  · by_cases htruthy : (Items.get raw "session_id").truthy = true
    · rw [if_pos htruthy] at h
      rw [if_pos htruthy]
      exact (Except.ok.inj h).symm
    · -- no thread can have been asked for
      rw [if_neg htruthy] at h
      rw [if_neg htruthy, ← Except.ok.inj h]
      cases hrequested : requested.thread with
      | none => rfl
      | some thread =>
        rw [hrequested] at hmissing
        exact absurd (by simpa using htruthy) hmissing

def updatedAtOf (python : Python) (raw : Items) : Except PyError (Option DateTime) :=
  if (Items.get raw "updated_at").truthy then
    AtomicMemoryProvider.parseIso python (Items.get raw "updated_at")
  else .ok none

/-- `AtomicMemoryMemory.model_validate`, given the fields that are not the record's own. -/
def AtomicMemoryMemory.ofItems (py : Pydantic) (raw : Items) (id : PyValue)
    (scope : MemoryScope PyValue) (createdAt : DateTime) (updatedAt : Option DateTime) :
    Option AtomicMemoryMemory := do
  let content := Items.get raw "content"
  let id ← str? id
  let content ← str? (if content.truthy then content else .str "")
  let importance ← optField py.float raw "importance"
  let sourceSite ← optField str? raw "source_site"
  let sourceUrl ← optField str? raw "source_url"
  let episodeId ← optField str? raw "episode_id"
  let visibility ← optField Visibility.ofValue raw "visibility"
  let metadata ← optField dict? raw "metadata"
  some ⟨id, content, scope, createdAt, updatedAt, importance, sourceSite, sourceUrl, episodeId,
    visibility, metadata⟩

/-- `_to_atomic_memory`. -/
def toAtomicMemory (python : Python) (py : Pydantic) (raw : PyValue) (scope : MemoryScope String) :
    Except PyError AtomicMemoryMemory :=
  match raw with
  | .dict raw => do
    let id ← item raw "id"
    let scope ← buildMemoryScope raw scope
    let createdAt ← AtomicMemoryProvider.parseIso python (Items.get raw "created_at")
    let updatedAt ← updatedAtOf python raw
    modelValidate "AtomicMemoryMemory" (AtomicMemoryMemory.ofItems py raw id scope
      (createdAt.getD (python.clock 0)) updatedAt)
  -- only a dict can be indexed with a text
  | _ => .error .typeError

theorem AtomicMemoryMemory.ofItems_eq_some {py : Pydantic} {raw : Items} {id : PyValue}
    {scope : MemoryScope PyValue} {createdAt : DateTime} {updatedAt : Option DateTime}
    {m : AtomicMemoryMemory} (h : ofItems py raw id scope createdAt updatedAt = some m) :
    str? id = some m.id ∧ m.scope = scope ∧
      str? (if (Items.get raw "content").truthy then Items.get raw "content" else .str "") =
        some m.content := by
  obtain ⟨_, hid, h⟩ := Option.bind_eq_some_iff.mp h
  obtain ⟨_, hcontent, h⟩ := Option.bind_eq_some_iff.mp h
  obtain ⟨_, -, h⟩ := Option.bind_eq_some_iff.mp h
  obtain ⟨_, -, h⟩ := Option.bind_eq_some_iff.mp h
  obtain ⟨_, -, h⟩ := Option.bind_eq_some_iff.mp h
  obtain ⟨_, -, h⟩ := Option.bind_eq_some_iff.mp h
  obtain ⟨_, -, h⟩ := Option.bind_eq_some_iff.mp h
  obtain ⟨_, -, h⟩ := Option.bind_eq_some_iff.mp h
  cases h
  exact ⟨hid, rfl, hcontent⟩

theorem toAtomicMemory_ok {python : Python} {py : Pydantic} {raw : PyValue}
    {scope : MemoryScope String} {m : AtomicMemoryMemory}
    (h : toAtomicMemory python py raw scope = .ok m) :
    ∃ items, raw = .dict items ∧ buildMemoryScope items scope = .ok m.scope := by
  cases raw with
  | dict items =>
    obtain ⟨id, -, h⟩ := Except.bind_ok h
    obtain ⟨labels, hlabels, h⟩ := Except.bind_ok h
    obtain ⟨createdAt, -, h⟩ := Except.bind_ok h
    obtain ⟨updatedAt, -, h⟩ := Except.bind_ok h
    obtain ⟨-, hscope, -⟩ := AtomicMemoryMemory.ofItems_eq_some (modelValidate_ok h)
    exact ⟨items, rfl, hscope ▸ hlabels⟩
  | _ => cases h

structure AtomicMemoryIngestInput where
  conversation : String
  sourceSite : String
  sourceUrl : Option String
  visibility : Option Visibility
  configOverride : Option Items

structure AtomicMemoryIngestResult where
  episodeId : String
  factsExtracted : ℤ
  memoriesStored : ℤ
  memoriesUpdated : ℤ
  memoriesDeleted : ℤ
  memoriesSkipped : ℤ
  storedMemoryIds : List String
  updatedMemoryIds : List String
  linksCreated : ℤ
  compositesCreated : ℤ
  deriving DecidableEq

/-- The fields of `AtomicMemoryIngestResult`, as Pydantic reads them. -/
def AtomicMemoryIngestResult.ofItems (py : Pydantic) (items : Items) :
    Option AtomicMemoryIngestResult := do
  let episodeId ← field str? items "episode_id"
  let factsExtracted ← field py.int items "facts_extracted"
  let memoriesStored ← field py.int items "memories_stored"
  let memoriesUpdated ← field py.int items "memories_updated"
  let memoriesDeleted ← field py.int items "memories_deleted"
  let memoriesSkipped ← field py.int items "memories_skipped"
  let storedMemoryIds ← defaultField (list? str?) [] items "stored_memory_ids"
  let updatedMemoryIds ← defaultField (list? str?) [] items "updated_memory_ids"
  let linksCreated ← field py.int items "links_created"
  let compositesCreated ← field py.int items "composites_created"
  some ⟨episodeId, factsExtracted, memoriesStored, memoriesUpdated, memoriesDeleted,
    memoriesSkipped, storedMemoryIds, updatedMemoryIds, linksCreated, compositesCreated⟩

/-- The body of `_post_ingest`. -/
def ingestBody (input : AtomicMemoryIngestInput) (scope : MemoryScope String)
    (skipExtraction : Bool) : Items :=
  scopeToFields scope false true ++
    [("conversation", .str input.conversation), ("source_site", .str input.sourceSite),
      ("source_url", .str (input.sourceUrl.getD ""))] ++
    (if scope.isWorkspace then
      optItem "visibility" input.visibility fun visibility => .str visibility.text
    else []) ++
    optItem "config_override" input.configOverride .dict ++
    if skipExtraction then [("skip_extraction", .bool true)] else []

/-- `fetch_void`. -/
def fetchVoid : HttpOutcome → Except PyError Unit
  | .timeout | .requestError => .error .networkError
  | .response status _ => raiseForStatus status

structure Handle where
  apiVersion : List Char

namespace Handle

variable (h : Handle)

/-- `_route`. -/
def route (path : List Char) : List Char :=
  AtomicMemoryProvider.normalizeApiVersion h.apiVersion ++ path

/-- The path of `get` and of `delete`. -/
def memoryPath (id : String) (scope : MemoryScope String) : List Char :=
  h.route ("/memories/".toList ++ quote id.toList ++ '?' ::
    urlencode (scopeToQueryPairs (stripReadFilters scope) false false))

/-- `get`. -/
def get (python : Python) (py : Pydantic) (id : String) (scope : MemoryScope String) :
    Call (Option AtomicMemoryMemory) where
  request := ⟨"GET", h.memoryPath id scope, none⟩
  receive := fun outcome => do
    let raw ← fetchJsonOrNone outcome
    if raw.isNone then .ok none
    else (toAtomicMemory python py raw (stripReadFilters scope)).map some

/-- `delete`. -/
def delete (id : String) (scope : MemoryScope String) : Call Unit where
  request := ⟨"DELETE", h.memoryPath id scope, none⟩
  receive := fun outcome =>
    match fetchVoid outcome with
    | .error (.providerError 404) => .ok ()
    | result => result

/-- `_post_ingest`. -/
def postIngest (py : Pydantic) (path : List Char) (input : AtomicMemoryIngestInput)
    (scope : MemoryScope String) (skipExtraction : Bool) :
    Except ValidationError (Call AtomicMemoryIngestResult) := do
  assertScopeAllowsVisibility scope input.visibility
  .ok
    { request := ⟨"POST", path, some (ingestBody input scope skipExtraction)⟩
      receive := fun outcome => do
        let raw ← fetchJson outcome
        modelValidate "AtomicMemoryIngestResult"
          ((dict? raw).bind (AtomicMemoryIngestResult.ofItems py)) }

/-- `ingest_full`. -/
def ingestFull (py : Pydantic) (input : AtomicMemoryIngestInput) (scope : MemoryScope String) :
    Except ValidationError (Call AtomicMemoryIngestResult) :=
  postIngest py (h.route "/memories/ingest".toList) input scope false

/-- `ingest_quick`. -/
def ingestQuick (py : Pydantic) (input : AtomicMemoryIngestInput) (scope : MemoryScope String)
    (skipExtraction : Bool) : Except ValidationError (Call AtomicMemoryIngestResult) :=
  postIngest py (h.route "/memories/ingest/quick".toList) input scope skipExtraction

end Handle

end AtomicMemory.AtomicMemoryHandle
