import AtomicMemory.Lib.RequestTarget
import AtomicMemory.Memory.IngestInput
import AtomicMemory.Providers.Http
import Mathlib.Data.List.DropRight

-- Request builders, response mappers and the V3 methods of `AtomicMemoryProvider`.

open Calendar
open PercentEncoding
open PyValue hiding none

namespace AtomicMemory.AtomicMemoryProvider

/-- `normalize_api_version`. -/
def normalizeApiVersion (apiVersion : List Char) : List Char :=
  let trimmed := (apiVersion.dropWhile (· = '/')).rdropWhile (· = '/')
  if trimmed = [] then [] else '/' :: trimmed

/-- `_qs`. -/
def qs : Option String → List Char
  | some value => if value = "" then [] else quote value.toList
  | none => []

/-- `_build_list_path`. -/
def buildListPath (scope : Scope String) (limit offset : ℤ) : List Char :=
  let pairs :=
    [("user_id".toList, (scope.user.getD "").toList),
      ("limit".toList, (toString limit).toList), ("offset".toList, (toString offset).toList)]
  let pairs :=
    match scope.thread with
    | some thread => pairs ++ [("session_id".toList, thread.toList)]
    | none => pairs
  "/memories/list?".toList ++ urlencode pairs

def optStr : Option String → PyValue
  | some s => .str s
  | none => .none

/-- `_build_ingest_body`. -/
def buildIngestBody (input : IngestInput) : Items :=
  let source := input.provenance.bind fun provenance => nonEmpty provenance.source
  let sourceUrl := input.provenance.bind fun provenance => nonEmpty provenance.sourceUrl
  let metadata := input.metadata.getD []
  [("user_id", optStr input.scope.user), ("conversation", .str input.conversation),
      ("source_site", .str (source.getD "sdk")), ("source_url", .str (sourceUrl.getD ""))] ++
    optItem "session_id" input.scope.thread .str ++
    (if input.isVerbatim then
      ("skip_extraction", .bool true) ::
        if metadata = [] then [] else [("metadata", .dict metadata)]
    else []) ++
    optItem "content_class" input.contentClass fun contentClass => .str contentClass.text

/-- `_build_search_body`. -/
def buildSearchBody (request : SearchRequest) : Items :=
  [("user_id", optStr request.scope.user), ("query", .str request.query)] ++
    optItem "limit" request.limit .int ++ optItem "threshold" request.threshold .float ++
    optItem "namespace_scope" request.scope.nameSpace .str ++
    optItem "session_id" request.scope.thread .str

/-- `_PACKAGE_FORMAT_TO_RETRIEVAL_MODE`. -/
def retrievalMode : PackageFormat → String
  | .flat => "flat"
  | .tiered => "tiered"
  | .structured => "abstract-aware"

/-- `_build_package_body`. -/
def buildPackageBody (request : PackageRequest) : Items :=
  buildSearchBody request.toSearchRequest ++
    optItem "retrieval_mode" request.format (fun format => .str (retrievalMode format)) ++
    optItem "token_budget" request.tokenBudget .int ++ [("skip_repair", .bool true)]

/-- `_coalesce`. -/
def coalesce : List PyValue → PyValue
  | [] => .none
  | v :: vs => if v.isNone then coalesce vs else v

/-- `_parse_iso`; only a `str` has `endswith`. -/
def parseIso (python : Python) : PyValue → Except PyError (Option DateTime)
  | .none => .ok none
  | .str s => (python.parseIsoText s).map some
  | _ => .error .attributeError

/-- `v == text`. -/
def isText (v : PyValue) (text : String) : Bool :=
  match v with
  | .str s => s = text
  | _ => false

theorem isText_iff {v : PyValue} {text : String} : isText v text = true ↔ v = .str text := by
  unfold isText
  split
  · simp
  · rename_i hne
    exact ⟨nofun, fun h => absurd h (hne text)⟩

/-- `_build_scope`. `model_copy` validates nothing: the labels are the record's values. -/
def buildScope (raw : Items) (scope : Scope String) : Except PyError (Scope PyValue) :=
  let nameSpace := Items.get raw "namespace"
  let sessionId := Items.get raw "session_id"
  if scope.nameSpace.any (fun requested => !nameSpace.isNone && !isText nameSpace requested) then
    .error (.valueError ("atomicmemory provider: backend response `namespace` did not match " ++
      "requested namespace scope"))
  else if scope.thread.isSome && !sessionId.truthy then
    .error (.valueError ("atomicmemory provider: backend response missing required `session_id` " ++
      "for thread-scoped request"))
  else if scope.thread.any (fun requested => !isText sessionId requested) then
    .error (.valueError ("atomicmemory provider: backend response `session_id` did not match " ++
      "requested thread scope"))
  else
    let labels := scope.map .str
    .ok { labels with
      nameSpace := if nameSpace.truthy then some nameSpace else labels.nameSpace
      thread := if sessionId.truthy then some sessionId else labels.thread }

theorem buildScope_ok {raw : Items} {scope : Scope String} {labels : Scope PyValue}
    (h : buildScope raw scope = .ok labels) :
    (∀ requested, scope.nameSpace = some requested →
      Items.get raw "namespace" = .none ∨ Items.get raw "namespace" = .str requested) ∧
    (∀ requested, scope.thread = some requested →
      requested ≠ "" ∧ Items.get raw "session_id" = .str requested) ∧
    labels =
      { scope.map .str with
        nameSpace :=
          if (Items.get raw "namespace").truthy then some (Items.get raw "namespace")
          else scope.nameSpace.map .str
        thread :=
          if (Items.get raw "session_id").truthy then some (Items.get raw "session_id")
          else scope.thread.map .str } := by
  unfold buildScope at h
  simp only at h
  split at h
  · cases h
  rename_i hnamespace
  split at h
  · cases h
  rename_i hmissing
  split at h
  · cases h
  rename_i hthread
  refine ⟨fun requested hrequested => ?_, fun requested hrequested => ?_, (Except.ok.inj h).symm⟩
  · rw [hrequested, Option.any_some, Bool.and_eq_true, not_and_or] at hnamespace
    rcases hnamespace with hnone | htext
    · exact .inl ((isNone_iff _).mp (by simpa using hnone))
    · exact .inr (isText_iff.mp (by simpa using htext))
  · -- an empty thread id in the record counts as a missing one
    rw [hrequested, Option.any_some] at hthread
    have htext := isText_iff.mp (show isText (Items.get raw "session_id") requested = true by
      simpa using hthread)
    refine ⟨?_, htext⟩
    rintro rfl
    apply hmissing
    rw [hrequested, htext]
    rfl

/-- `_build_provenance`. -/
def buildProvenance (raw : Items) : Except PyError (Option Provenance) :=
  let entry (source target : String) : Items :=
    let v := Items.get raw source
    if v.isNone then [] else [(target, v)]
  let fields := entry "source_site" "source" ++ entry "source_url" "source_url"
  if fields = [] then .ok none
  else (modelValidate "Provenance" (Provenance.ofItems fields)).map some

/-- `_build_metadata`. -/
def buildMetadata (raw : Items) : PyValue :=
  let entry (key : String) : Items :=
    let v := Items.get raw key
    if v.isNone then [] else [(key, v)]
  let metadata := entry "importance" ++ entry "episode_id"
  if metadata = [] then .none else .dict metadata

section

variable (python : Python) (py : Pydantic)

/-- `to_memory`, the `n`th of its call. -/
def toMemory (scope : Scope String) (n : ℕ) (raw : PyValue) : Except PyError (Memory PyValue) :=
  match raw with
  | .dict raw => do
    let createdAt ← parseIso python (Items.get raw "created_at")
    let id ← item raw "id"
    let content ← item raw "content"
    let labels ← buildScope raw scope
    let provenance ← buildProvenance raw
    Memory.create id content labels none (createdAt.getD (python.clock n)) none provenance
      (buildMetadata raw)
  | _ => .error .attributeError

theorem toMemory_ok {scope : Scope String} {n : ℕ} {raw : PyValue} {m : Memory PyValue}
    (h : toMemory python scope n raw = .ok m) :
    ∃ items, raw = .dict items ∧ items.lookup "id" = some (.str m.id) ∧
      buildScope items scope = .ok m.scope := by
  cases raw with
  | dict items =>
    obtain ⟨createdAt, -, h⟩ := Except.bind_ok h
    obtain ⟨id, hid, h⟩ := Except.bind_ok h
    obtain ⟨content, -, h⟩ := Except.bind_ok h
    obtain ⟨labels, hlabels, h⟩ := Except.bind_ok h
    obtain ⟨provenance, -, h⟩ := Except.bind_ok h
    obtain ⟨hmid, hmscope⟩ := Memory.create_ok h
    refine ⟨items, rfl, ?_, hmscope ▸ hlabels⟩
    rw [item_ok hid, hmid]
  | _ => cases h

/-- `to_search_result`. -/
def toSearchResult (scope : Scope String) (n : ℕ) (raw : PyValue) :
    Except PyError (SearchResult PyValue) :=
  match raw with
  | .dict items => do
    let similarity := coalesce [Items.get items "semantic_similarity", Items.get items "similarity"]
    let rankingScore := coalesce [Items.get items "ranking_score", Items.get items "score"]
    let score := coalesce [rankingScore, similarity, .float 0]
    let memory ← toMemory python scope n raw
    SearchResult.create py memory score similarity rankingScore (Items.get items "relevance")
      (Items.get items "version_id") (Items.get items "observed_at")
  | _ => .error .attributeError

theorem toSearchResult_ok {scope : Scope String} {n : ℕ} {raw : PyValue}
    {r : SearchResult PyValue} (h : toSearchResult python py scope n raw = .ok r) :
    toMemory python scope n raw = .ok r.memory := by
  cases raw with
  | dict items =>
    obtain ⟨memory, hmemory, h⟩ := Except.bind_ok h
    rw [SearchResult.create_ok h]
    exact hmemory
  | _ => cases h

/-- The records of a response, as `for m in raw.get("memories", [])` goes through them. -/
def records (body : PyValue) : List PyValue :=
  match getD body "memories" (.list []) >>= iterate with
  | .ok rows => rows
  | .error _ => []

theorem records_eq {body v : PyValue} {rows : List PyValue}
    (hv : getD body "memories" (.list []) = .ok v) (hrows : iterate v = .ok rows) :
    records body = rows := by
  have h : getD body "memories" (.list []) >>= iterate = .ok rows := by
    rw [hv]
    exact hrows
  simp only [records, h]

/-- `[to_search_result(m, request.scope) for m in raw.get("memories", [])]`. -/
def searchResults (scope : Scope String) (raw : PyValue) :
    Except PyError (List (SearchResult PyValue)) := do
  let rows ← getD raw "memories" (.list [])
  let rows ← iterate rows
  comprehension (toSearchResult python py scope) 0 rows

/-- `_INGEST_IDS.validate_python(v, strict=True)`. -/
def ingestIds (v : PyValue) : Except PyError (List String) :=
  modelValidate "list" (list? (fun id => (str? id).filter (· ≠ "")) v)

/-- `to_ingest_result`. -/
def toIngestResult (raw : PyValue) : Except PyError IngestResult := do
  let stored ← getD raw "stored_memory_ids" (.list [])
  let created ← ingestIds stored
  let changed ← getD raw "updated_memory_ids" (.list [])
  let updated ← ingestIds changed
  .ok ⟨created, updated, []⟩

/-- `to_retrieval_receipt(raw["retrieval"]) if raw.get("retrieval") else None`. -/
def toRetrievalReceipt (raw : PyValue) : Except PyError (Option RetrievalReceipt) := do
  let v ← getD raw "retrieval" .none
  if v.truthy then (modelValidate "RetrievalReceipt" (RetrievalReceipt.ofValue py v)).map some
  else .ok none

/-- The entries of `_AUDIT_EVENTS`; anything else is `"created"`. -/
def toEvent : PyValue → Except PyError MemoryVersionEvent
  | .str "updated" => .ok .updated
  | .str "superseded" => .ok .superseded
  | .str "invalidated" => .ok .invalidated
  -- a list or a dict cannot be looked up in a set
  | .list _ | .dict _ => .error .typeError
  | _ => .ok .created

/-- `to_memory_version`. -/
def toMemoryVersion (raw : PyValue) : Except PyError MemoryVersion :=
  match raw with
  | .dict raw => do
    let event ← toEvent (Items.get raw "event")
    match ← parseIso python (Items.get raw "created_at") with
    | none => .error (.valueError "audit entry missing created_at")
    | some createdAt => do
      let id ← item raw "id"
      let content ← item raw "content"
      MemoryVersion.create id content createdAt (Items.get raw "parent_id") event
  | _ => .error .attributeError

end

/-- What the methods read of the provider: `_api_prefix`, whether it is initialized and has
a client, and the meta-fact filter when one is enabled, as the contents it matches. -/
structure Provider where
  apiPrefix : List Char
  initialized : Bool
  isMetaFact : Option (String → Bool)

/-- `capabilities().required_scope.default`. -/
def requiredScope : List String := ["user"]

namespace Provider

variable (p : Provider)

/-- `_route`. -/
def route (path : List Char) : List Char := p.apiPrefix ++ path

def get (path : List Char) : HttpRequest := ⟨"GET", p.route path, none⟩

def post (path : List Char) (body : Items) : HttpRequest := ⟨"POST", p.route path, some body⟩

/-- `_apply_meta_fact_filter`; empty content matches no pattern. -/
def applyMetaFactFilter {α : Type} (results : List (SearchResult α)) : List (SearchResult α) :=
  match p.isMetaFact with
  | none => results
  | some isMetaFact =>
    results.filter fun r => r.memory.content = "" || !isMetaFact r.memory.content

variable (python : Python) (py : Pydantic)

def toPage (scope : Scope String) (raw : PyValue) :
    Except PyError (SearchResultPage PyValue) := do
  let results ← searchResults python py scope raw
  let retrieval ← toRetrievalReceipt py raw
  .ok ⟨p.applyMetaFactFilter results, none, retrieval⟩

/-- `do_ingest`. -/
def doIngest (input : IngestInput) : Except PyError (Call IngestResult) := do
  requireClient p.initialized
  .ok
    { request := p.post
        (if input.isVerbatim then "/memories/ingest/quick" else "/memories/ingest").toList
        (buildIngestBody input)
      receive := fun outcome => do
        let raw ← fetchJsonCompleted outcome
        toIngestResult raw }

/-- `do_search`. -/
def doSearch (request : SearchRequest) : Except PyError (Call (SearchResultPage PyValue)) := do
  requireClient p.initialized
  .ok
    { request := p.post "/memories/search/fast".toList (buildSearchBody request)
      receive := fun outcome => do
        let raw ← fetchJson outcome
        p.toPage python py request.scope raw }

def memoryPath (ref : MemoryRef) : List Char :=
  "/memories/".toList ++ ref.id.toList ++ "?user_id=".toList ++ qs ref.scope.user

/-- `do_get`. -/
def doGet (ref : MemoryRef) : Except PyError (Call (Option (Memory PyValue))) := do
  requireClient p.initialized
  .ok
    { request := p.get (memoryPath ref)
      receive := fun outcome => do
        let raw ← fetchJsonOrNone outcome
        if raw.isNone then .ok none else (toMemory python ref.scope 0 raw).map some }

/-- `do_delete`. -/
def doDelete (ref : MemoryRef) : Except PyError (Call Unit) := do
  requireClient p.initialized
  .ok
    { request := ⟨"DELETE", p.route (memoryPath ref), none⟩
      receive := deleteIgnore404 }

/-- `do_list`. -/
def doList (request : ListRequest) : Except PyError (Call (ListResultPage PyValue)) := do
  let offset ← startOffset python request.cursor
  let limit := request.limit.getD 20
  requireClient p.initialized
  .ok
    { request := p.get (buildListPath request.scope limit offset)
      receive := fun outcome => do
        let raw ← fetchJson outcome
        let rows ← getD raw "memories" (.list [])
        let rows ← iterate rows
        let memories ← comprehension (toMemory python request.scope) 0 rows
        .ok ⟨memories, nextCursor offset limit memories.length⟩ }

/-- `package`. -/
def package (request : PackageRequest) : Except PyError (Call (ContextPackage PyValue)) := do
  requireClient p.initialized
  .ok
    { request := p.post "/memories/search".toList (buildPackageBody request)
      receive := fun outcome => do
        let raw ← fetchJson outcome
        let results ← searchResults python py request.scope raw
        let results := p.applyMetaFactFilter results
        match ← getD raw "budget_constrained" .none with
        | .bool budgetConstrained => do
          let text ← getD raw "injection_text" .none
          let tokens ← getD raw "estimated_context_tokens" .none
          ContextPackage.create py (if text.truthy then text else .str "") results
            (if tokens.truthy then tokens else .int 0) budgetConstrained
        | _ => .error (.valueError ("atomicmemory provider.package: backend response missing " ++
            "required boolean field `budget_constrained`")) }

/-- `search_as_of`. -/
def searchAsOf (request : SearchRequest) (asOf : DateTime) :
    Except PyError (Call (SearchResultPage PyValue)) := do
  let body := buildSearchBody request ++ [("as_of", .str (python.isoformat asOf))]
  requireClient p.initialized
  .ok
    { request := p.post "/memories/search".toList body
      receive := fun outcome => do
        let raw ← fetchJson outcome
        p.toPage python py request.scope raw }

def auditPath (ref : MemoryRef) : List Char :=
  "/memories/".toList ++ ref.id.toList ++ "/audit?user_id=".toList ++ qs ref.scope.user

/-- `history`. -/
def history (ref : MemoryRef) : Except PyError (Call (List MemoryVersion)) := do
  requireClient p.initialized
  .ok
    { request := p.get (auditPath ref)
      receive := fun outcome => do
        let raw ← fetchJson outcome
        let entries ← getD raw "trail" (.list [])
        let entries ← iterate entries
        comprehension (fun _ => toMemoryVersion python) 0 entries }

-- The methods that the base class wraps in `_run_operation`.

def ingest (input : IngestInput) : Except PyError (Call IngestResult) :=
  runOperation p.initialized requiredScope "ingest" input.scope (p.doIngest input)

def search (request : SearchRequest) : Except PyError (Call (SearchResultPage PyValue)) :=
  runOperation p.initialized requiredScope "search" request.scope (p.doSearch python py request)

def getMemory (ref : MemoryRef) : Except PyError (Call (Option (Memory PyValue))) :=
  runOperation p.initialized requiredScope "get" ref.scope (p.doGet python ref)

def delete (ref : MemoryRef) : Except PyError (Call Unit) :=
  runOperation p.initialized requiredScope "delete" ref.scope (p.doDelete ref)

def list (request : ListRequest) : Except PyError (Call (ListResultPage PyValue)) :=
  runOperation p.initialized requiredScope "list" request.scope (p.doList python request)

variable {p python}

/-- What `list` sends, and where the memories of the page it returns come from. -/
theorem list_ok {request : ListRequest} {call : Call (ListResultPage PyValue)}
    (h : p.list python request = .ok call) :
    ∃ offset, startOffset python request.cursor = .ok offset ∧
      call.request = p.get (buildListPath request.scope (request.limit.getD 20) offset) ∧
      ∀ outcome page, call.receive outcome = .ok page → ∃ status body,
        outcome = .response status (some body) ∧
        List.Forall₂ (fun row m => ∃ k, toMemory python request.scope k row = .ok m)
          (records body) page.memories := by
  obtain ⟨inner, hinner, hrequest, -, hreceive⟩ := runOperation_ok h
  obtain ⟨offset, hoffset, hinner⟩ := Except.bind_ok hinner
  obtain ⟨_, -, hinner⟩ := Except.bind_ok hinner
  cases hinner
  refine ⟨offset, hoffset, hrequest, fun outcome page hpage => ?_⟩
  obtain ⟨raw, hraw, hlist⟩ := Except.bind_ok ((hreceive outcome page).mp hpage)
  obtain ⟨status, rfl⟩ := fetchJson_ok hraw
  obtain ⟨v, hv, hlist⟩ := Except.bind_ok hlist
  obtain ⟨rows, hrows, hlist⟩ := Except.bind_ok hlist
  obtain ⟨mapped, hmapped, hlist⟩ := Except.bind_ok hlist
  cases hlist
  exact ⟨status, raw, rfl, records_eq hv hrows ▸ comprehension_ok hmapped⟩

end Provider

end AtomicMemory.AtomicMemoryProvider
