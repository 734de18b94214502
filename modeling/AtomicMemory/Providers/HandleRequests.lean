import AtomicMemory.Lib.RequestReading
import AtomicMemory.Providers.AdminRoutes
import AtomicMemory.Providers.PathSegments
import AtomicMemory.Providers.ScopeEcho

-- Every call of `AtomicMemoryHandle` and of its categories, as the request it sends, and as what
-- the service makes out in the request.

open Calendar PercentEncoding
open PyValue hiding none

namespace AtomicMemory.AtomicMemoryHandle

inductive LessonSeverity
  | low
  | medium
  | high
  | critical
  deriving DecidableEq

def LessonSeverity.text : LessonSeverity → String
  | low => "low"
  | medium => "medium"
  | high => "high"
  | critical => "critical"

inductive ConflictResolution
  | resolvedNew
  | resolvedExisting
  | resolvedBoth
  deriving DecidableEq

def ConflictResolution.text : ConflictResolution → String
  | resolvedNew => "resolved_new"
  | resolvedExisting => "resolved_existing"
  | resolvedBoth => "resolved_both"

structure ConfigUpdates where
  similarityThreshold : Option ℚ
  audnCandidateThreshold : Option ℚ
  clarificationConflictThreshold : Option ℚ
  maxSearchResults : Option ℤ

namespace Handle

variable (h : Handle)

def postRequest (path : String) (body : Items) : HttpRequest :=
  ⟨"POST", h.route path.toList, some body⟩

def putRequest (path : List Char) (body : Items) : HttpRequest := ⟨"PUT", h.route path, some body⟩

-- `AtomicMemoryLifecycle`

def consolidateBody (userId : String) (execute : Bool) : Items :=
  [("user_id", .str userId)] ++ if execute then [("execute", .bool true)] else []

/-- `consolidate`. -/
def consolidate (userId : String) (execute : Bool) : HttpRequest :=
  h.postRequest "/memories/consolidate" (consolidateBody userId execute)

/-- The service takes an absent `dry_run` for true. -/
def decayBody (userId : String) (dryRun : Bool) : Items :=
  [("user_id", .str userId)] ++ if dryRun then [] else [("dry_run", .bool false)]

/-- `decay`. -/
def decay (userId : String) (dryRun : Bool) : HttpRequest :=
  h.postRequest "/memories/decay" (decayBody userId dryRun)

/-- `reset_source`. -/
def resetSource (userId sourceSite : String) : HttpRequest :=
  h.postRequest "/memories/reset-source"
    [("user_id", .str userId), ("source_site", .str sourceSite)]

/-- `reconcile`. -/
def reconcile (userId : String) : HttpRequest :=
  h.postRequest "/memories/reconcile" [("user_id", .str userId)]

/-- `reconcile_all`. -/
def reconcileAll : HttpRequest := h.postRequest "/memories/reconcile" []

-- `AtomicMemoryLessons`

def lessonsReportBody (userId pattern : String) (sources : Option (List String))
    (severity : Option LessonSeverity) : Items :=
  [("user_id", .str userId), ("pattern", .str pattern)] ++
    optItem "source_memory_ids" (sources.filter (· ≠ [])) (fun ids => .list (ids.map .str)) ++
    optItem "severity" severity fun severity => .str severity.text

/-- `report`. -/
def lessonsReport (userId pattern : String) (sources : Option (List String))
    (severity : Option LessonSeverity) : HttpRequest :=
  h.postRequest "/memories/lessons/report" (lessonsReportBody userId pattern sources severity)

-- `AtomicMemoryConfig`

/-- `health`. -/
def configHealth : HttpRequest := h.getRequest "/memories/health".toList

/-- The body of `update_config`. -/
def configBody (updates : ConfigUpdates) : Items :=
  optItem "similarity_threshold" updates.similarityThreshold .float ++
    optItem "audn_candidate_threshold" updates.audnCandidateThreshold .float ++
    optItem "clarification_conflict_threshold" updates.clarificationConflictThreshold .float ++
    optItem "max_search_results" updates.maxSearchResults .int

/-- `update_config`. -/
def updateConfig (updates : ConfigUpdates) : HttpRequest :=
  h.putRequest "/memories/config".toList (configBody updates)

-- `AtomicMemoryAgents`

def setTrustBody (userId agentId : String) (trustLevel : ℚ) (displayName : Option String) : Items :=
  [("user_id", .str userId), ("agent_id", .str agentId), ("trust_level", .float trustLevel)] ++
    optItem "display_name" displayName .str

/-- `set_trust`. -/
def setTrust (userId agentId : String) (trustLevel : ℚ) (displayName : Option String) :
    HttpRequest :=
  h.putRequest "/agents/trust".toList (setTrustBody userId agentId trustLevel displayName)

/-- `resolve_conflict`. -/
def resolveConflict (conflictId : String) (resolution : ConflictResolution) : HttpRequest :=
  h.putRequest ("/agents/conflicts/".toList ++ quote conflictId.toList ++ "/resolve".toList)
    [("resolution", .str resolution.text)]

/-- `auto_resolve_conflicts`. -/
def autoResolveConflicts (userId : String) : HttpRequest :=
  h.postRequest "/agents/conflicts/auto-resolve" [("user_id", .str userId)]

end Handle

inductive HandleCall
  | ingestFull (input : AtomicMemoryIngestInput) (scope : MemoryScope String)
  | ingestQuick (input : AtomicMemoryIngestInput) (scope : MemoryScope String)
      (skipExtraction : Bool)
  | search (request : AtomicMemorySearchRequest) (scope : MemoryScope String)
  | searchFast (request : AtomicMemorySearchRequest) (scope : MemoryScope String)
  | expand (refs : List String) (scope : MemoryScope String)
  | list (scope : MemoryScope String) (options : AtomicMemoryListOptions)
  | get (id : String) (scope : MemoryScope String)
  | delete (id : String) (scope : MemoryScope String)
  | consolidate (userId : String) (execute : Bool)
  | decay (userId : String) (dryRun : Bool)
  | resetSource (userId sourceSite : String)
  | reconcile (userId : String)
  | reconcileAll
  | lessonsReport (userId pattern : String) (sources : Option (List String))
      (severity : Option LessonSeverity)
  | configHealth
  | updateConfig (updates : ConfigUpdates)
  | setTrust (userId agentId : String) (trustLevel : ℚ) (displayName : Option String)
  | resolveConflict (conflictId : String) (resolution : ConflictResolution)
  | autoResolveConflicts (userId : String)
  /-- The calls with the user in the query. -/
  | admin (call : AdminCall) (userId : String)

namespace HandleCall

/-- The request that the call sends, unless it is refused. -/
def request (h : Handle) (python : Python) (py : Pydantic) (bool : PyValue → Option Bool) :
    HandleCall → Option HttpRequest
  | ingestFull input scope => (h.ingestFull py input scope).toOption.map Call.request
  | ingestQuick input scope skipExtraction =>
    (h.ingestQuick py input scope skipExtraction).toOption.map Call.request
  | search request scope => some (h.search python py bool request scope).request
  | searchFast request scope => some (h.searchFast python py bool request scope).request
  | expand refs scope => some (h.expand python py refs scope).request
  | list scope options => (h.list python py scope (.options options)).toOption.map Call.request
  | get id scope => some (h.get python py id scope).request
  | delete id scope => some (h.delete id scope).request
  | consolidate userId execute => some (h.consolidate userId execute)
  | decay userId dryRun => some (h.decay userId dryRun)
  | resetSource userId sourceSite => some (h.resetSource userId sourceSite)
  | reconcile userId => some (h.reconcile userId)
  | reconcileAll => some h.reconcileAll
  | lessonsReport userId pattern sources severity =>
    some (h.lessonsReport userId pattern sources severity)
  | configHealth => some h.configHealth
  | updateConfig updates => some (h.updateConfig updates)
  | setTrust userId agentId trustLevel displayName =>
    some (h.setTrust userId agentId trustLevel displayName)
  | resolveConflict conflictId resolution => some (h.resolveConflict conflictId resolution)
  | autoResolveConflicts userId => some (h.autoResolveConflicts userId)
  | admin call userId => some (call.request h userId)

def method : HandleCall → String
  | list .. | get .. | configHealth => "GET"
  | delete .. => "DELETE"
  | updateConfig .. | setTrust .. | resolveConflict .. => "PUT"
  | admin call _ =>
    match call with
    | .lessonsDelete _ => "DELETE"
    | _ => "GET"
  | _ => "POST"

def fixed (names : List String) : List Piece := names.map fun name => .literal name.toList

def adminPieces : AdminCall → List Piece
  | .cap => fixed ["memories", "cap"]
  | .stats => fixed ["memories", "stats"]
  | .reconcileStatus => fixed ["memories", "reconcile", "status"]
  | .auditSummary => fixed ["memories", "audit", "summary"]
  | .auditRecent _ => fixed ["memories", "audit", "recent"]
  | .auditTrail memoryId =>
    [.literal "memories".toList, .argument memoryId.toList, .literal "audit".toList]
  | .lessonsList => fixed ["memories", "lessons"]
  | .lessonsStats => fixed ["memories", "lessons", "stats"]
  | .lessonsDelete lessonId => fixed ["memories", "lessons"] ++ [.argument lessonId.toList]
  | .getTrust _ => fixed ["agents", "trust"]
  | .conflicts => fixed ["agents", "conflicts"]

def pieces : HandleCall → List Piece
  | ingestFull .. => fixed ["memories", "ingest"]
  | ingestQuick .. => fixed ["memories", "ingest", "quick"]
  | search .. => fixed ["memories", "search"]
  | searchFast .. => fixed ["memories", "search", "fast"]
  | expand .. => fixed ["memories", "expand"]
  | list .. => fixed ["memories", "list"]
  | get id _ | delete id _ => [.literal "memories".toList, .argument id.toList]
  | consolidate .. => fixed ["memories", "consolidate"]
  | decay .. => fixed ["memories", "decay"]
  | resetSource .. => fixed ["memories", "reset-source"]
  | reconcile _ | reconcileAll => fixed ["memories", "reconcile"]
  | lessonsReport .. => fixed ["memories", "lessons", "report"]
  | configHealth => fixed ["memories", "health"]
  | updateConfig _ => fixed ["memories", "config"]
  | setTrust .. => fixed ["agents", "trust"]
  | resolveConflict conflictId _ =>
    fixed ["agents", "conflicts"] ++ [.argument conflictId.toList, .literal "resolve".toList]
  | autoResolveConflicts _ => fixed ["agents", "conflicts", "auto-resolve"]
  | admin call _ => adminPieces call

def fields : HandleCall → List (String × String)
  | list scope options => texts (listPairs scope options)
  | get _ scope | delete _ scope => texts (scopeToQueryPairs (stripReadFilters scope) false false)
  | admin call userId => ("user_id", userId) :: texts call.moreParams
  | _ => []

def body (python : Python) : HandleCall → Option Items
  | ingestFull input scope => some (ingestBody input scope false)
  | ingestQuick input scope skipExtraction => some (ingestBody input scope skipExtraction)
  | search request scope | searchFast request scope => some (searchBody python request scope)
  | expand refs scope =>
    some (scopeToFields scope false false ++ [("memory_ids", .list (refs.map .str))])
  | consolidate userId execute => some (Handle.consolidateBody userId execute)
  | decay userId dryRun => some (Handle.decayBody userId dryRun)
  | resetSource userId sourceSite =>
    some [("user_id", .str userId), ("source_site", .str sourceSite)]
  | reconcile userId => some [("user_id", .str userId)]
  | reconcileAll => some []
  | lessonsReport userId pattern sources severity =>
    some (Handle.lessonsReportBody userId pattern sources severity)
  | updateConfig updates => some (Handle.configBody updates)
  | setTrust userId agentId trustLevel displayName =>
    some (Handle.setTrustBody userId agentId trustLevel displayName)
  | resolveConflict _ resolution => some [("resolution", .str resolution.text)]
  | autoResolveConflicts userId => some [("user_id", .str userId)]
  | _ => none

/-- The call's ids are no dot segments, an id that is read is no other route's name, and a user
that is put into the query as it is holds nothing that a query is split at. -/
structure Clear (c : HandleCall) : Prop where
  noDots : ∀ text, .argument text ∈ c.pieces → ¬IsDots text
  unshared : ∀ id scope, c = get id scope → id ∉ PathCall.fixedReads
  plain : ∀ call userId, c = admin call userId → call.isRaw = true → PlainFormValue userId.toList

end HandleCall

structure Received where
  method : String
  path : List String
  fields : List (String × String)
  body : Option Items

def Handle.receive (h : Handle) (request : HttpRequest) : Option Received := do
  let path ← readPath (AtomicMemoryProvider.normalizeApiVersion h.apiVersion) request.path
  let fields ← readFields request.path
  some ⟨request.method, path, fields, request.json⟩

namespace HandleCall

def received (python : Python) (c : HandleCall) : Received :=
  ⟨c.method, c.pieces.map Piece.text, c.fields, c.body python⟩

structure MadeFrom (h : Handle) (python : Python) (c : HandleCall) (request : HttpRequest) :
    Prop where
  method : request.method = c.method
  body : request.json = c.body python
  target : ∃ tail, IsQuery tail c.fields ∧ request.path =
    h.route (absolutePath (c.pieces.map Piece.segment)) ++ tail

section

variable {h : Handle} {python : Python}

theorem madeFrom_fixed {c : HandleCall} {request : HttpRequest} {path : List Char}
    (hmethod : request.method = c.method) (hbody : request.json = c.body python)
    (hpath : request.path = h.route path) (hfields : c.fields = [])
    (hpieces : path = absolutePath (c.pieces.map Piece.segment)) : MadeFrom h python c request := by
  refine ⟨hmethod, hbody, [], ?_, ?_⟩
  · rw [hfields]
    exact isQuery_nil
  · rw [hpath, hpieces, List.append_nil]

theorem madeFrom_query {c : HandleCall} {request : HttpRequest} (path : List Char)
    {pairs : List (List Char × List Char)}
    (hmethod : request.method = c.method) (hbody : request.json = c.body python)
    (hpath : request.path = h.route (path ++ '?' :: urlencode pairs))
    (hfields : c.fields = texts pairs)
    (hpieces : path = absolutePath (c.pieces.map Piece.segment)) : MadeFrom h python c request := by
  refine ⟨hmethod, hbody, '?' :: urlencode pairs, ?_, ?_⟩
  · rw [hfields]
    exact isQuery_urlencode pairs
  · rw [hpath, hpieces]
    exact (List.append_assoc _ _ _).symm

theorem absolutePath_argument (names : List String) (id : List Char) (rest : List Piece) :
    absolutePath ((fixed names ++ .argument id :: rest).map Piece.segment) =
      absolutePath ((fixed names).map Piece.segment) ++ '/' ::
        (quote id ++ absolutePath (rest.map Piece.segment)) := by
  rw [List.map_append, absolutePath_append]
  rfl

theorem adminPieces_path (call : AdminCall) :
    call.path = absolutePath ((adminPieces call).map Piece.segment) := by
  cases call with
  | auditTrail memoryId =>
    refine Eq.trans ?_ (absolutePath_argument ["memories"] memoryId.toList _).symm
    exact List.append_assoc "/memories/".toList _ _
  | lessonsDelete lessonId =>
    refine Eq.trans ?_ (absolutePath_argument ["memories", "lessons"] lessonId.toList []).symm
    exact congrArg ("/memories/lessons/".toList ++ ·) (List.append_nil _).symm
  | _ => rfl

theorem madeFrom_admin (call : AdminCall) {userId : String}
    (hplain : call.isRaw = true → PlainFormValue userId.toList) :
    MadeFrom h python (.admin call userId) (call.request h userId) := by
  have hroute : h.route call.path =
      h.route (absolutePath ((HandleCall.admin call userId).pieces.map Piece.segment)) :=
    congrArg h.route (adminPieces_path call)
  refine ⟨by cases call <;> rfl, by cases call <;> rfl, ?_⟩
  rw [← hroute]
  cases hraw : call.isRaw with
  | true =>
    refine ⟨_, ?_, AdminCall.request_path_raw h hraw userId⟩
    have hfields : (HandleCall.admin call userId).fields = [("user_id", userId)] := by
      cases call <;> first | rfl | cases hraw
    rw [hfields]
    exact isQuery_raw (by decide) (by decide) (by decide) (by decide) (hplain hraw)
  | false =>
    refine ⟨_, .inr ⟨_, rfl, AdminCall.hash_not_mem_query call userId, ?_⟩,
      AdminCall.request_path_quoted h hraw userId⟩
    rw [AdminCall.formDecode_query]
    exact congrArg _ (queryOf_texts _).symm

theorem madeFrom {py : Pydantic} {bool : PyValue → Option Bool} {c : HandleCall}
    {r : HttpRequest} (hplain : ∀ call userId, c = admin call userId → call.isRaw = true →
      PlainFormValue userId.toList)
    (hr : c.request h python py bool = some r) : MadeFrom h python c r := by
  cases c with
  | admin call userId =>
    cases hr
    exact madeFrom_admin call (hplain call userId rfl)
  | ingestFull input scope | ingestQuick input scope skipExtraction =>
    obtain ⟨call, hcall, rfl⟩ := Option.map_eq_some_iff.mp hr
    obtain ⟨_, -, hcall⟩ := Except.bind_ok (PathCall.toOption_ok hcall)
    cases hcall
    exact madeFrom_fixed rfl rfl rfl rfl rfl
  | list scope options =>
    obtain ⟨call, hcall, rfl⟩ := Option.map_eq_some_iff.mp hr
    obtain ⟨_, hoptions, hcall⟩ := Except.bind_ok (PathCall.toOption_ok hcall)
    obtain ⟨_, -, hcall⟩ := Except.bind_ok hcall
    cases hoptions
    cases hcall
    exact madeFrom_query "/memories/list".toList rfl rfl rfl rfl rfl
  | get id scope | delete id scope =>
    cases hr
    refine madeFrom_query ("/memories/".toList ++ quote id.toList) rfl rfl ?_ rfl ?_
    · exact congrArg h.route (List.append_assoc _ _ _)
    · refine Eq.trans ?_ (absolutePath_argument ["memories"] id.toList []).symm
      exact congrArg ("/memories/".toList ++ ·) (List.append_nil _).symm
  | resolveConflict conflictId resolution =>
    cases hr
    refine madeFrom_fixed rfl rfl rfl rfl ?_
    refine Eq.trans ?_ (absolutePath_argument ["agents", "conflicts"] conflictId.toList _).symm
    exact List.append_assoc "/agents/conflicts/".toList _ _
  | _ =>
    cases hr
    exact madeFrom_fixed rfl rfl rfl rfl rfl

def Sound (piece : Piece) : Prop := piece.Plain ∧ piece.Readable

instance (piece : Piece) : Decidable (Sound piece) := inferInstanceAs (Decidable (_ ∧ _))

theorem sound_argument (text : List Char) : Sound (.argument text) := ⟨trivial, trivial⟩

theorem sound_fixed (names : List String) (h : ∀ name ∈ names, Sound (.literal name.toList))
    {rest : List Piece} (hrest : ∀ piece ∈ rest, Sound piece) :
    ∀ piece ∈ fixed names ++ rest, Sound piece := by
  intro piece hpiece
  rcases List.mem_append.mp hpiece with hpiece | hpiece
  · obtain ⟨name, hname, rfl⟩ := List.mem_map.mp hpiece
    exact h name hname
  · exact hrest piece hpiece

theorem sound_fixed_only {names : List String}
    (h : ∀ name ∈ names, Sound (.literal name.toList)) : ∀ piece ∈ fixed names, Sound piece := by
  have hsound := sound_fixed names h (List.forall_mem_nil Sound)
  rwa [List.append_nil] at hsound

theorem sound_pieces (c : HandleCall) : ∀ piece ∈ c.pieces, Sound piece := by
  have hresolve : Sound (.literal "resolve".toList) := by decide
  have haudit : Sound (.literal "audit".toList) := by decide
  cases c with
  | get id scope | delete id scope =>
    exact sound_fixed ["memories"] (by decide)
      (List.forall_mem_singleton.mpr (sound_argument _))
  | resolveConflict conflictId resolution =>
    exact sound_fixed _ (by decide) (List.forall_mem_cons.mpr
      ⟨sound_argument _, List.forall_mem_singleton.mpr hresolve⟩)
  | admin call userId =>
    cases call with
    | auditTrail memoryId =>
      exact sound_fixed ["memories"] (by decide) (List.forall_mem_cons.mpr
        ⟨sound_argument _, List.forall_mem_singleton.mpr haudit⟩)
    | lessonsDelete lessonId =>
      exact sound_fixed _ (by decide) (List.forall_mem_singleton.mpr (sound_argument _))
    | _ => exact sound_fixed_only (by decide)
  | _ => exact sound_fixed_only (by decide)

theorem pieces_ne_nil (c : HandleCall) : c.pieces ≠ [] := by
  cases c with
  | admin call userId => cases call <;> exact List.cons_ne_nil _ _
  | _ => exact List.cons_ne_nil _ _

theorem receive_eq {c : HandleCall} {r : HttpRequest}
    (hroot : PathText (AtomicMemoryProvider.normalizeApiVersion h.apiVersion))
    (hdots : ∀ text, .argument text ∈ c.pieces → ¬IsDots text) (hr : MadeFrom h python c r) :
    h.receive r = some (c.received python) := by
  obtain ⟨tail, htail, hpath⟩ := hr.target
  have hrooted := PathCall.rooted_normalizeApiVersion h.apiVersion
  have hplain : ∀ piece ∈ c.pieces, piece.Plain := fun piece hpiece =>
    (sound_pieces c piece hpiece).1
  have hread := readPath_target hrooted hroot (pieces_ne_nil c) hplain htail
    (fun piece hpiece => (sound_pieces c piece hpiece).2) hdots
  have hfields := readFields_target hroot hplain htail
  have htarget : r.path = AtomicMemoryProvider.normalizeApiVersion h.apiVersion ++
      absolutePath (c.pieces.map Piece.segment) ++ tail := hpath
  rw [← htarget] at hread hfields
  rw [Handle.receive, hread, hfields, hr.method, hr.body]
  rfl

end

end HandleCall

def bool? : PyValue → Option Bool
  | .bool b => some b
  | _ => none

def AgentScope.ofValue : PyValue → Option AgentScope
  | .str agentId => some (.one agentId)
  | v => (list? str? v).map .many

def RetrievalMode.ofValue : PyValue → Option RetrievalMode
  | .str "flat" => some .flat
  | .str "tiered" => some .tiered
  | .str "abstract-aware" => some .abstractAware
  | _ => none

def LessonSeverity.ofValue : PyValue → Option LessonSeverity
  | .str "low" => some .low
  | .str "medium" => some .medium
  | .str "high" => some .high
  | .str "critical" => some .critical
  | _ => none

def ConflictResolution.ofValue : PyValue → Option ConflictResolution
  | .str "resolved_new" => some .resolvedNew
  | .str "resolved_existing" => some .resolvedExisting
  | .str "resolved_both" => some .resolvedBoth
  | _ => none

def readScope (items : Items) : Option (MemoryScope String) := do
  let userId ← field str? items "user_id"
  let thread := field str? items "session_id"
  match field str? items "workspace_id", field str? items "agent_id" with
  | some workspaceId, some agentId =>
    some (.workspace userId workspaceId agentId thread
      (field AgentScope.ofValue items "agent_scope"))
  | _, _ => some (.user userId thread)

def readIngest (body : Items) : Option (AtomicMemoryIngestInput × MemoryScope String) := do
  let scope ← readScope body
  let conversation ← field str? body "conversation"
  let sourceSite ← field str? body "source_site"
  let sourceUrl := nonEmpty (field str? body "source_url")
  some (⟨conversation, sourceSite, sourceUrl, field Visibility.ofValue body "visibility",
    field dict? body "config_override"⟩, scope)

def readSearch (python : Python) (body : Items) :
    Option (AtomicMemorySearchRequest × MemoryScope String) := do
  let scope ← readScope body
  let query ← field str? body "query"
  some
    ({ query
       limit := field int? body "limit"
       threshold := field float? body "threshold"
       asOf := (field str? body "as_of").bind fun s => python.fromisoformat s.toList
       retrievalMode := field RetrievalMode.ofValue body "retrieval_mode"
       tokenBudget := field int? body "token_budget"
       namespaceScope := field str? body "namespace_scope"
       sourceSite := field str? body "source_site"
       skipRepair := field bool? body "skip_repair"
       configOverride := field dict? body "config_override" }, scope)

def readListOptions (fields : Items) : AtomicMemoryListOptions where
  limit := (field str? fields "limit").bind decimal?
  offset := (field str? fields "offset").bind decimal?
  sourceSite := field str? fields "source_site"
  episodeId := field str? fields "episode_id"

def readPost (python : Python) (body : Items) : List String → Option HandleCall
  | ["memories", "ingest"] => (readIngest body).map fun call => .ingestFull call.1 call.2
  | ["memories", "ingest", "quick"] => (readIngest body).map fun call =>
    .ingestQuick call.1 call.2 ((field bool? body "skip_extraction").getD false)
  | ["memories", "search"] => (readSearch python body).map fun call => .search call.1 call.2
  | ["memories", "search", "fast"] =>
    (readSearch python body).map fun call => .searchFast call.1 call.2
  | ["memories", "expand"] => do
    let scope ← readScope body
    let refs ← field (list? str?) body "memory_ids"
    some (.expand refs scope)
  | ["memories", "consolidate"] => (field str? body "user_id").map fun userId =>
    .consolidate userId ((field bool? body "execute").getD false)
  | ["memories", "decay"] => (field str? body "user_id").map fun userId =>
    .decay userId ((field bool? body "dry_run").getD true)
  | ["memories", "reset-source"] => do
    let userId ← field str? body "user_id"
    let sourceSite ← field str? body "source_site"
    some (.resetSource userId sourceSite)
  | ["memories", "reconcile"] =>
    some (((field str? body "user_id").map HandleCall.reconcile).getD .reconcileAll)
  | ["memories", "lessons", "report"] => do
    let userId ← field str? body "user_id"
    let pattern ← field str? body "pattern"
    some (.lessonsReport userId pattern (field (list? str?) body "source_memory_ids")
      (field LessonSeverity.ofValue body "severity"))
  | ["agents", "conflicts", "auto-resolve"] =>
    (field str? body "user_id").map .autoResolveConflicts
  | _ => none

def readPut (body : Items) : List String → Option HandleCall
  | ["memories", "config"] => some (.updateConfig
      ⟨field float? body "similarity_threshold", field float? body "audn_candidate_threshold",
        field float? body "clarification_conflict_threshold",
        field int? body "max_search_results"⟩)
  | ["agents", "trust"] => do
    let userId ← field str? body "user_id"
    let agentId ← field str? body "agent_id"
    let trustLevel ← field float? body "trust_level"
    some (.setTrust userId agentId trustLevel (field str? body "display_name"))
  | ["agents", "conflicts", conflictId, "resolve"] =>
    (field ConflictResolution.ofValue body "resolution").map (.resolveConflict conflictId)
  | _ => none

def readMemory (fields : Items) (name : String) : Option HandleCall :=
  let admin (call : AdminCall) := (field str? fields "user_id").map (HandleCall.admin call)
  if name = "list" then
    (readScope fields).map fun scope => .list scope (readListOptions fields)
  else if name = "cap" then admin .cap
  else if name = "stats" then admin .stats
  else if name = "lessons" then admin .lessonsList
  else if name = "health" then some .configHealth
  else (readScope fields).map (.get name)

def readGet (fields : Items) : List String → Option HandleCall
  | ["memories", name] => readMemory fields name
  | ["memories", name, route] =>
    let admin (call : AdminCall) := (field str? fields "user_id").map (HandleCall.admin call)
    if route = "audit" then admin (.auditTrail name)
    else if route = "status" then admin .reconcileStatus
    else if route = "summary" then admin .auditSummary
    else if route = "recent" then
      admin (.auditRecent ((field str? fields "limit").bind decimal?))
    else if route = "stats" then admin .lessonsStats
    else none
  | ["agents", "trust"] => do
    let userId ← field str? fields "user_id"
    let agentId ← field str? fields "agent_id"
    some (.admin (.getTrust agentId) userId)
  | ["agents", "conflicts"] => (field str? fields "user_id").map (.admin .conflicts)
  | _ => none

def readDelete (fields : Items) : List String → Option HandleCall
  | ["memories", id] => (readScope fields).map (.delete id)
  | ["memories", "lessons", lessonId] =>
    (field str? fields "user_id").map (.admin (.lessonsDelete lessonId))
  | _ => none

def queryItems (fields : List (String × String)) : Items :=
  fields.map fun pair => (pair.1, .str pair.2)

def readCall (python : Python) (received : Received) : Option HandleCall :=
  let fields := queryItems received.fields
  let body := received.body.getD []
  if received.method = "POST" then readPost python body received.path
  else if received.method = "PUT" then readPut body received.path
  else if received.method = "GET" then readGet fields received.path
  else readDelete fields received.path

def MemoryScope.told (includeAgentScope includeThread : Bool) :
    MemoryScope String → MemoryScope String
  | user userId thread => user userId (if includeThread then thread else none)
  | workspace userId workspaceId agentId thread agentScope =>
    workspace userId workspaceId agentId (if includeThread then thread else none)
      (if includeAgentScope then agentScope else none)

def AtomicMemoryIngestInput.told (input : AtomicMemoryIngestInput) : AtomicMemoryIngestInput :=
  { input with sourceUrl := nonEmpty input.sourceUrl }

/-- Only a repair that is to be skipped is told. -/
def AtomicMemorySearchRequest.told (request : AtomicMemorySearchRequest) :
    AtomicMemorySearchRequest :=
  { request with skipRepair := request.skipRepair.filter (· = true) }

def AtomicMemoryListOptions.told (options : AtomicMemoryListOptions) : AtomicMemoryListOptions :=
  { options with
    sourceSite := nonEmpty options.sourceSite, episodeId := nonEmpty options.episodeId }

namespace HandleCall

/-- What the request tells of a call: not the thread and the agent scope of a read, nor the agent
scope of an ingest or a list, and an empty list of sources as little as none. -/
def told : HandleCall → HandleCall
  | ingestFull input scope => ingestFull input.told (stripAgentScope scope)
  | ingestQuick input scope skipExtraction =>
    ingestQuick input.told (stripAgentScope scope) skipExtraction
  | search request scope => search request.told scope
  | searchFast request scope => searchFast request.told scope
  | expand refs scope => expand refs (stripReadFilters scope)
  | list scope options => list (stripAgentScope scope) options.told
  | get id scope => get id (stripReadFilters scope)
  | delete id scope => delete id (stripReadFilters scope)
  | lessonsReport userId pattern sources severity =>
    lessonsReport userId pattern (sources.filter (· ≠ [])) severity
  | call => call

end HandleCall

theorem map_str_mapM (texts : List String) : (texts.map PyValue.str).mapM str? = some texts := by
  have hread : (texts.map PyValue.str).mapM str? = some (texts.map id) :=
    mapM_map_some fun _ _ => rfl
  rwa [List.map_id] at hread

theorem visibility_ofValue (visibility : Visibility) :
    Visibility.ofValue (.str visibility.text) = some visibility := by
  cases visibility <;> rfl

theorem retrievalMode_ofValue (mode : RetrievalMode) :
    RetrievalMode.ofValue (.str mode.text) = some mode := by
  cases mode <;> rfl

theorem lessonSeverity_ofValue (severity : LessonSeverity) :
    LessonSeverity.ofValue (.str severity.text) = some severity := by
  cases severity <;> rfl

theorem agentScope_ofValue (agentScope : AgentScope) :
    AgentScope.ofValue agentScope.value = some agentScope := by
  cases agentScope with
  | one agentId => rfl
  | many agentIds =>
    show ((agentIds.map PyValue.str).mapM str?).map AgentScope.many = _
    rw [map_str_mapM]
    rfl

/-- The entries of `scope_to_fields`. -/
def scopeEntries (scope : MemoryScope String) (includeAgentScope includeThread : Bool) :
    List (String × Option PyValue) :=
  [("user_id", some (.str scope.userId)), ("workspace_id", scope.workspaceId.map .str),
    ("agent_id", scope.agentId.map .str),
    ("agent_scope", if includeAgentScope then scope.agentScope.map AgentScope.value else none),
    ("session_id", if includeThread then scope.thread.map .str else none)]

theorem scopeToFields_entries (scope : MemoryScope String)
    (includeAgentScope includeThread : Bool) :
    scopeToFields scope includeAgentScope includeThread =
      Items.ofEntries (scopeEntries scope includeAgentScope includeThread) := by
  cases scope with
  | user userId thread =>
    cases includeAgentScope <;> cases includeThread <;> cases thread <;> rfl
  | workspace userId workspaceId agentId thread agentScope =>
    cases agentScope with
    | none => cases includeAgentScope <;> cases includeThread <;> cases thread <;> rfl
    | some agentScope =>
      cases agentScope <;> cases includeAgentScope <;> cases includeThread <;> cases thread <;> rfl

section

variable {scope : MemoryScope String} {includeAgentScope includeThread : Bool}
  {rest : List (String × Option PyValue)}
  (hnodup : ((scopeEntries scope includeAgentScope includeThread ++ rest).map Prod.fst).Nodup)

include hnodup

theorem readScope_entries :
    readScope (Items.ofEntries (scopeEntries scope includeAgentScope includeThread ++ rest)) =
      some (scope.told includeAgentScope includeThread) := by
  unfold readScope
  simp only [field, Items.lookup_ofEntries hnodup]
  cases scope with
  | user userId thread => cases includeThread <;> cases thread <;> rfl
  | workspace userId workspaceId agentId thread agentScope =>
    cases includeAgentScope with
    | false => cases includeThread <;> cases thread <;> rfl
    | true =>
      cases agentScope with
      | none => cases includeThread <;> cases thread <;> rfl
      | some agentScope =>
        cases includeThread <;> cases thread <;>
          exact congrArg (fun read => some (MemoryScope.workspace _ _ _ _ read))
            (agentScope_ofValue agentScope)

end

def ingestEntries (input : AtomicMemoryIngestInput) (scope : MemoryScope String)
    (skipExtraction : Bool) : List (String × Option PyValue) :=
  [("conversation", some (.str input.conversation)), ("source_site", some (.str input.sourceSite)),
    ("source_url", some (.str (input.sourceUrl.getD ""))),
    ("visibility", (if scope.isWorkspace then input.visibility else none).map fun visibility =>
      .str visibility.text),
    ("config_override", input.configOverride.map .dict),
    ("skip_extraction", if skipExtraction then some (.bool true) else none)]

theorem ingestBody_eq (input : AtomicMemoryIngestInput) (scope : MemoryScope String)
    (skipExtraction : Bool) : ingestBody input scope skipExtraction =
      Items.ofEntries (scopeEntries scope false true ++ ingestEntries input scope skipExtraction) := by
  have hvisibility :
      (if scope.isWorkspace then
        optItem "visibility" input.visibility fun visibility => .str visibility.text
      else []) = Items.ofEntries [("visibility",
        (if scope.isWorkspace then input.visibility else none).map fun visibility =>
          .str visibility.text)] := by
    split
    · exact optItem_eq _ _ _
    · rfl
  rw [ingestBody, hvisibility, optItem_eq, entry_of_if, scopeToFields_entries]
  simp only [List.append_assoc, List.cons_append, List.nil_append, ← Items.ofEntries_append,
    Items.cons_ofEntries]
  rfl

theorem readIngest_eq {input : AtomicMemoryIngestInput} {scope : MemoryScope String}
    (hvisibility : assertScopeAllowsVisibility scope input.visibility = .ok ())
    (skipExtraction : Bool) :
    readIngest (ingestBody input scope skipExtraction) = some (input.told, stripAgentScope scope) ∧
      (field bool? (ingestBody input scope skipExtraction) "skip_extraction").getD false =
        skipExtraction := by
  have hnodup : ((scopeEntries scope false true ++
      ingestEntries input scope skipExtraction).map Prod.fst).Nodup := of_decide_eq_true rfl
  have hshown : (if scope.isWorkspace then input.visibility else none) = input.visibility := by
    cases hvalue : input.visibility with
    | none => exact ite_self none
    | some visibility =>
      cases scope with
      | user => rw [hvalue] at hvisibility; cases hvisibility
      | workspace => rfl
  have hscope : scope.told false true = stripAgentScope scope := by cases scope <;> rfl
  rw [ingestBody_eq]
  have hscopeRead := readScope_entries hnodup
  rw [hscope] at hscopeRead
  generalize hitems : Items.ofEntries (scopeEntries scope false true ++
    ingestEntries input scope skipExtraction) = items at hscopeRead ⊢
  have hconversation : field str? items "conversation" = some input.conversation := by
    rw [← hitems]
    exact field_given hnodup rfl rfl
  have hsite : field str? items "source_site" = some input.sourceSite := by
    rw [← hitems]
    exact field_given hnodup rfl rfl
  have hurl : field str? items "source_url" = some (input.sourceUrl.getD "") := by
    rw [← hitems]
    exact field_given hnodup rfl rfl
  have hvisible : field Visibility.ofValue items "visibility" = input.visibility := by
    rw [← hitems, ← hshown]
    exact field_entry hnodup rfl visibility_ofValue
  have hconfig : field dict? items "config_override" = input.configOverride := by
    rw [← hitems]
    exact field_entry hnodup rfl fun _ => rfl
  constructor
  · have htold : nonEmpty (some (input.sourceUrl.getD "")) = nonEmpty input.sourceUrl := by
      cases input.sourceUrl <;> rfl
    rw [readIngest, hscopeRead, hconversation, hsite, hurl, hvisible, hconfig, htold]
    rfl
  · have hskip : field bool? items "skip_extraction" =
        if skipExtraction then some true else none := by
      rw [← hitems]
      refine field_entry (f := .bool) hnodup ?_ fun _ => rfl
      cases skipExtraction <;> rfl
    rw [hskip]
    cases skipExtraction <;> rfl

def searchEntries (python : Python) (request : AtomicMemorySearchRequest) :
    List (String × Option PyValue) :=
  [("query", some (.str request.query)), ("limit", request.limit.map .int),
    ("threshold", request.threshold.map .float),
    ("as_of", request.asOf.map fun asOf => .str (python.isoformat asOf)),
    ("retrieval_mode", request.retrievalMode.map fun mode => .str mode.text),
    ("token_budget", request.tokenBudget.map .int),
    ("namespace_scope", request.namespaceScope.map .str),
    ("source_site", request.sourceSite.map .str),
    ("skip_repair", if request.skipRepair = some true then some (.bool true) else none),
    ("config_override", request.configOverride.map .dict)]

theorem searchBody_eq (python : Python) (request : AtomicMemorySearchRequest)
    (scope : MemoryScope String) : searchBody python request scope =
      Items.ofEntries (scopeEntries scope true true ++ searchEntries python request) := by
  rw [searchBody, scopeToFields_entries]
  simp only [optItem_eq, entry_of_if, List.append_assoc, List.cons_append, List.nil_append,
    ← Items.ofEntries_append, Items.cons_ofEntries]
  rfl

theorem readSearch_eq {python : Python} {request : AtomicMemorySearchRequest}
    (scope : MemoryScope String) (hasOf : ∀ d ∈ request.asOf,
      python.fromisoformat (python.isoformat d).toList = some d) :
    readSearch python (searchBody python request scope) = some (request.told, scope) := by
  have hnodup : ((scopeEntries scope true true ++
      searchEntries python request).map Prod.fst).Nodup := of_decide_eq_true rfl
  have hscope : scope.told true true = scope := by cases scope <;> rfl
  have hscopeRead := readScope_entries hnodup
  rw [hscope] at hscopeRead
  rw [searchBody_eq]
  generalize hitems : Items.ofEntries (scopeEntries scope true true ++
    searchEntries python request) = items at hscopeRead ⊢
  have hquery : field str? items "query" = some request.query := by
    rw [← hitems]
    exact field_given hnodup rfl rfl
  have hlimit : field int? items "limit" = request.limit := by
    rw [← hitems]
    exact field_entry hnodup rfl fun _ => rfl
  have hthreshold : field float? items "threshold" = request.threshold := by
    rw [← hitems]
    exact field_entry hnodup rfl fun _ => rfl
  have htime : (field str? items "as_of").bind (fun s => python.fromisoformat s.toList) =
      request.asOf := by
    have htext : field str? items "as_of" = request.asOf.map python.isoformat := by
      rw [← hitems]
      refine field_entry (f := .str) hnodup ?_ fun _ => rfl
      exact (Option.map_map ..).symm
    rw [htext, Option.bind_map]
    cases hvalue : request.asOf with
    | none => rfl
    | some d => exact hasOf d hvalue
  have hmode : field RetrievalMode.ofValue items "retrieval_mode" = request.retrievalMode := by
    rw [← hitems]
    exact field_entry hnodup rfl retrievalMode_ofValue
  have hbudget : field int? items "token_budget" = request.tokenBudget := by
    rw [← hitems]
    exact field_entry hnodup rfl fun _ => rfl
  have hspace : field str? items "namespace_scope" = request.namespaceScope := by
    rw [← hitems]
    exact field_entry hnodup rfl fun _ => rfl
  have hsite : field str? items "source_site" = request.sourceSite := by
    rw [← hitems]
    exact field_entry hnodup rfl fun _ => rfl
  have hskip : field bool? items "skip_repair" = request.skipRepair.filter (· = true) := by
    rw [← hitems]
    refine field_entry (f := PyValue.bool) hnodup ?_ fun _ => rfl
    show (if request.skipRepair = some true then some (PyValue.bool true) else none) = _
    cases request.skipRepair with
    | none => rfl
    | some skip => cases skip <;> rfl
  have hconfig : field dict? items "config_override" = request.configOverride := by
    rw [← hitems]
    exact field_entry hnodup rfl fun _ => rfl
  rw [readSearch, hscopeRead, hquery, hlimit, hthreshold, htime, hmode, hbudget, hspace, hsite,
    hskip, hconfig]
  rfl

theorem queryItems_append (xs ys : List (List Char × List Char)) :
    queryItems (texts (xs ++ ys)) = queryItems (texts xs) ++ queryItems (texts ys) := by
  rw [queryItems, texts, List.map_append, List.map_append]
  rfl

theorem queryItems_pair (name value : String) :
    queryItems (texts [(name.toList, value.toList)]) = [(name, .str value)] := by
  show [(String.ofList name.toList, PyValue.str (String.ofList value.toList))] = _
  rw [String.ofList_toList, String.ofList_toList]

theorem queryItems_option (name : String) (value : Option String) :
    queryItems (texts (value.map fun value => (name.toList, value.toList)).toList) =
      Items.ofEntries [(name, value.map .str)] := by
  cases value with
  | none => rfl
  | some value => exact queryItems_pair name value

theorem queryItems_scope (scope : MemoryScope String) (includeThread : Bool) :
    queryItems (texts (scopeToQueryPairs scope false includeThread)) =
      Items.ofEntries (scopeEntries scope false includeThread) := by
  have hthread (thread : Option String) :
      queryItems (texts (if includeThread then
        (thread.map fun value => ("session_id".toList, value.toList)).toList else [])) =
      Items.ofEntries [("session_id", if includeThread then thread.map .str else none)] := by
    cases includeThread with
    | false => rfl
    | true => exact queryItems_option "session_id" thread
  cases scope with
  | user userId thread =>
    have happend := queryItems_append [("user_id".toList, userId.toList)]
      (if includeThread then
        (thread.map fun value => ("session_id".toList, value.toList)).toList else [])
    rw [queryItems_pair, hthread] at happend
    exact happend
  | workspace userId workspaceId agentId thread agentScope =>
    have hids : queryItems (texts [("user_id".toList, userId.toList),
        ("workspace_id".toList, workspaceId.toList), ("agent_id".toList, agentId.toList)]) =
        [("user_id", .str userId), ("workspace_id", .str workspaceId),
          ("agent_id", .str agentId)] := by
      exact congrArg₂ List.append (queryItems_pair "user_id" userId)
        (congrArg₂ List.append (queryItems_pair "workspace_id" workspaceId)
          (queryItems_pair "agent_id" agentId))
    have happend := queryItems_append [("user_id".toList, userId.toList),
      ("workspace_id".toList, workspaceId.toList), ("agent_id".toList, agentId.toList)]
      (if includeThread then
        (thread.map fun value => ("session_id".toList, value.toList)).toList else [])
    rw [hids, hthread] at happend
    exact happend

def listEntries (options : AtomicMemoryListOptions) : List (String × Option PyValue) :=
  [("limit", options.limit.map fun limit => .str (toString limit)),
    ("offset", options.offset.map fun offset => .str (toString offset)),
    ("source_site", (nonEmpty options.sourceSite).map .str),
    ("episode_id", (nonEmpty options.episodeId).map .str)]

theorem queryItems_list (scope : MemoryScope String) (options : AtomicMemoryListOptions) :
    queryItems (texts (listPairs scope options)) =
      Items.ofEntries (scopeEntries scope false true ++ listEntries options) := by
  have hnumber (name : String) (n : Option ℤ) :
      queryItems (texts (n.map fun n => (name.toList, (toString n).toList)).toList) =
        Items.ofEntries [(name, n.map fun n => .str (toString n))] := by
    cases n with
    | none => rfl
    | some n => exact queryItems_pair name (toString n)
  rw [listPairs]
  simp only [queryItems_append, queryItems_scope, hnumber, queryItems_option,
    ← Items.ofEntries_append, List.append_assoc, List.cons_append, List.nil_append]
  rfl

theorem readList_eq (scope : MemoryScope String) (options : AtomicMemoryListOptions) :
    readScope (queryItems (texts (listPairs scope options))) = some (stripAgentScope scope) ∧
      readListOptions (queryItems (texts (listPairs scope options))) = options.told := by
  have hnodup : ((scopeEntries scope false true ++ listEntries options).map Prod.fst).Nodup :=
    of_decide_eq_true rfl
  have hscope : scope.told false true = stripAgentScope scope := by cases scope <;> rfl
  have hscopeRead := readScope_entries hnodup
  rw [hscope] at hscopeRead
  rw [queryItems_list]
  refine ⟨hscopeRead, ?_⟩
  generalize hitems : Items.ofEntries (scopeEntries scope false true ++ listEntries options) =
    items
  have hnumber {n : Option ℤ} : (n.map fun n => toString n).bind decimal? = n := by
    cases n with
    | none => rfl
    | some n => exact decimal?_toString n
  have hlimit : field str? items "limit" = options.limit.map fun n => toString n := by
    rw [← hitems]
    refine field_entry (f := PyValue.str) hnodup ?_ fun _ => rfl
    exact (Option.map_map ..).symm
  have hoffset : field str? items "offset" = options.offset.map fun n => toString n := by
    rw [← hitems]
    refine field_entry (f := PyValue.str) hnodup ?_ fun _ => rfl
    exact (Option.map_map ..).symm
  have hsite : field str? items "source_site" = nonEmpty options.sourceSite := by
    rw [← hitems]
    exact field_entry hnodup rfl fun _ => rfl
  have hepisode : field str? items "episode_id" = nonEmpty options.episodeId := by
    rw [← hitems]
    exact field_entry hnodup rfl fun _ => rfl
  rw [readListOptions, hlimit, hoffset, hnumber, hnumber, hsite, hepisode]
  rfl

theorem readExpand_eq (refs : List String) (scope : MemoryScope String) :
    readScope (scopeToFields scope false false ++ [("memory_ids", .list (refs.map .str))]) =
        some (stripReadFilters scope) ∧
      field (list? str?)
        (scopeToFields scope false false ++ [("memory_ids", .list (refs.map .str))]) "memory_ids" =
        some refs := by
  have hentries : scopeToFields scope false false ++ [("memory_ids", .list (refs.map .str))] =
      Items.ofEntries (scopeEntries scope false false ++
        [("memory_ids", some (.list (refs.map .str)))]) := by
    rw [scopeToFields_entries, Items.ofEntries_append]
    rfl
  have hnodup : ((scopeEntries scope false false ++
      [("memory_ids", some (PyValue.list (refs.map .str)))]).map Prod.fst).Nodup :=
    of_decide_eq_true rfl
  have hscope : scope.told false false = stripReadFilters scope := by cases scope <;> rfl
  have hscopeRead := readScope_entries hnodup
  rw [hscope] at hscopeRead
  rw [hentries]
  refine ⟨hscopeRead, ?_⟩
  apply field_given hnodup rfl
  exact map_str_mapM refs

def lessonsReportEntries (userId pattern : String) (sources : Option (List String))
    (severity : Option LessonSeverity) : List (String × Option PyValue) :=
  [("user_id", some (.str userId)), ("pattern", some (.str pattern)),
    ("source_memory_ids", (sources.filter (· ≠ [])).map fun ids => .list (ids.map .str)),
    ("severity", severity.map fun severity => .str severity.text)]

theorem readLessonsReport_eq (python : Python) (userId pattern : String)
    (sources : Option (List String)) (severity : Option LessonSeverity) :
    readPost python (Handle.lessonsReportBody userId pattern sources severity)
        ["memories", "lessons", "report"] =
      some (.lessonsReport userId pattern (sources.filter (· ≠ [])) severity) := by
  have hnodup : ((lessonsReportEntries userId pattern sources severity).map Prod.fst).Nodup :=
    of_decide_eq_true rfl
  have hbody : Handle.lessonsReportBody userId pattern sources severity =
      Items.ofEntries (lessonsReportEntries userId pattern sources severity) := by
    rw [Handle.lessonsReportBody]
    simp only [optItem_eq, List.cons_append, List.nil_append, ← Items.ofEntries_append,
      Items.cons_ofEntries]
    rfl
  rw [hbody]
  generalize hitems :
    Items.ofEntries (lessonsReportEntries userId pattern sources severity) = items
  have huser : field str? items "user_id" = some userId := by
    rw [← hitems]
    exact field_given hnodup rfl rfl
  have hpattern : field str? items "pattern" = some pattern := by
    rw [← hitems]
    exact field_given hnodup rfl rfl
  have hsources : field (list? str?) items "source_memory_ids" = sources.filter (· ≠ []) := by
    rw [← hitems]
    exact field_entry hnodup rfl map_str_mapM
  have hseverity : field LessonSeverity.ofValue items "severity" = severity := by
    rw [← hitems]
    exact field_entry hnodup rfl lessonSeverity_ofValue
  show (do
    let userId ← field str? items "user_id"
    let pattern ← field str? items "pattern"
    some (HandleCall.lessonsReport userId pattern (field (list? str?) items "source_memory_ids")
      (field LessonSeverity.ofValue items "severity"))) = _
  rw [huser, hpattern, hsources, hseverity]
  rfl

def configEntries (updates : ConfigUpdates) : List (String × Option PyValue) :=
  [("similarity_threshold", updates.similarityThreshold.map .float),
    ("audn_candidate_threshold", updates.audnCandidateThreshold.map .float),
    ("clarification_conflict_threshold", updates.clarificationConflictThreshold.map .float),
    ("max_search_results", updates.maxSearchResults.map .int)]

theorem readConfig_eq (updates : ConfigUpdates) :
    readPut (Handle.configBody updates) ["memories", "config"] = some (.updateConfig updates) := by
  have hnodup : ((configEntries updates).map Prod.fst).Nodup := of_decide_eq_true rfl
  have hbody : Handle.configBody updates = Items.ofEntries (configEntries updates) := by
    rw [Handle.configBody]
    simp only [optItem_eq, List.cons_append, List.nil_append, ← Items.ofEntries_append]
    rfl
  rw [hbody]
  generalize hitems : Items.ofEntries (configEntries updates) = items
  have hsimilarity : field float? items "similarity_threshold" = updates.similarityThreshold := by
    rw [← hitems]
    exact field_entry hnodup rfl fun _ => rfl
  have hcandidate : field float? items "audn_candidate_threshold" =
      updates.audnCandidateThreshold := by
    rw [← hitems]
    exact field_entry hnodup rfl fun _ => rfl
  have hconflict : field float? items "clarification_conflict_threshold" =
      updates.clarificationConflictThreshold := by
    rw [← hitems]
    exact field_entry hnodup rfl fun _ => rfl
  have hresults : field int? items "max_search_results" = updates.maxSearchResults := by
    rw [← hitems]
    exact field_entry hnodup rfl fun _ => rfl
  show some (HandleCall.updateConfig ⟨field float? items "similarity_threshold",
    field float? items "audn_candidate_threshold",
    field float? items "clarification_conflict_threshold",
    field int? items "max_search_results"⟩) = _
  rw [hsimilarity, hcandidate, hconflict, hresults]

theorem readSetTrust_eq (userId agentId : String) (trustLevel : ℚ) (displayName : Option String) :
    readPut (Handle.setTrustBody userId agentId trustLevel displayName) ["agents", "trust"] =
      some (.setTrust userId agentId trustLevel displayName) := by
  cases displayName <;> rfl

namespace HandleCall

theorem text_fixed (names : List String) (rest : List Piece) :
    (fixed names ++ rest).map Piece.text = names ++ rest.map Piece.text := by
  rw [fixed, List.map_append, List.map_map]
  congr 1
  exact (List.map_congr_left fun name _ => String.ofList_toList).trans (List.map_id names)

theorem text_fixed_only (names : List String) : (fixed names).map Piece.text = names := by
  have htext := text_fixed names []
  rwa [List.append_nil, List.map_nil, List.append_nil] at htext

def asOf : HandleCall → Option DateTime
  | search request _ | searchFast request _ => request.asOf
  | _ => none

section

variable {python : Python} {c : HandleCall}

theorem readCall_post {path : List String} {body : Items} (hmethod : c.method = "POST")
    (hpath : c.pieces.map Piece.text = path) (hbody : c.body python = some body) :
    readCall python (c.received python) = readPost python body path := by
  unfold readCall received
  simp only [hmethod, hpath, hbody]
  rfl

theorem readCall_put {path : List String} {body : Items} (hmethod : c.method = "PUT")
    (hpath : c.pieces.map Piece.text = path) (hbody : c.body python = some body) :
    readCall python (c.received python) = readPut body path := by
  unfold readCall received
  simp only [hmethod, hpath, hbody]
  rfl

theorem readCall_get {path : List String} (hmethod : c.method = "GET")
    (hpath : c.pieces.map Piece.text = path) :
    readCall python (c.received python) = readGet (queryItems c.fields) path := by
  unfold readCall received
  simp only [hmethod, hpath]
  rfl

theorem readCall_delete {path : List String} (hmethod : c.method = "DELETE")
    (hpath : c.pieces.map Piece.text = path) :
    readCall python (c.received python) = readDelete (queryItems c.fields) path := by
  unfold readCall received
  simp only [hmethod, hpath]
  rfl

theorem readCall_admin (call : AdminCall) (userId : String) :
    readCall python ((admin call userId).received python) = some (admin call userId) := by
  cases call with
  | cap | stats | reconcileStatus | auditSummary | lessonsList | lessonsStats | conflicts =>
    refine Eq.trans (readCall_get rfl (text_fixed_only _)) ?_
    rfl
  | auditRecent limit =>
    refine Eq.trans (readCall_get rfl (text_fixed_only _)) ?_
    cases limit with
    | none => rfl
    | some limit =>
      have hlimit : queryItems (admin (.auditRecent (some limit)) userId).fields =
          [("user_id", .str userId), ("limit", .str (toString limit))] :=
        congrArg (("user_id", PyValue.str userId) :: ·) (queryItems_pair "limit" (toString limit))
      rw [hlimit]
      exact congrArg (fun read => some (admin (.auditRecent read) userId))
        (decimal?_toString limit)
  | getTrust agentId =>
    refine Eq.trans (readCall_get rfl (text_fixed_only _)) ?_
    have hagent : queryItems (admin (.getTrust agentId) userId).fields =
        [("user_id", .str userId), ("agent_id", .str agentId)] :=
      congrArg (("user_id", PyValue.str userId) :: ·) (queryItems_pair "agent_id" agentId)
    rw [hagent]
    rfl
  | auditTrail memoryId =>
    refine Eq.trans (readCall_get rfl (text_fixed ["memories"] _)) ?_
    exact congrArg (fun read => some (admin (.auditTrail read) userId)) String.ofList_toList
  | lessonsDelete lessonId =>
    refine Eq.trans (readCall_delete rfl (text_fixed ["memories", "lessons"] _)) ?_
    exact congrArg (fun read => some (admin (.lessonsDelete read) userId)) String.ofList_toList

theorem readScope_read (scope : MemoryScope String) :
    readScope (queryItems (texts (scopeToQueryPairs (stripReadFilters scope) false false))) =
      some (stripReadFilters scope) := by
  have hnodup : ((scopeEntries (stripReadFilters scope) false false ++ []).map Prod.fst).Nodup :=
    of_decide_eq_true rfl
  have hscope : (stripReadFilters scope).told false false = stripReadFilters scope := by
    cases scope <;> rfl
  have hread := readScope_entries hnodup
  rw [List.append_nil, hscope] at hread
  rw [queryItems_scope, hread]

theorem readCall_received {h : Handle} {py : Pydantic} {bool : PyValue → Option Bool}
    {r : HttpRequest} (hr : c.request h python py bool = some r)
    (hunshared : ∀ id scope, c = get id scope → id ∉ PathCall.fixedReads)
    (hasOf : ∀ d ∈ c.asOf, python.fromisoformat (python.isoformat d).toList = some d) :
    readCall python (c.received python) = some c.told := by
  cases c with
  | ingestFull input scope =>
    obtain ⟨call, hcall, -⟩ := Option.map_eq_some_iff.mp hr
    obtain ⟨_, hallowed, -⟩ := Except.bind_ok (PathCall.toOption_ok hcall)
    refine Eq.trans (readCall_post rfl (text_fixed_only _) rfl) ?_
    show (readIngest (ingestBody input scope false)).map _ = _
    rw [(readIngest_eq hallowed false).1]
    rfl
  | ingestQuick input scope skipExtraction =>
    obtain ⟨call, hcall, -⟩ := Option.map_eq_some_iff.mp hr
    obtain ⟨_, hallowed, -⟩ := Except.bind_ok (PathCall.toOption_ok hcall)
    obtain ⟨hread, hskip⟩ := readIngest_eq hallowed skipExtraction
    refine Eq.trans (readCall_post rfl (text_fixed_only _) rfl) ?_
    show (readIngest (ingestBody input scope skipExtraction)).map (fun call => ingestQuick
      call.1 call.2 ((field bool? (ingestBody input scope skipExtraction)
        "skip_extraction").getD false)) = _
    rw [hread, hskip]
    rfl
  | search request scope =>
    refine Eq.trans (readCall_post rfl (text_fixed_only _) rfl) ?_
    show (readSearch python (searchBody python request scope)).map _ = _
    rw [readSearch_eq scope hasOf]
    rfl
  | searchFast request scope =>
    refine Eq.trans (readCall_post rfl (text_fixed_only _) rfl) ?_
    show (readSearch python (searchBody python request scope)).map _ = _
    rw [readSearch_eq scope hasOf]
    rfl
  | expand refs scope =>
    refine Eq.trans (readCall_post rfl (text_fixed_only _) rfl) ?_
    obtain ⟨hscope, hrefs⟩ := readExpand_eq refs scope
    generalize scopeToFields scope false false ++ [("memory_ids", .list (refs.map .str))] = body
      at hscope hrefs ⊢
    show (do
      let scope ← readScope body
      let refs ← field (list? str?) body "memory_ids"
      some (HandleCall.expand refs scope)) = _
    rw [hscope, hrefs]
    rfl
  | list scope options =>
    refine Eq.trans (readCall_get rfl (text_fixed_only _)) ?_
    obtain ⟨hscope, hoptions⟩ := readList_eq scope options
    have hfields : (list scope options).fields = texts (listPairs scope options) := rfl
    rw [hfields]
    generalize queryItems (texts (listPairs scope options)) = items at hscope hoptions ⊢
    show (readScope items).map (fun scope => HandleCall.list scope (readListOptions items)) = _
    rw [hscope, hoptions]
    rfl
  | get id scope =>
    have hid := hunshared id scope rfl
    have hfields : (get id scope).fields =
        texts (scopeToQueryPairs (stripReadFilters scope) false false) := rfl
    have hpath : (get id scope).pieces.map Piece.text = ["memories", id] :=
      (text_fixed ["memories"] _).trans (congrArg (["memories", ·]) String.ofList_toList)
    simp only [PathCall.fixedReads, List.mem_cons, List.not_mem_nil, or_false, not_or] at hid
    obtain ⟨hlist, hcap, hstats, hlessons, hhealth⟩ := hid
    refine Eq.trans (readCall_get rfl hpath) ?_
    rw [hfields]
    show readMemory _ id = _
    unfold readMemory
    rw [if_neg hlist, if_neg hcap, if_neg hstats, if_neg hlessons, if_neg hhealth, readScope_read]
    rfl
  | delete id scope =>
    have hfields : (delete id scope).fields =
        texts (scopeToQueryPairs (stripReadFilters scope) false false) := rfl
    have hpath : (delete id scope).pieces.map Piece.text = ["memories", id] :=
      (text_fixed ["memories"] _).trans (congrArg (["memories", ·]) String.ofList_toList)
    refine Eq.trans (readCall_delete rfl hpath) ?_
    rw [hfields]
    show (readScope _).map _ = _
    rw [readScope_read]
    rfl
  | consolidate userId execute =>
    refine Eq.trans (readCall_post rfl (text_fixed_only _) rfl) ?_
    cases execute <;> rfl
  | decay userId dryRun =>
    refine Eq.trans (readCall_post rfl (text_fixed_only _) rfl) ?_
    cases dryRun <;> rfl
  | resetSource | reconcile | reconcileAll | autoResolveConflicts =>
    refine Eq.trans (readCall_post rfl (text_fixed_only _) rfl) ?_
    rfl
  | lessonsReport userId pattern sources severity =>
    refine Eq.trans (readCall_post rfl (text_fixed_only _) rfl) ?_
    exact readLessonsReport_eq python userId pattern sources severity
  | configHealth =>
    refine Eq.trans (readCall_get rfl (text_fixed_only _)) ?_
    rfl
  | updateConfig updates =>
    refine Eq.trans (readCall_put rfl (text_fixed_only _) rfl) ?_
    exact readConfig_eq updates
  | setTrust userId agentId trustLevel displayName =>
    refine Eq.trans (readCall_put rfl (text_fixed_only _) rfl) ?_
    exact readSetTrust_eq userId agentId trustLevel displayName
  | resolveConflict conflictId resolution =>
    have hpath : (resolveConflict conflictId resolution).pieces.map Piece.text =
        ["agents", "conflicts", conflictId, "resolve"] :=
      (text_fixed ["agents", "conflicts"] _).trans
        (congrArg (["agents", "conflicts", ·, "resolve"]) String.ofList_toList)
    refine Eq.trans (readCall_put rfl hpath rfl) ?_
    cases resolution <;> rfl
  | admin call userId => exact readCall_admin call userId

end

/-- The service reads, in what a call sends, the call itself: its route, its scope and its
arguments, but for what the route does not tell. -/
theorem request_read {h : Handle} {python : Python} {py : Pydantic} {bool : PyValue → Option Bool}
    {c : HandleCall} {r : HttpRequest}
    (hroot : PathText (AtomicMemoryProvider.normalizeApiVersion h.apiVersion)) (hclear : c.Clear)
    (hasOf : ∀ d ∈ c.asOf, python.fromisoformat (python.isoformat d).toList = some d)
    (hr : c.request h python py bool = some r) :
    (h.receive r).bind (readCall python) = some c.told := by
  rw [receive_eq hroot hclear.noDots (madeFrom hclear.plain hr)]
  exact readCall_received hr hclear.unshared hasOf

/-- A repair that is not to be skipped is not told. -/
theorem request_read_search :
    ∃ r, HandleCall.request ⟨"v1".toList⟩ Python.reference Pydantic.reference (fun _ => none)
        (.searchFast ⟨"q", some 5, none, some (Python.reference.clock 0), some .tiered, none, none,
          none, some false, none⟩ (.workspace "u" "w" "a" (some "t") (some (.many ["a", "b"])))) =
        some r ∧
      ((Handle.receive ⟨"v1".toList⟩ r).bind (readCall Python.reference)) =
        some (.searchFast ⟨"q", some 5, none, some (Python.reference.clock 0), some .tiered, none,
          none, none, none, none⟩ (.workspace "u" "w" "a" (some "t") (some (.many ["a", "b"])))) := by
  refine ⟨_, rfl, ?_⟩
  refine request_read (c := .searchFast _ _) (by decide) ⟨?_, ?_, ?_⟩ ?_ rfl
  · intro text htext
    obtain ⟨name, -, hname⟩ := List.mem_map.mp htext
    cases hname
  · intro id scope h
    cases h
  · intro call userId h
    cases h
  · intro d hd
    cases hd
    decide +kernel

end HandleCall

end AtomicMemory.AtomicMemoryHandle
