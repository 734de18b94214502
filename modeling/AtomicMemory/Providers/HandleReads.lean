import AtomicMemory.Providers.AtomicMemoryHandle

-- `search`, `search_fast`, `expand` and `list` of `AtomicMemoryHandle`, with the pages they return.

open Calendar
open PercentEncoding
open PyValue hiding none

namespace AtomicMemory.AtomicMemoryHandle

inductive RetrievalMode
  | flat
  | tiered
  | abstractAware
  deriving DecidableEq

def RetrievalMode.text : RetrievalMode → String
  | flat => "flat"
  | tiered => "tiered"
  | abstractAware => "abstract-aware"

structure AtomicMemorySearchRequest where
  query : String
  limit : Option ℤ
  threshold : Option ℚ
  asOf : Option DateTime
  retrievalMode : Option RetrievalMode
  tokenBudget : Option ℤ
  namespaceScope : Option String
  sourceSite : Option String
  skipRepair : Option Bool
  configOverride : Option Items

structure AtomicMemoryListOptions where
  limit : Option ℤ
  offset : Option ℤ
  sourceSite : Option String
  episodeId : Option String

/-- An optional field with an alias. Under both names it is one key too many. -/
def aliasField {α : Type} (f : PyValue → Option α) (items : Items) (aliasKey name : String) :
    Option (Option α) :=
  if (items.lookup aliasKey).isNone then optField f items name
  else if (items.lookup name).isNone then optField f items aliasKey else none

/-- The fields of `AtomicMemoryListOptions`, as Pydantic reads them. -/
def AtomicMemoryListOptions.ofItems (py : Pydantic) : Items → Option AtomicMemoryListOptions :=
  forbidExtra ["limit", "offset", "sourceSite", "source_site", "episodeId", "episode_id"]
    fun items => do
      let limit ← optField py.int items "limit"
      let offset ← optField py.int items "offset"
      let sourceSite ← aliasField str? items "sourceSite" "source_site"
      let episodeId ← aliasField str? items "episodeId" "episode_id"
      some ⟨limit, offset, sourceSite, episodeId⟩

/-- The `options` of `list`. -/
inductive ListOptionsArg
  | absent
  | dict (items : Items)
  | options (options : AtomicMemoryListOptions)

/-- What `list` raises before it sends anything: Pydantic's error, or the SDK's own
`ValidationError` with its context. -/
inductive ListRefusal
  | invalidOptions (e : PyError)
  | validationError (message scopeKind : String)

/-- `_coerce_list_options`. -/
def coerceListOptions (py : Pydantic) : ListOptionsArg → Except ListRefusal AtomicMemoryListOptions
  | .absent => .ok ⟨none, none, none, none⟩
  | .dict items =>
    (modelValidate "AtomicMemoryListOptions" (AtomicMemoryListOptions.ofItems py items)).mapError
      .invalidOptions
  | .options options => .ok options

/-- `_assert_list_options_scope_compat`. -/
def assertListOptionsScopeCompat (scope : MemoryScope String) (options : AtomicMemoryListOptions) :
    Except ListRefusal Unit :=
  if !scope.isWorkspace then .ok ()
  else if options.sourceSite.isSome then
    .error (.validationError ("`source_site` is only valid on user scope; core ignores it on " ++
      "workspace list queries. Omit the option or use a user-scope list.") "workspace")
  else if options.episodeId.isSome then
    .error (.validationError ("`episode_id` is only valid on user scope; core ignores it on " ++
      "workspace list queries but still validates it as a UUID first. Omit the option or use a " ++
      "user-scope list.") "workspace")
  else .ok ()

/-- `strip_agent_scope`. -/
def stripAgentScope (scope : MemoryScope String) : MemoryScope String :=
  match scope with
  | .user userId thread => .user userId thread
  | .workspace userId workspaceId agentId thread _ =>
    .workspace userId workspaceId agentId thread none

structure AtomicMemorySearchResult where
  memory : AtomicMemoryMemory
  score : ℚ
  similarity : Option ℚ
  rankingScore : Option ℚ
  relevance : Option ℚ
  importance : Option ℚ

structure TierAssignment where
  memoryId : String
  tier : String
  estimatedTokens : ℤ

structure LessonCheck where
  safe : Bool
  warnings : List PyValue
  highestSeverity : String
  matchedCount : ℤ

structure ConsensusInfo where
  originalCount : ℤ
  filteredCount : ℤ
  removedCount : ℤ
  removedMemoryIds : List String

structure ObservabilityInfo where
  retrieval : PyValue
  packaging : PyValue
  assembly : PyValue

structure AtomicMemorySearchResultPage where
  count : ℤ
  retrievalMode : String
  scope : MemoryScope String
  results : List AtomicMemorySearchResult
  injectionText : Option String
  citations : Option (List String)
  tierAssignments : Option (List TierAssignment)
  expandIds : Option (List String)
  estimatedContextTokens : Option ℤ
  lessonCheck : Option LessonCheck
  consensus : Option ConsensusInfo
  observability : Option ObservabilityInfo

structure AtomicMemoryListResultPage where
  memories : List AtomicMemoryMemory
  count : ℤ
  cursor : Option String

def TierAssignment.ofValue (py : Pydantic) (v : PyValue) : Option TierAssignment := do
  let items ← dict? v
  let memoryId ← field str? items "memory_id"
  let tier ← field str? items "tier"
  let estimatedTokens ← field py.int items "estimated_tokens"
  some ⟨memoryId, tier, estimatedTokens⟩

/-- `bool` is Pydantic's coercion. -/
def LessonCheck.ofValue (py : Pydantic) (bool : PyValue → Option Bool) (v : PyValue) :
    Option LessonCheck := do
  let items ← dict? v
  let safe ← field bool items "safe"
  let warnings ← defaultField (list? some) [] items "warnings"
  let highestSeverity ← field str? items "highest_severity"
  let matchedCount ← field py.int items "matched_count"
  some ⟨safe, warnings, highestSeverity, matchedCount⟩

def ConsensusInfo.ofValue (py : Pydantic) (v : PyValue) : Option ConsensusInfo := do
  let items ← dict? v
  let originalCount ← field py.int items "original_count"
  let filteredCount ← field py.int items "filtered_count"
  let removedCount ← field py.int items "removed_count"
  let removedMemoryIds ← defaultField (list? str?) [] items "removed_memory_ids"
  some ⟨originalCount, filteredCount, removedCount, removedMemoryIds⟩

def ObservabilityInfo.ofValue (v : PyValue) : Option ObservabilityInfo :=
  (dict? v).map fun items =>
    ⟨Items.get items "retrieval", Items.get items "packaging", Items.get items "assembly"⟩

section

variable (python : Python) (py : Pydantic)

/-- `_to_atomic_memory`, the `n`th of its call. -/
def nthAtomicMemory (scope : MemoryScope String) (n : ℕ) (raw : PyValue) :
    Except PyError AtomicMemoryMemory :=
  toAtomicMemory { python with clock := fun k => python.clock (n + k) } py raw scope

/-- `_to_atomic_search_result`. -/
def toAtomicSearchResult (scope : MemoryScope String) (n : ℕ) (raw : PyValue) :
    Except PyError AtomicMemorySearchResult :=
  match raw with
  | .dict items => do
    let similarity := AtomicMemoryProvider.coalesce
      [Items.get items "semantic_similarity", Items.get items "similarity"]
    let rankingScore := AtomicMemoryProvider.coalesce
      [Items.get items "ranking_score", Items.get items "score"]
    let score := AtomicMemoryProvider.coalesce [rankingScore, similarity, .float 0]
    let memory ← nthAtomicMemory python py scope n raw
    modelValidate "AtomicMemorySearchResult" do
      let score ← py.float score
      let similarity ← nullable py.float similarity
      let rankingScore ← nullable py.float rankingScore
      let relevance ← optField py.float items "relevance"
      let importance ← optField py.float items "importance"
      some ⟨memory, score, similarity, rankingScore, relevance, importance⟩
  | _ => .error .attributeError

/-- `_map_search_response`. -/
def mapSearchResponse (bool : PyValue → Option Bool) (raw : PyValue)
    (scope : MemoryScope String) : Except PyError AtomicMemorySearchResultPage := do
  let memories ← getD raw "memories" .none
  let rows ← iterate (if memories.truthy then memories else .list [])
  let count ← getD raw "count" (.int rows.length)
  let retrievalMode ← getD raw "retrieval_mode" .none
  let results ← comprehension (toAtomicSearchResult python py scope) 0 rows
  let items := (dict? raw).getD []
  modelValidate "AtomicMemorySearchResultPage" do
    let count ← py.int count
    let retrievalMode ← str? (if retrievalMode.truthy then retrievalMode else .str "flat")
    let injectionText ← optField str? items "injection_text"
    let citations ← optField (list? str?) items "citations"
    let tierAssignments ← optField (list? (TierAssignment.ofValue py)) items "tier_assignments"
    let expandIds ← optField (list? str?) items "expand_ids"
    let estimatedContextTokens ← optField py.int items "estimated_context_tokens"
    let lessonCheck ← optField (LessonCheck.ofValue py bool) items "lesson_check"
    let consensus ← optField (ConsensusInfo.ofValue py) items "consensus"
    let observability ← optField ObservabilityInfo.ofValue items "observability"
    some ⟨count, retrievalMode, scope, results, injectionText, citations, tierAssignments,
      expandIds, estimatedContextTokens, lessonCheck, consensus, observability⟩

end

/-- The body of `_post_search`. -/
def searchBody (python : Python) (request : AtomicMemorySearchRequest)
    (scope : MemoryScope String) : Items :=
  scopeToFields scope true true ++ [("query", .str request.query)] ++
    optItem "limit" request.limit .int ++ optItem "threshold" request.threshold .float ++
    optItem "as_of" request.asOf (fun asOf => .str (python.isoformat asOf)) ++
    optItem "retrieval_mode" request.retrievalMode (fun mode => .str mode.text) ++
    optItem "token_budget" request.tokenBudget .int ++
    optItem "namespace_scope" request.namespaceScope .str ++
    optItem "source_site" request.sourceSite .str ++
    (if request.skipRepair = some true then [("skip_repair", .bool true)] else []) ++
    optItem "config_override" request.configOverride .dict

/-- The pairs that the query of `list` is made of. -/
def listPairs (scope : MemoryScope String) (options : AtomicMemoryListOptions) :
    List (List Char × List Char) :=
  let pair (name value : String) := (name.toList, value.toList)
  scopeToQueryPairs scope false true ++
    (options.limit.map fun limit => pair "limit" (toString limit)).toList ++
    (options.offset.map fun offset => pair "offset" (toString offset)).toList ++
    ((nonEmpty options.sourceSite).map (pair "source_site")).toList ++
    ((nonEmpty options.episodeId).map (pair "episode_id")).toList

namespace Handle

variable (h : Handle) (python : Python) (py : Pydantic)

/-- `_post_search`. -/
def postSearch (bool : PyValue → Option Bool) (path : List Char)
    (request : AtomicMemorySearchRequest) (scope : MemoryScope String) :
    Call AtomicMemorySearchResultPage where
  request := ⟨"POST", path, some (searchBody python request scope)⟩
  receive := fun outcome => do
    let raw ← fetchJson outcome
    mapSearchResponse python py bool raw scope

/-- `search`. -/
def search (bool : PyValue → Option Bool) (request : AtomicMemorySearchRequest)
    (scope : MemoryScope String) : Call AtomicMemorySearchResultPage :=
  postSearch python py bool (h.route "/memories/search".toList) request scope

/-- `search_fast`. -/
def searchFast (bool : PyValue → Option Bool) (request : AtomicMemorySearchRequest)
    (scope : MemoryScope String) : Call AtomicMemorySearchResultPage :=
  postSearch python py bool (h.route "/memories/search/fast".toList) request scope

/-- `expand`. -/
def expand (refs : List String) (scope : MemoryScope String) : Call (List AtomicMemoryMemory) where
  request := ⟨"POST", h.route "/memories/expand".toList,
    some (scopeToFields scope false false ++ [("memory_ids", .list (refs.map .str))])⟩
  receive := fun outcome => do
    let raw ← fetchJson outcome
    let memories ← getD raw "memories" (.list [])
    let rows ← iterate memories
    comprehension (nthAtomicMemory python py (stripReadFilters scope)) 0 rows

/-- `list`. -/
def list (scope : MemoryScope String) (options : ListOptionsArg) :
    Except ListRefusal (Call AtomicMemoryListResultPage) := do
  let opts ← coerceListOptions py options
  assertListOptionsScopeCompat scope opts
  .ok
    { request := ⟨"GET", h.route ("/memories/list?".toList ++ urlencode (listPairs scope opts)),
        none⟩
      receive := fun outcome => do
        let raw ← fetchJson outcome
        let memories ← getD raw "memories" (.list [])
        -- what has a length can be gone through
        let rows ← iterate memories
        let memories ← comprehension (nthAtomicMemory python py (stripAgentScope scope)) 0 rows
        let count ← getD raw "count" (.int rows.length)
        modelValidate "AtomicMemoryListResultPage" do
          let count ← py.int count
          some ⟨memories, count,
            nextCursor (opts.offset.getD 0) (opts.limit.getD 20) rows.length⟩ }

end Handle

end AtomicMemory.AtomicMemoryHandle
