import AtomicMemory.Providers.HandleReads

-- The scopes of the memories that the five reading routes of the handle return, beside what their
-- requests send and their records report.

open PercentEncoding
open PyValue hiding none

namespace AtomicMemory.AtomicMemoryHandle

namespace MemoryScope

variable {α β : Type}

def workspaceId : MemoryScope α → Option String
  | user .. => none
  | workspace _ workspaceId .. => some workspaceId

def agentId : MemoryScope α → Option String
  | user .. => none
  | workspace _ _ agentId .. => some agentId

def agentScope : MemoryScope α → Option AgentScope
  | user .. => none
  | workspace _ _ _ _ agentScope => agentScope

@[simp] theorem userId_withThread (scope : MemoryScope α) (thread : Option β) :
    (scope.withThread thread).userId = scope.userId := by
  cases scope <;> rfl

@[simp] theorem workspaceId_withThread (scope : MemoryScope α) (thread : Option β) :
    (scope.withThread thread).workspaceId = scope.workspaceId := by
  cases scope <;> rfl

@[simp] theorem agentId_withThread (scope : MemoryScope α) (thread : Option β) :
    (scope.withThread thread).agentId = scope.agentId := by
  cases scope <;> rfl

@[simp] theorem agentScope_withThread (scope : MemoryScope α) (thread : Option β) :
    (scope.withThread thread).agentScope = scope.agentScope := by
  cases scope <;> rfl

@[simp] theorem thread_withThread (scope : MemoryScope α) (thread : Option β) :
    (scope.withThread thread).thread = thread := by
  cases scope <;> rfl

end MemoryScope

inductive Reading
  | search (request : AtomicMemorySearchRequest)
  | searchFast (request : AtomicMemorySearchRequest)
  | expand (refs : List String)
  | list (options : ListOptionsArg)
  | get (id : String)

namespace Reading

def searches : Reading → Bool
  | search _ | searchFast _ => true
  | _ => false

def filtersThread : Reading → Bool
  | search _ | searchFast _ | list _ => true
  | _ => false

def records (reading : Reading) : HttpOutcome → List PyValue
  | .response status (some body) =>
    match reading with
    | get _ => if status = 404 ∨ body.isNone = true then [] else [body]
    | _ => AtomicMemoryProvider.records body
  | _ => []

end Reading

def Handle.read (h : Handle) (python : Python) (py : Pydantic) (bool : PyValue → Option Bool)
    (scope : MemoryScope String) : Reading → Except ListRefusal (Call (List AtomicMemoryMemory))
  | .search request =>
    .ok ((h.search python py bool request scope).map fun page =>
      page.results.map AtomicMemorySearchResult.memory)
  | .searchFast request =>
    .ok ((h.searchFast python py bool request scope).map fun page =>
      page.results.map AtomicMemorySearchResult.memory)
  | .expand refs => .ok (h.expand python py refs scope)
  | .list options =>
    (h.list python py scope options).map (·.map AtomicMemoryListResultPage.memories)
  | .get id => .ok ((h.get python py id scope).map Option.toList)

def formValues (form : List (List UInt8 × List UInt8)) (name : String) : List (List UInt8) :=
  (form.filter fun pair => pair.1 = utf8 name.toList).map Prod.snd

def Sends (h : Handle) (request : HttpRequest) (name value : String) : Prop :=
  match request.json with
  | some body => body.lookup name = some (.str value)
  | none => ∃ path query, request.path = h.route (path ++ '?' :: query) ∧ '?' ∉ path ∧
      '#' ∉ query ∧ formValues (formDecode query) name = [utf8 value.toList]

/-- The values of a key among the pairs that a query is made of. -/
def pairValues (pairs : List (List Char × List Char)) (name : String) : List (List Char) :=
  (pairs.filter fun pair => pair.1 = name.toList).map Prod.snd

theorem formValues_urlencode (pairs : List (List Char × List Char)) (name : String) :
    formValues (formDecode (urlencode pairs)) name = (pairValues pairs name).map utf8 := by
  rw [formDecode_urlencode]
  unfold formValues pairValues
  rw [List.filter_map, List.map_map, List.map_map]
  congr 1
  refine List.filter_congr fun pair _ => ?_
  exact decide_eq_decide.mpr ⟨utf8_injective, fun h => congrArg utf8 h⟩

theorem pairValues_cons (key : String) (value : List Char) (pairs : List (List Char × List Char))
    (name : String) :
    pairValues ((key.toList, value) :: pairs) name =
      if key = name then value :: pairValues pairs name else pairValues pairs name := by
  unfold pairValues
  rw [List.filter_cons]
  by_cases hkey : key = name
  · rw [if_pos hkey, if_pos (decide_eq_true (congrArg String.toList hkey))]
    rfl
  · rw [if_neg hkey, if_neg]
    exact fun h => hkey (String.toList_injective (of_decide_eq_true h))

theorem pairValues_append (xs ys : List (List Char × List Char)) (name : String) :
    pairValues (xs ++ ys) name = pairValues xs name ++ pairValues ys name := by
  unfold pairValues
  rw [List.filter_append, List.map_append]

theorem pairValues_option {α : Type} (key : String) (x : Option α) (f : α → List Char)
    (name : String) :
    pairValues ((x.map fun a => (key.toList, f a)).toList) name =
      if key = name then (x.map f).toList else [] := by
  cases x with
  | none => simp [pairValues]
  | some a => exact pairValues_cons key (f a) [] name

def MemoryScope.sent (scope : MemoryScope String) (name : String) : Option String :=
  if name = "user_id" then some scope.userId
  else if name = "workspace_id" then scope.workspaceId
  else if name = "agent_id" then scope.agentId
  else if name = "session_id" then scope.thread
  else none

def identityFields : List String := ["user_id", "workspace_id", "agent_id"]

theorem mem_identityFields {name : String} :
    name ∈ identityFields ↔ name = "user_id" ∨ name = "workspace_id" ∨ name = "agent_id" := by
  simp [identityFields]

theorem scopeToQueryPairs_eq (scope : MemoryScope String) (includeThread : Bool) :
    scopeToQueryPairs scope false includeThread =
      ("user_id".toList, scope.userId.toList) ::
        ((scope.workspaceId.map fun value => ("workspace_id".toList, value.toList)).toList ++
          (scope.agentId.map fun value => ("agent_id".toList, value.toList)).toList ++
          if includeThread then
            (scope.thread.map fun value => ("session_id".toList, value.toList)).toList
          else []) := by
  cases scope <;> rfl

theorem pairValues_identity (scope : MemoryScope String) {name : String}
    (h : name ∈ identityFields) (includeThread : Bool) :
    pairValues (scopeToQueryPairs scope false includeThread) name =
      ((scope.sent name).map String.toList).toList := by
  have hthread : pairValues (if includeThread then
      (scope.thread.map fun value => ("session_id".toList, value.toList)).toList else []) name =
      [] := by
    cases includeThread with
    | false => rfl
    | true =>
      rw [if_pos rfl, pairValues_option, if_neg]
      rintro rfl
      exact absurd h (by decide)
  rw [scopeToQueryPairs_eq, pairValues_cons, pairValues_append, pairValues_append, hthread,
    pairValues_option, pairValues_option]
  rcases mem_identityFields.mp h with rfl | rfl | rfl <;> simp [MemoryScope.sent]

theorem pairValues_thread (scope : MemoryScope String) :
    pairValues (scopeToQueryPairs scope false true) "session_id" =
      (scope.thread.map String.toList).toList := by
  rw [scopeToQueryPairs_eq, pairValues_cons, pairValues_append, pairValues_append, if_pos rfl,
    pairValues_option, pairValues_option, pairValues_option]
  simp

/-- The other options of `list` have keys of their own. -/
theorem pairValues_list (scope : MemoryScope String) (options : AtomicMemoryListOptions)
    {name : String} (h : name ∉ ["limit", "offset", "source_site", "episode_id"]) :
    pairValues (listPairs scope options) name =
      pairValues (scopeToQueryPairs scope false true) name := by
  simp only [List.mem_cons, List.not_mem_nil, or_false, not_or] at h
  obtain ⟨hlimit, hoffset, hsource, hepisode⟩ := h
  unfold listPairs
  simp only [pairValues_append, pairValues_option, if_neg (Ne.symm hlimit),
    if_neg (Ne.symm hoffset), if_neg (Ne.symm hsource), if_neg (Ne.symm hepisode),
    List.append_nil]

/-- `agent_scope` as a body has it. -/
def AgentScope.value : AgentScope → PyValue
  | one agentId => .str agentId
  | many agentIds => .list (agentIds.map .str)

theorem scopeToFields_eq (scope : MemoryScope String) (includeAgentScope includeThread : Bool) :
    scopeToFields scope includeAgentScope includeThread =
      [("user_id", .str scope.userId)] ++ optItem "workspace_id" scope.workspaceId .str ++
        optItem "agent_id" scope.agentId .str ++
        (if includeAgentScope then
          optItem "agent_scope" scope.agentScope AgentScope.value
        else []) ++
        if includeThread then optItem "session_id" scope.thread .str else [] := by
  cases scope with
  | user userId thread => cases includeAgentScope <;> rfl
  | workspace userId workspaceId agentId thread agentScope => rfl

theorem lookup_identity (scope : MemoryScope String) {name : String} (h : name ∈ identityFields)
    (includeAgentScope includeThread : Bool) :
    (scopeToFields scope includeAgentScope includeThread).lookup name =
      (scope.sent name).map .str := by
  rw [scopeToFields_eq]
  rcases mem_identityFields.mp h with rfl | rfl | rfl <;> cases includeAgentScope <;>
    cases includeThread <;>
    simp [MemoryScope.sent, Items.lookup_cons, Items.lookup_append, lookup_optItem]

theorem lookup_agentScope (scope : MemoryScope String) (includeThread : Bool) :
    (scopeToFields scope true includeThread).lookup "agent_scope" =
      scope.agentScope.map AgentScope.value := by
  rw [scopeToFields_eq]
  cases includeThread <;>
    simp [Items.lookup_cons, Items.lookup_append, lookup_optItem]

theorem lookup_thread (scope : MemoryScope String) (includeAgentScope : Bool) :
    (scopeToFields scope includeAgentScope true).lookup "session_id" =
      scope.thread.map .str := by
  rw [scopeToFields_eq]
  cases includeAgentScope <;>
    simp [Items.lookup_cons, Items.lookup_append, lookup_optItem]

def searchFields : List String :=
  ["query", "limit", "threshold", "as_of", "retrieval_mode", "token_budget", "namespace_scope",
    "source_site", "skip_repair", "config_override"]

theorem lookup_searchBody (python : Python) (request : AtomicMemorySearchRequest)
    (scope : MemoryScope String) {name : String} (h : name ∉ searchFields) :
    (searchBody python request scope).lookup name =
      (scopeToFields scope true true).lookup name := by
  simp only [searchFields, List.mem_cons, List.not_mem_nil, or_false, not_or] at h
  have hrepair : (if request.skipRepair = some true then [("skip_repair", PyValue.bool true)]
      else []).lookup name = none := by
    split
    · rw [Items.lookup_cons, if_neg (by tauto)]
      rfl
    · rfl
  unfold searchBody
  simp [Items.lookup_append, Items.lookup_cons, lookup_optItem, hrepair, h]

def Reading.echoed (reading : Reading) (scope : MemoryScope String) : MemoryScope String :=
  match reading with
  | .search _ | .searchFast _ => scope
  | .list _ => stripAgentScope scope
  | .expand _ | .get _ => stripReadFilters scope

def MadeOf (py : Pydantic) (scope : MemoryScope String) (record : PyValue)
    (memory : AtomicMemoryMemory) : Prop :=
  ∃ python, toAtomicMemory python py record scope = .ok memory

section

variable {python : Python} {py : Pydantic} {bool : PyValue → Option Bool}
  {scope : MemoryScope String}

theorem toAtomicSearchResult_ok {n : ℕ} {record : PyValue} {result : AtomicMemorySearchResult}
    (h : toAtomicSearchResult python py scope n record = .ok result) :
    MadeOf py scope record result.memory := by
  cases record with
  | dict items =>
    obtain ⟨memory, hmemory, h⟩ := Except.bind_ok h
    have h := modelValidate_ok h
    obtain ⟨_, -, h⟩ := Option.bind_eq_some_iff.mp h
    obtain ⟨_, -, h⟩ := Option.bind_eq_some_iff.mp h
    obtain ⟨_, -, h⟩ := Option.bind_eq_some_iff.mp h
    obtain ⟨_, -, h⟩ := Option.bind_eq_some_iff.mp h
    obtain ⟨_, -, h⟩ := Option.bind_eq_some_iff.mp h
    cases h
    exact ⟨_, hmemory⟩
  | _ => cases h

theorem comprehension_madeOf {rows : List PyValue} {memories : List AtomicMemoryMemory}
    (h : comprehension (nthAtomicMemory python py scope) 0 rows = .ok memories) :
    List.Forall₂ (MadeOf py scope) rows memories :=
  (comprehension_ok h).imp fun _ _ ⟨_, hmemory⟩ => ⟨_, hmemory⟩

theorem records_error {raw v : PyValue} {e : PyError}
    (hv : getD raw "memories" (.list []) = .ok v) (hrows : iterate v = .error e) :
    AtomicMemoryProvider.records raw = [] := by
  have h : getD raw "memories" (.list []) >>= iterate = .error e := by
    rw [hv]
    exact hrows
  simp only [AtomicMemoryProvider.records, h]

theorem records_falsy {raw v : PyValue} (hv : getD raw "memories" (.list []) = .ok v)
    (hfalsy : ¬ v.truthy = true) : AtomicMemoryProvider.records raw = [] := by
  cases v with
  | list xs =>
    cases xs with
    | nil => exact AtomicMemoryProvider.records_eq hv rfl
    | cons x xs => exact absurd rfl hfalsy
  | dict entries =>
    cases entries with
    | nil => exact AtomicMemoryProvider.records_eq hv rfl
    | cons x xs => exact absurd rfl hfalsy
  | str text =>
    have htext : text = "" := by simpa [truthy] using hfalsy
    rw [htext] at hv
    exact AtomicMemoryProvider.records_eq hv rfl
  | _ => exact records_error hv rfl

theorem records_truthy {raw v : PyValue} {rows : List PyValue}
    (hv : getD raw "memories" .none = .ok v)
    (hrows : iterate (if v.truthy then v else .list []) = .ok rows) :
    AtomicMemoryProvider.records raw = rows := by
  cases raw with
  | dict items =>
    have hlookup : (items.lookup "memories").getD .none = v := Except.ok.inj hv
    cases hmemories : items.lookup "memories" with
    | none =>
      rw [hmemories] at hlookup
      subst hlookup
      have hget : getD (.dict items) "memories" (.list []) = .ok (.list []) :=
        congrArg (fun found : Option PyValue => Except.ok (found.getD (.list []))) hmemories
      exact AtomicMemoryProvider.records_eq hget hrows
    | some w =>
      rw [hmemories] at hlookup
      obtain rfl : w = v := hlookup
      have hget : getD (.dict items) "memories" (.list []) = .ok w :=
        congrArg (fun found : Option PyValue => Except.ok (found.getD (.list []))) hmemories
      by_cases htruthy : w.truthy = true
      · rw [if_pos htruthy] at hrows
        exact AtomicMemoryProvider.records_eq hget hrows
      · rw [if_neg htruthy] at hrows
        rw [records_falsy hget htruthy, ← Except.ok.inj hrows]
  | _ => cases hv

theorem mapSearchResponse_ok {raw : PyValue} {page : AtomicMemorySearchResultPage}
    (h : mapSearchResponse python py bool raw scope = .ok page) :
    List.Forall₂ (fun record result => MadeOf py scope record result.memory)
      (AtomicMemoryProvider.records raw) page.results := by
  obtain ⟨v, hv, h⟩ := Except.bind_ok h
  obtain ⟨rows, hrows, h⟩ := Except.bind_ok h
  obtain ⟨count, -, h⟩ := Except.bind_ok h
  obtain ⟨mode, -, h⟩ := Except.bind_ok h
  obtain ⟨results, hresults, h⟩ := Except.bind_ok h
  have h := modelValidate_ok h
  obtain ⟨_, -, h⟩ := Option.bind_eq_some_iff.mp h
  obtain ⟨_, -, h⟩ := Option.bind_eq_some_iff.mp h
  obtain ⟨_, -, h⟩ := Option.bind_eq_some_iff.mp h
  obtain ⟨_, -, h⟩ := Option.bind_eq_some_iff.mp h
  obtain ⟨_, -, h⟩ := Option.bind_eq_some_iff.mp h
  obtain ⟨_, -, h⟩ := Option.bind_eq_some_iff.mp h
  obtain ⟨_, -, h⟩ := Option.bind_eq_some_iff.mp h
  obtain ⟨_, -, h⟩ := Option.bind_eq_some_iff.mp h
  obtain ⟨_, -, h⟩ := Option.bind_eq_some_iff.mp h
  obtain ⟨_, -, h⟩ := Option.bind_eq_some_iff.mp h
  cases h
  rw [records_truthy hv hrows]
  exact (comprehension_ok hresults).imp fun _ _ ⟨_, hresult⟩ => toAtomicSearchResult_ok hresult

variable {h : Handle}

theorem postSearch_madeOf {path : List Char} {request : AtomicMemorySearchRequest}
    {outcome : HttpOutcome} {page : AtomicMemorySearchResultPage}
    (hpage : (Handle.postSearch python py bool path request scope).receive outcome = .ok page) :
    ∃ status body, outcome = .response status (some body) ∧
      List.Forall₂ (MadeOf py scope) (AtomicMemoryProvider.records body)
        (page.results.map AtomicMemorySearchResult.memory) := by
  obtain ⟨raw, hraw, hmapped⟩ := Except.bind_ok hpage
  obtain ⟨status, houtcome⟩ := fetchJson_ok hraw
  exact ⟨status, raw, houtcome, List.forall₂_map_right_iff.mpr (mapSearchResponse_ok hmapped)⟩

/-- The record that `get` finds, unless there is none. -/
theorem records_get {outcome : HttpOutcome} {v : PyValue} (h : fetchJsonOrNone outcome = .ok v)
    (id : String) : (Reading.get id).records outcome = if v.isNone then [] else [v] := by
  cases outcome with
  | timeout => cases h
  | requestError => cases h
  | response status body =>
    unfold fetchJsonOrNone at h
    dsimp only at h
    split at h
    · rename_i hstatus
      rw [← Except.ok.inj h]
      cases body with
      | none => rfl
      | some w => exact if_pos (.inl hstatus)
    · rename_i hstatus
      obtain ⟨_, -, h⟩ := Except.bind_ok h
      cases body with
      | none => cases h
      | some w =>
        rw [← Except.ok.inj h]
        by_cases hnone : w.isNone = true
        · rw [if_pos hnone]
          exact if_pos (.inr hnone)
        · rw [if_neg hnone]
          exact if_neg fun h => h.elim hstatus hnone

theorem expand_madeOf {refs : List String} {outcome : HttpOutcome}
    {memories : List AtomicMemoryMemory}
    (hmemories : (h.expand python py refs scope).receive outcome = .ok memories) :
    List.Forall₂ (MadeOf py (stripReadFilters scope)) ((Reading.expand refs).records outcome)
      memories := by
  obtain ⟨raw, hraw, hexpand⟩ := Except.bind_ok hmemories
  obtain ⟨v, hv, hexpand⟩ := Except.bind_ok hexpand
  obtain ⟨rows, hrows, hexpand⟩ := Except.bind_ok hexpand
  obtain ⟨status, rfl⟩ := fetchJson_ok hraw
  change List.Forall₂ _ (AtomicMemoryProvider.records raw) _
  rw [AtomicMemoryProvider.records_eq hv hrows]
  exact comprehension_madeOf hexpand

theorem list_madeOf {options : ListOptionsArg} {call : Call AtomicMemoryListResultPage}
    (hcall : h.list python py scope options = .ok call) {outcome : HttpOutcome}
    {page : AtomicMemoryListResultPage} (hpage : call.receive outcome = .ok page) :
    List.Forall₂ (MadeOf py (stripAgentScope scope)) ((Reading.list options).records outcome)
      page.memories := by
  obtain ⟨opts, -, hcall⟩ := Except.bind_ok hcall
  obtain ⟨_, -, hcall⟩ := Except.bind_ok hcall
  cases hcall
  obtain ⟨raw, hraw, hlist⟩ := Except.bind_ok hpage
  obtain ⟨v, hv, hlist⟩ := Except.bind_ok hlist
  obtain ⟨rows, hrows, hlist⟩ := Except.bind_ok hlist
  obtain ⟨mapped, hmapped, hlist⟩ := Except.bind_ok hlist
  obtain ⟨count, -, hlist⟩ := Except.bind_ok hlist
  obtain ⟨_, -, hlist⟩ := Option.bind_eq_some_iff.mp (modelValidate_ok hlist)
  cases hlist
  obtain ⟨status, rfl⟩ := fetchJson_ok hraw
  change List.Forall₂ _ (AtomicMemoryProvider.records raw) mapped
  rw [AtomicMemoryProvider.records_eq hv hrows]
  exact comprehension_madeOf hmapped

theorem get_madeOf {id : String} {outcome : HttpOutcome} {found : Option AtomicMemoryMemory}
    (hfound : (h.get python py id scope).receive outcome = .ok found) :
    List.Forall₂ (MadeOf py (stripReadFilters scope)) ((Reading.get id).records outcome)
      found.toList := by
  obtain ⟨raw, hraw, hget⟩ := Except.bind_ok hfound
  rw [records_get hraw]
  by_cases hnone : raw.isNone = true
  · rw [if_pos hnone] at hget
    cases hget
    rw [if_pos hnone]
    exact .nil
  · rw [if_neg hnone] at hget
    obtain ⟨memory, hmemory, rfl⟩ := Except.of_map_ok hget
    rw [if_neg hnone]
    exact .cons ⟨python, hmemory⟩ .nil

/-- Every memory that is returned is made of its own record, for the scope of the route. -/
theorem read_madeOf {reading : Reading} {call : Call (List AtomicMemoryMemory)}
    (hcall : h.read python py bool scope reading = .ok call) {outcome : HttpOutcome}
    {memories : List AtomicMemoryMemory} (hmemories : call.receive outcome = .ok memories) :
    List.Forall₂ (MadeOf py (reading.echoed scope)) (reading.records outcome) memories := by
  cases reading with
  | search request =>
    cases hcall
    obtain ⟨page, hpage, rfl⟩ := Except.of_map_ok hmemories
    obtain ⟨status, body, rfl, hmade⟩ := postSearch_madeOf hpage
    exact hmade
  | searchFast request =>
    cases hcall
    obtain ⟨page, hpage, rfl⟩ := Except.of_map_ok hmemories
    obtain ⟨status, body, rfl, hmade⟩ := postSearch_madeOf hpage
    exact hmade
  | expand refs =>
    cases hcall
    exact expand_madeOf hmemories
  | list options =>
    obtain ⟨inner, hinner, rfl⟩ := Except.of_map_ok hcall
    obtain ⟨page, hpage, rfl⟩ := Except.of_map_ok hmemories
    exact list_madeOf hinner hpage
  | get id =>
    cases hcall
    obtain ⟨found, hfound, rfl⟩ := Except.of_map_ok hmemories
    exact get_madeOf hfound

theorem sends_query {path : List Char} {pairs : List (List Char × List Char)} {name value : String}
    (hpath : '?' ∉ path) (hvalues : pairValues pairs name = [value.toList]) :
    Sends h ⟨"GET", h.route (path ++ '?' :: urlencode pairs), none⟩ name value := by
  refine ⟨path, urlencode pairs, rfl, hpath, hash_not_mem_urlencode pairs, ?_⟩
  rw [formValues_urlencode, hvalues]
  rfl

theorem sent_stripReadFilters (scope : MemoryScope String) {name : String}
    (hname : name ∈ identityFields) : (stripReadFilters scope).sent name = scope.sent name := by
  rcases mem_identityFields.mp hname with rfl | rfl | rfl <;> cases scope <;> rfl

theorem list_request {options : ListOptionsArg} {call : Call AtomicMemoryListResultPage}
    (hcall : h.list python py scope options = .ok call) :
    ∃ opts, call.request = ⟨"GET",
      h.route ("/memories/list".toList ++ '?' :: urlencode (listPairs scope opts)), none⟩ := by
  obtain ⟨opts, -, hcall⟩ := Except.bind_ok hcall
  obtain ⟨_, -, hcall⟩ := Except.bind_ok hcall
  cases hcall
  exact ⟨opts, rfl⟩

theorem read_sends {reading : Reading} {call : Call (List AtomicMemoryMemory)}
    (hcall : h.read python py bool scope reading = .ok call) {name value : String}
    (hname : name ∈ identityFields) (hvalue : scope.sent name = some value) :
    Sends h call.request name value := by
  have hsearch (request : AtomicMemorySearchRequest) :
      (searchBody python request scope).lookup name = some (.str value) := by
    rw [lookup_searchBody, lookup_identity scope hname, hvalue]
    · rfl
    · rcases mem_identityFields.mp hname with rfl | rfl | rfl <;> decide
  cases reading with
  | search request =>
    cases hcall
    exact hsearch request
  | searchFast request =>
    cases hcall
    exact hsearch request
  | expand refs =>
    cases hcall
    show List.lookup name (scopeToFields scope false false ++ _) = _
    rw [Items.lookup_append, lookup_identity scope hname, hvalue]
    rfl
  | list options =>
    obtain ⟨inner, hinner, rfl⟩ := Except.of_map_ok hcall
    obtain ⟨opts, hrequest⟩ := list_request hinner
    rw [Call.map_request, hrequest]
    refine sends_query (by decide) ?_
    rw [pairValues_list scope opts, pairValues_identity scope hname, hvalue]
    · rfl
    · rcases mem_identityFields.mp hname with rfl | rfl | rfl <;> decide
  | get id =>
    cases hcall
    refine @sends_query h ("/memories/".toList ++ quote id.toList) _ _ _ ?_ ?_
    · exact fun hmem => (List.mem_append.mp hmem).elim (by decide)
        (not_mem_quote _ (by decide) (by decide))
    · rw [pairValues_identity _ hname, sent_stripReadFilters scope hname, hvalue]
      rfl

theorem read_sends_thread {reading : Reading} {call : Call (List AtomicMemoryMemory)}
    (hcall : h.read python py bool scope reading = .ok call)
    (hfilters : reading.filtersThread = true) {thread : String}
    (hthread : scope.thread = some thread) : Sends h call.request "session_id" thread := by
  have hsearch (request : AtomicMemorySearchRequest) :
      (searchBody python request scope).lookup "session_id" = some (.str thread) := by
    rw [lookup_searchBody python request scope (by decide), lookup_thread, hthread]
    rfl
  cases reading with
  | search request =>
    cases hcall
    exact hsearch request
  | searchFast request =>
    cases hcall
    exact hsearch request
  | list options =>
    obtain ⟨inner, hinner, rfl⟩ := Except.of_map_ok hcall
    obtain ⟨opts, hrequest⟩ := list_request hinner
    rw [Call.map_request, hrequest]
    refine sends_query (by decide) ?_
    rw [pairValues_list scope opts (by decide), pairValues_thread, hthread]
    rfl
  | expand refs => cases hfilters
  | get id => cases hfilters

def agentScopeAsked (request : HttpRequest) : Option PyValue :=
  request.json.bind fun body => body.lookup "agent_scope"

theorem agentScope_echoed {reading : Reading} {call : Call (List AtomicMemoryMemory)}
    (hcall : h.read python py bool scope reading = .ok call) :
    (reading.echoed scope).agentScope.map AgentScope.value =
      if reading.searches then agentScopeAsked call.request else none := by
  have hsearch (request : AtomicMemorySearchRequest) :
      (searchBody python request scope).lookup "agent_scope" =
        scope.agentScope.map AgentScope.value := by
    rw [lookup_searchBody python request scope (by decide), lookup_agentScope]
  cases reading with
  | search request =>
    cases hcall
    exact (hsearch request).symm
  | searchFast request =>
    cases hcall
    exact (hsearch request).symm
  | _ => cases scope <;> rfl

end

def session : PyValue → PyValue
  | .dict items => Items.get items "session_id"
  | _ => .none

/-- The scope of a memory has what was asked for, as far as it was sent, and the record's own
thread. -/
structure Echoes (request : HttpRequest) (reading : Reading) (scope : MemoryScope String)
    (record : PyValue) (memory : AtomicMemoryMemory) : Prop where
  userId : memory.scope.userId = scope.userId
  workspaceId : memory.scope.workspaceId = scope.workspaceId
  agentId : memory.scope.agentId = scope.agentId
  agentScope : memory.scope.agentScope.map AgentScope.value =
    if reading.searches then agentScopeAsked request else none
  thread : memory.scope.thread =
    if (session record).truthy then some (session record) else none

section

variable {h : Handle} {python : Python} {py : Pydantic} {bool : PyValue → Option Bool}
  {scope : MemoryScope String} {reading : Reading} {call : Call (List AtomicMemoryMemory)}

theorem madeOf_echoes (hcall : h.read python py bool scope reading = .ok call) {record : PyValue}
    {memory : AtomicMemoryMemory} (hmade : MadeOf py (reading.echoed scope) record memory) :
    Echoes call.request reading scope record memory := by
  obtain ⟨_, hmemory⟩ := hmade
  obtain ⟨items, rfl, hscope⟩ := toAtomicMemory_ok hmemory
  obtain ⟨-, hscope⟩ := buildMemoryScope_ok hscope
  constructor
  · rw [hscope, MemoryScope.userId_withThread]
    cases reading <;> cases scope <;> rfl
  · rw [hscope, MemoryScope.workspaceId_withThread]
    cases reading <;> cases scope <;> rfl
  · rw [hscope, MemoryScope.agentId_withThread]
    cases reading <;> cases scope <;> rfl
  · rw [hscope, MemoryScope.agentScope_withThread]
    exact agentScope_echoed hcall
  · rw [hscope, MemoryScope.thread_withThread]
    rfl

theorem madeOf_thread (hfilters : reading.filtersThread = true) {thread : String}
    (hthread : scope.thread = some thread) {record : PyValue} {memory : AtomicMemoryMemory}
    (hmade : MadeOf py (reading.echoed scope) record memory) : session record = .str thread := by
  obtain ⟨_, hmemory⟩ := hmade
  obtain ⟨items, rfl, hscope⟩ := toAtomicMemory_ok hmemory
  have hechoed : (reading.echoed scope).thread = some thread := by
    cases reading with
    | expand refs => cases hfilters
    | get id => cases hfilters
    | search request => exact hthread
    | searchFast request => exact hthread
    | list options => cases scope <;> exact hthread
  exact (buildMemoryScope_ok hscope).1 thread hechoed

/-- The scopes of all memories that a reading call returns are honest. -/
theorem read_honest (hcall : h.read python py bool scope reading = .ok call) :
    (∀ name ∈ identityFields, ∀ value, scope.sent name = some value →
      Sends h call.request name value) ∧
    (∀ outcome memories, call.receive outcome = .ok memories →
      List.Forall₂ (Echoes call.request reading scope) (reading.records outcome) memories) ∧
    ∀ thread, scope.thread = some thread → reading.filtersThread = true →
      Sends h call.request "session_id" thread ∧
      ∀ outcome, (∃ record ∈ reading.records outcome, session record ≠ .str thread) →
        ∃ e, call.receive outcome = .error e := by
  refine ⟨fun name hname value hvalue => read_sends hcall hname hvalue,
    fun outcome memories hmemories =>
      (read_madeOf hcall hmemories).imp fun _ _ => madeOf_echoes hcall,
    fun thread hthread hfilters => ⟨read_sends_thread hcall hfilters hthread, ?_⟩⟩
  rintro outcome ⟨record, hrecord, hother⟩
  cases hreceive : call.receive outcome with
  | error e => exact ⟨e, rfl⟩
  | ok memories =>
    have hmade := read_madeOf hcall hreceive
    obtain ⟨i, hi, rfl⟩ := List.mem_iff_getElem.mp hrecord
    have hmemory := hmade.get hi (hmade.length_eq ▸ hi)
    exact absurd (madeOf_thread hfilters hthread hmemory) hother

/-- A search of a workspace names it, and raises for a record of another thread. -/
theorem read_honest_search :
    ∃ call, Handle.read ⟨[]⟩ Python.reference Pydantic.reference (fun _ => none)
        (.workspace "u" "w" "a" (some "t") none)
        (.search ⟨"q", none, none, none, none, none, none, none, none, none⟩) = .ok call ∧
      Sends ⟨[]⟩ call.request "workspace_id" "w" ∧ Sends ⟨[]⟩ call.request "session_id" "t" ∧
      ∃ e, call.receive (.response 200 (some (.dict [("memories", .list
        [.dict [("id", .str "1"), ("session_id", .str "s")]])]))) = .error e := by
  obtain ⟨call, hcall⟩ : ∃ call, Handle.read ⟨[]⟩ Python.reference Pydantic.reference
      (fun _ => none) (.workspace "u" "w" "a" (some "t") none)
      (.search ⟨"q", none, none, none, none, none, none, none, none, none⟩) = .ok call := ⟨_, rfl⟩
  obtain ⟨hsends, -, hthread⟩ := read_honest hcall
  obtain ⟨hsession, hraises⟩ := hthread "t" rfl rfl
  exact ⟨call, hcall, hsends "workspace_id" (by decide) "w" rfl, hsession,
    hraises _ ⟨_, .head _, fun h => nomatch PyValue.str.inj h⟩⟩

end

end AtomicMemory.AtomicMemoryHandle
