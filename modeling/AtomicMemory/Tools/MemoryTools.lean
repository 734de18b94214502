import AtomicMemory.Core.Errors
import AtomicMemory.Lib.Coroutine
import AtomicMemory.Memory.IngestInput
import Mathlib.Order.Lattice
import AtomicMemory.Tools.Models

-- Two tools for one user, sync and async. The arguments are a model's: they decide what is
-- stored or searched for, and never for whom.

open PyValue hiding none

namespace AtomicMemory.Tools

inductive ClientCall
  | ingest (input : IngestInput)
  | search (request : SearchRequest)

/-- What executing a tool did: the calls of the client, and how it came out. -/
structure Execution (ρ : Type) where
  calls : List ClientCall
  outcome : ρ

structure SyncClient where
  ingest : IngestInput → Except PyError IngestResult
  search : SearchRequest → Except PyError (SearchResultPage String)

structure AsyncClient where
  ingest : IngestInput → Coroutine PyError IngestResult
  search : SearchRequest → Coroutine PyError (SearchResultPage String)

/-- `except Exception: raise MemoryToolError("Memory tool failed.") from None`. -/
def safeError (e : PyError) : PyError :=
  if e.isException then .memoryToolError "Memory tool failed." else e

/-- `_execute`. -/
def execute {α β : Type} (schema : String) (validate : Items → Option α) (arguments : Items)
    (run : α → Execution (Except PyError β)) : Execution (Except PyError β) :=
  match modelValidate schema (validate arguments) with
  | .error e => ⟨[], .error (safeError e)⟩
  | .ok parsed => ⟨(run parsed).calls, (run parsed).outcome.mapError safeError⟩

/-- `_execute_async`. -/
def executeAsync {α β : Type} (schema : String) (validate : Items → Option α) (arguments : Items)
    (run : α → Execution (Coroutine PyError β)) : Execution (Coroutine PyError β) :=
  match modelValidate schema (validate arguments) with
  | .error e => ⟨[], .ends (.error (safeError e))⟩
  | .ok parsed => ⟨(run parsed).calls, (run parsed).outcome.mapError safeError⟩

/-- `_user_scope`. -/
def userScope (user : PyValue) : Except PyError (Subtype AcceptedUser) :=
  match ToolScope.ofItems [("user", user)] with
  | some scope => .ok scope.user
  | none => .error (.configError "Memory tools require a valid application-owned user.")

/-- `TextIngest(content=content, scope=Scope(user=user))`. -/
def textIngest (user content : String) : IngestInput :=
  ⟨⟨some user, none, none, none⟩, none, none, none, .text content⟩

/-- `SearchRequest(query=query, limit=limit, scope=Scope(user=user))`. -/
def searchRequest (user query : String) (limit : ℤ) : SearchRequest :=
  ⟨query, ⟨some user, none, none, none⟩, some limit, none⟩

/-- The `execute` functions of the two tools. -/
structure MemoryTools where
  memoryIngest : Items → Execution (Except PyError IngestResult)
  memorySearch : Items → Execution (Except PyError MemorySearchOutput)

structure AsyncMemoryTools where
  memoryIngest : Items → Execution (Coroutine PyError IngestResult)
  memorySearch : Items → Execution (Coroutine PyError MemorySearchOutput)

/-- `memory_tools`. -/
def memoryTools (client : SyncClient) (user : PyValue) : Except PyError MemoryTools := do
  let boundUser ← userScope user
  .ok
    { memoryIngest := fun arguments =>
        execute "IngestArguments" IngestArguments.ofItems arguments fun parsed =>
          let input := textIngest boundUser parsed.content
          ⟨[.ingest input], client.ingest input⟩
      memorySearch := fun arguments =>
        execute "SearchArguments" SearchArguments.ofItems arguments fun parsed =>
          let request := searchRequest boundUser parsed.query parsed.limit
          ⟨[.search request], do
            let page ← client.search request
            projectSearch page parsed.limit⟩ }

/-- `async_memory_tools`. -/
def asyncMemoryTools (client : AsyncClient) (user : PyValue) :
    Except PyError AsyncMemoryTools := do
  let boundUser ← userScope user
  .ok
    { memoryIngest := fun arguments =>
        executeAsync "IngestArguments" IngestArguments.ofItems arguments fun parsed =>
          let input := textIngest boundUser parsed.content
          ⟨[.ingest input], client.ingest input⟩
      memorySearch := fun arguments =>
        executeAsync "SearchArguments" SearchArguments.ofItems arguments fun parsed =>
          let request := searchRequest boundUser parsed.query parsed.limit
          ⟨[.search request],
            (client.search request).andThen fun page => projectSearch page parsed.limit⟩ }

theorem userScope_ok {user : PyValue} {bound : Subtype AcceptedUser}
    (h : userScope user = .ok bound) : user = .str bound := by
  unfold userScope at h
  split at h
  · rename_i scope hscope
    cases h
    exact ToolScope.ofItems_user.mp hscope
  · cases h

theorem userScope_str (bound : Subtype AcceptedUser) : userScope (.str bound) = .ok bound := by
  have hscope : ToolScope.ofItems [("user", .str bound)] = some ⟨bound⟩ :=
    ToolScope.ofItems_user.mpr rfl
  rw [userScope, hscope]

theorem memoryTools_accepted (client : SyncClient) (bound : Subtype AcceptedUser) :
    ∃ tools, memoryTools client (.str bound) = .ok tools := by
  rw [memoryTools, userScope_str]
  exact ⟨_, rfl⟩

theorem asyncMemoryTools_accepted (client : AsyncClient) (bound : Subtype AcceptedUser) :
    ∃ tools, asyncMemoryTools client (.str bound) = .ok tools := by
  rw [asyncMemoryTools, userScope_str]
  exact ⟨_, rfl⟩

/-- The arguments ask to store this content, and for nothing else. -/
structure IngestAsked (arguments : Items) (content : String) : Prop where
  keys : ∀ key ∈ Items.keys arguments, key = "content"
  lookupContent : arguments.lookup "content" = some (.str content)
  accepted : AcceptedText maxContentLength content

/-- The arguments ask for this search, and for nothing else. -/
structure SearchAsked (arguments : Items) (query : String) (limit : ℤ) : Prop where
  keys : ∀ key ∈ Items.keys arguments, key = "query" ∨ key = "limit"
  lookupQuery : arguments.lookup "query" = some (.str query)
  lookupLimit : arguments.lookup "limit" = none ∧ limit = 5 ∨
    arguments.lookup "limit" = some (.int limit)
  accepted : AcceptedText maxQueryLength query
  bounds : 1 ≤ limit ∧ limit ≤ 20

/-- The client is called once for the user with what the arguments ask for, or not at all when
they are not in order. -/
def IngestCalls (user : String) (arguments : Items) (calls : List ClientCall) : Prop :=
  (∃ content, IngestAsked arguments content ∧
    calls = [.ingest ⟨⟨some user, none, none, none⟩, none, none, none, .text content⟩]) ∨
  ((∀ content, ¬IngestAsked arguments content) ∧ calls = [])

def SearchCalls (user : String) (arguments : Items) (calls : List ClientCall) : Prop :=
  (∃ query limit, SearchAsked arguments query limit ∧
    calls = [.search ⟨query, ⟨some user, none, none, none⟩, some limit, none⟩]) ∨
  ((∀ query limit, ¬SearchAsked arguments query limit) ∧ calls = [])

/-- An `Exception` comes out as the tools' error, with the one message it has. -/
def Safe {α : Type} (outcome : Except PyError α) : Prop :=
  ∀ e, outcome = .error e → e.isException = true → e = .memoryToolError "Memory tool failed."

def IngestOutcome {ρ : Type} (user : String) (arguments : Items) (answer : IngestInput → ρ)
    (refusal outcome : ρ) : Prop :=
  (∀ content, IngestAsked arguments content → outcome = answer (textIngest user content)) ∧
    ((∀ content, ¬IngestAsked arguments content) → outcome = refusal)

def SearchOutcome {ρ : Type} (user : String) (arguments : Items)
    (answer : SearchRequest → ℤ → ρ) (refusal outcome : ρ) : Prop :=
  (∀ query limit, SearchAsked arguments query limit →
    outcome = answer (searchRequest user query limit) limit) ∧
    ((∀ query limit, ¬SearchAsked arguments query limit) → outcome = refusal)

structure SyncContract (client : SyncClient) (user : String) (tools : MemoryTools)
    (arguments : Items) : Prop where
  ingestCalls : IngestCalls user arguments (tools.memoryIngest arguments).calls
  searchCalls : SearchCalls user arguments (tools.memorySearch arguments).calls
  ingestOutcome : IngestOutcome user arguments
    (fun input => (client.ingest input).mapError safeError)
    (.error (.memoryToolError "Memory tool failed.")) (tools.memoryIngest arguments).outcome
  searchOutcome : SearchOutcome user arguments
    (fun request limit =>
      (client.search request >>= fun page => projectSearch page limit).mapError safeError)
    (.error (.memoryToolError "Memory tool failed.")) (tools.memorySearch arguments).outcome
  ingestSafe : Safe (tools.memoryIngest arguments).outcome
  searchSafe : Safe (tools.memorySearch arguments).outcome

/-- What the async tools do with these arguments, however the event loop resumes them and
whatever it throws into them. -/
structure AsyncContract (client : AsyncClient) (user : String) (tools : AsyncMemoryTools)
    (arguments : Items) (resumptions : List (Option PyError)) : Prop where
  ingestCalls : IngestCalls user arguments (tools.memoryIngest arguments).calls
  searchCalls : SearchCalls user arguments (tools.memorySearch arguments).calls
  ingestOutcome : IngestOutcome user arguments
    (fun input => ((client.ingest input).run resumptions).map (·.mapError safeError))
    (some (.error (.memoryToolError "Memory tool failed.")))
    ((tools.memoryIngest arguments).outcome.run resumptions)
  searchOutcome : SearchOutcome user arguments
    (fun request limit => ((client.search request).run resumptions).map fun page =>
      (page >>= fun page => projectSearch page limit).mapError safeError)
    (some (.error (.memoryToolError "Memory tool failed.")))
    ((tools.memorySearch arguments).outcome.run resumptions)
  ingestSafe : ∀ outcome,
    (tools.memoryIngest arguments).outcome.run resumptions = some outcome → Safe outcome
  searchSafe : ∀ outcome,
    (tools.memorySearch arguments).outcome.run resumptions = some outcome → Safe outcome

theorem ingestAsked_iff {arguments : Items} {content : String} :
    IngestAsked arguments content ↔
      ∃ parsed, IngestArguments.ofItems arguments = some parsed ∧ parsed.content.val = content := by
  constructor
  · intro h
    refine ⟨⟨content, h.accepted⟩, ?_, rfl⟩
    exact IngestArguments.ofItems_eq_some.mpr ⟨h.keys, h.lookupContent⟩
  · rintro ⟨parsed, hparsed, rfl⟩
    obtain ⟨hkeys, hcontent⟩ := IngestArguments.ofItems_eq_some.mp hparsed
    exact ⟨hkeys, hcontent, parsed.content.property⟩

theorem searchAsked_iff {arguments : Items} {query : String} {limit : ℤ} :
    SearchAsked arguments query limit ↔
      ∃ parsed, SearchArguments.ofItems arguments = some parsed ∧ parsed.query.val = query ∧
        parsed.limit.val = limit := by
  constructor
  · intro h
    exact ⟨⟨⟨query, h.accepted⟩, ⟨limit, h.bounds⟩⟩,
      SearchArguments.ofItems_eq_some.mpr ⟨h.keys, h.lookupQuery, h.lookupLimit⟩, rfl, rfl⟩
  · rintro ⟨parsed, hparsed, rfl, rfl⟩
    obtain ⟨hkeys, hquery, hlimit⟩ := SearchArguments.ofItems_eq_some.mp hparsed
    exact ⟨hkeys, hquery, hlimit, parsed.query.property, parsed.limit.property⟩

theorem ingestCalls_of_parsed {user : String} {arguments : Items} {calls : List ClientCall}
    (hsome : ∀ parsed, IngestArguments.ofItems arguments = some parsed →
      calls = [.ingest (textIngest user parsed.content)])
    (hnone : IngestArguments.ofItems arguments = none → calls = []) :
    IngestCalls user arguments calls := by
  cases hparsed : IngestArguments.ofItems arguments with
  | some parsed =>
    exact .inl ⟨parsed.content, ingestAsked_iff.mpr ⟨parsed, hparsed, rfl⟩, hsome parsed hparsed⟩
  | none =>
    refine .inr ⟨fun content hasked => ?_, hnone hparsed⟩
    obtain ⟨parsed, hsome, -⟩ := ingestAsked_iff.mp hasked
    cases hparsed.symm.trans hsome

theorem searchCalls_of_parsed {user : String} {arguments : Items} {calls : List ClientCall}
    (hsome : ∀ parsed, SearchArguments.ofItems arguments = some parsed →
      calls = [.search (searchRequest user parsed.query parsed.limit)])
    (hnone : SearchArguments.ofItems arguments = none → calls = []) :
    SearchCalls user arguments calls := by
  cases hparsed : SearchArguments.ofItems arguments with
  | some parsed =>
    exact .inl ⟨parsed.query, parsed.limit, searchAsked_iff.mpr ⟨parsed, hparsed, rfl, rfl⟩,
      hsome parsed hparsed⟩
  | none =>
    refine .inr ⟨fun query limit hasked => ?_, hnone hparsed⟩
    obtain ⟨parsed, hsome, -⟩ := searchAsked_iff.mp hasked
    cases hparsed.symm.trans hsome

theorem ingestOutcome_of_parsed {ρ : Type} {user : String} {arguments : Items}
    {answer : IngestInput → ρ} {refusal outcome : ρ}
    (hsome : ∀ parsed, IngestArguments.ofItems arguments = some parsed →
      outcome = answer (textIngest user parsed.content))
    (hnone : IngestArguments.ofItems arguments = none → outcome = refusal) :
    IngestOutcome user arguments answer refusal outcome := by
  refine ⟨fun content hasked => ?_, fun hrefused => hnone ?_⟩
  · obtain ⟨parsed, hparsed, rfl⟩ := ingestAsked_iff.mp hasked
    exact hsome parsed hparsed
  · by_contra hne
    obtain ⟨parsed, hparsed⟩ := Option.ne_none_iff_exists'.mp hne
    exact hrefused _ (ingestAsked_iff.mpr ⟨parsed, hparsed, rfl⟩)

theorem searchOutcome_of_parsed {ρ : Type} {user : String} {arguments : Items}
    {answer : SearchRequest → ℤ → ρ} {refusal outcome : ρ}
    (hsome : ∀ parsed, SearchArguments.ofItems arguments = some parsed →
      outcome = answer (searchRequest user parsed.query parsed.limit) parsed.limit)
    (hnone : SearchArguments.ofItems arguments = none → outcome = refusal) :
    SearchOutcome user arguments answer refusal outcome := by
  refine ⟨fun query limit hasked => ?_, fun hrefused => hnone ?_⟩
  · obtain ⟨parsed, hparsed, rfl, rfl⟩ := searchAsked_iff.mp hasked
    exact hsome parsed hparsed
  · by_contra hne
    obtain ⟨parsed, hparsed⟩ := Option.ne_none_iff_exists'.mp hne
    exact hrefused _ _ (searchAsked_iff.mpr ⟨parsed, hparsed, rfl, rfl⟩)

theorem safe_mapError {α : Type} (outcome : Except PyError α) :
    Safe (outcome.mapError safeError) := by
  intro e h hexception
  cases outcome with
  | ok a => cases h
  | error raised =>
    have he : safeError raised = e := Except.error.inj h
    rw [← he] at hexception ⊢
    unfold safeError at hexception ⊢
    split
    · rfl
    · rename_i hraised
      rw [if_neg hraised] at hexception
      exact absurd hexception hraised

section

variable {α β : Type} {schema : String} {validate : Items → Option α} {arguments : Items}

theorem execute_parsed (run : α → Execution (Except PyError β)) {parsed : α}
    (h : validate arguments = some parsed) :
    execute schema validate arguments run =
      ⟨(run parsed).calls, (run parsed).outcome.mapError safeError⟩ := by
  rw [execute, h]
  rfl

theorem execute_refused (run : α → Execution (Except PyError β))
    (h : validate arguments = none) :
    execute schema validate arguments run =
      ⟨[], .error (.memoryToolError "Memory tool failed.")⟩ := by
  rw [execute, h]
  rfl

theorem safe_execute (run : α → Execution (Except PyError β)) :
    Safe (execute schema validate arguments run).outcome := by
  unfold execute
  cases modelValidate schema (validate arguments) with
  | error e => exact safe_mapError (.error e)
  | ok parsed => exact safe_mapError _

theorem executeAsync_parsed (run : α → Execution (Coroutine PyError β)) {parsed : α}
    (h : validate arguments = some parsed) :
    executeAsync schema validate arguments run =
      ⟨(run parsed).calls, (run parsed).outcome.mapError safeError⟩ := by
  rw [executeAsync, h]
  rfl

theorem executeAsync_refused (run : α → Execution (Coroutine PyError β))
    (h : validate arguments = none) :
    executeAsync schema validate arguments run =
      ⟨[], .ends (.error (.memoryToolError "Memory tool failed."))⟩ := by
  rw [executeAsync, h]
  rfl

theorem safe_executeAsync (run : α → Execution (Coroutine PyError β))
    (resumptions : List (Option PyError)) (outcome : Except PyError β)
    (h : (executeAsync schema validate arguments run).outcome.run resumptions = some outcome) :
    Safe outcome := by
  unfold executeAsync at h
  cases hparsed : modelValidate schema (validate arguments) with
  | error e =>
    rw [hparsed, Coroutine.run_ends] at h
    rw [← Option.some.inj h]
    exact safe_mapError (.error e)
  | ok parsed =>
    simp only [hparsed, Coroutine.run_mapError] at h
    obtain ⟨inner, -, rfl⟩ := Option.map_eq_some_iff.mp h
    exact safe_mapError inner

end

theorem memoryTools_contract {client : SyncClient} {user : PyValue} {tools : MemoryTools}
    (h : memoryTools client user = .ok tools) :
    ∃ bound, user = .str bound ∧ ∀ arguments, SyncContract client bound tools arguments := by
  obtain ⟨bound, hbound, h⟩ := Except.bind_ok h
  cases h
  refine ⟨bound, userScope_ok hbound, fun arguments => ?_⟩
  constructor
  · exact ingestCalls_of_parsed (fun _ hparsed => congrArg _ (execute_parsed _ hparsed))
      fun hparsed => congrArg _ (execute_refused _ hparsed)
  · exact searchCalls_of_parsed (fun _ hparsed => congrArg _ (execute_parsed _ hparsed))
      fun hparsed => congrArg _ (execute_refused _ hparsed)
  · exact ingestOutcome_of_parsed (fun _ hparsed => congrArg _ (execute_parsed _ hparsed))
      fun hparsed => congrArg _ (execute_refused _ hparsed)
  · exact searchOutcome_of_parsed (fun _ hparsed => congrArg _ (execute_parsed _ hparsed))
      fun hparsed => congrArg _ (execute_refused _ hparsed)
  · exact safe_execute _
  · exact safe_execute _

theorem asyncMemoryTools_contract {client : AsyncClient} {user : PyValue}
    {tools : AsyncMemoryTools} (h : asyncMemoryTools client user = .ok tools) :
    ∃ bound, user = .str bound ∧
      ∀ arguments resumptions, AsyncContract client bound tools arguments resumptions := by
  obtain ⟨bound, hbound, h⟩ := Except.bind_ok h
  cases h
  refine ⟨bound, userScope_ok hbound, fun arguments resumptions => ?_⟩
  constructor
  · exact ingestCalls_of_parsed (fun _ hparsed => congrArg _ (executeAsync_parsed _ hparsed))
      fun hparsed => congrArg _ (executeAsync_refused _ hparsed)
  · exact searchCalls_of_parsed (fun _ hparsed => congrArg _ (executeAsync_parsed _ hparsed))
      fun hparsed => congrArg _ (executeAsync_refused _ hparsed)
  · refine ingestOutcome_of_parsed (fun parsed hparsed => ?_) fun hparsed => ?_
    · simp only [executeAsync_parsed _ hparsed, Coroutine.run_mapError]
    · simp only [executeAsync_refused _ hparsed, Coroutine.run_ends]
  · refine searchOutcome_of_parsed (fun parsed hparsed => ?_) fun hparsed => ?_
    · simp only [executeAsync_parsed _ hparsed, Coroutine.run_mapError, Coroutine.run_andThen,
        Option.map_map]
      rfl
    · simp only [executeAsync_refused _ hparsed, Coroutine.run_ends]
  · exact safe_executeAsync _ resumptions
  · exact safe_executeAsync _ resumptions

/-- The tools act for the user they were made for, whatever their arguments are, and tell
nothing of what went wrong. -/
theorem tools_keep_identity (user : PyValue) :
    (∀ client tools, memoryTools client user = .ok tools → ∃ bound, user = .str bound ∧
      ∀ arguments, SyncContract client bound tools arguments) ∧
    (∀ client tools, asyncMemoryTools client user = .ok tools → ∃ bound, user = .str bound ∧
      ∀ arguments resumptions, AsyncContract client bound tools arguments resumptions) :=
  ⟨fun _ _ => memoryTools_contract, fun _ _ => asyncMemoryTools_contract⟩

def emptyClient : SyncClient := ⟨fun _ => .ok ⟨[], [], []⟩, fun _ => .ok ⟨[], none, none⟩⟩

/-- An async client that waits once and fails with what is thrown into it. -/
def waitingClient : AsyncClient :=
  ⟨fun _ => .suspends fun thrown => .ends (thrown.elim (.ok ⟨[], [], []⟩) .error),
    fun _ => .suspends fun thrown => .ends (thrown.elim (.ok ⟨[], none, none⟩) .error)⟩

theorem tools_keep_identity_alice :
    (∃ tools, memoryTools emptyClient (.str "alice") = .ok tools ∧ ∃ bound,
      PyValue.str "alice" = .str bound ∧
      ∀ arguments, SyncContract emptyClient bound tools arguments) ∧
    ∃ tools, asyncMemoryTools waitingClient (.str "alice") = .ok tools ∧ ∃ bound,
      PyValue.str "alice" = .str bound ∧
      ∀ arguments resumptions, AsyncContract waitingClient bound tools arguments resumptions := by
  have haccepted : AcceptedUser "alice" := by decide +kernel
  constructor
  · obtain ⟨tools, htools⟩ := memoryTools_accepted emptyClient ⟨"alice", haccepted⟩
    exact ⟨tools, htools, (tools_keep_identity _).1 emptyClient tools htools⟩
  · obtain ⟨tools, htools⟩ := asyncMemoryTools_accepted waitingClient ⟨"alice", haccepted⟩
    exact ⟨tools, htools, (tools_keep_identity _).2 waitingClient tools htools⟩

end AtomicMemory.Tools
