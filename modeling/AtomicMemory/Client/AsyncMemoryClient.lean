import AtomicMemory.Lib.Machine
import AtomicMemory.Memory.Service
import Mathlib.Data.Option.Basic

-- `AsyncMemoryClient.initialize`, `_run_initialize` and `close`, with the service
-- calls under them, as one machine on the client, its initialization tasks and the
-- calls in progress. A label is one step of the event loop: code between two awaits
-- is one step, and steps may come in any order in which asyncio could schedule them.

namespace AtomicMemory.AsyncClient

abbrev RunId := ℕ
abbrev CallId := ℕ

/-- An `AsyncProviderRegistry`: which object it is, and the names it has a factory for. -/
structure Registry where
  id : ℕ
  names : List String
  deriving DecidableEq

structure Registration where
  provider : ProviderId
  pipeline : ℕ
  deriving DecidableEq

/-- `staged_providers` and `staged_pipelines` of one run. -/
abbrev Staged := List (String × Registration)

/-- What awaited code outside the client does when it is resumed. After a
`Task.cancel()` it is resumed by a `CancelledError`, to which it may answer anything. -/
inductive Response (α : Type)
  | suspends
  | returns (a : α)
  | raises (e : PyError)

/-- One `provider.close()` task of the teardown's `asyncio.gather`. A task cancelled
before its first step never enters the body of its coroutine. -/
inductive CloseTask
  | scheduled (cancelled : Bool)
  | running
  | finished
  deriving DecidableEq

/-- Where a `_run_initialize` task is suspended. -/
inductive Stage
  | created
  | inFactory (name : String) (todo : List String) (staged : Staged)
  | inProviderInit (todo : List String) (staged : Staged)
  | inTeardown (closes : List (ProviderId × CloseTask)) (error : PyError)
  | finished (outcome : Outcome)
  deriving DecidableEq

/-- A `_run_initialize` task; `cancelled` is a `cancel()` that is not delivered yet. -/
structure Run where
  registry : Registry
  stage : Stage
  cancelled : Bool
  deriving DecidableEq

/-- Where a call of `initialize()` or `close()` is suspended. -/
inductive Phase
  /-- `await asyncio.shield(task)`; `outerDone` once the shield's outer future is done. -/
  | awaitingRun (run : RunId) (outerDone : Bool)
  /-- `await task` in `close()`. -/
  | awaitingCancelled (run : RunId)
  /-- `await provider.close()` in the service's `close()`, with the providers after this
  one. `epoch` numbers the commit whose provider map the loop iterates over. -/
  | inServiceClose (epoch : ℕ) (rest : List ProviderId) (firstError : Option PyError)
  | finished (outcome : Outcome)
  deriving DecidableEq

inductive Method
  | initializeCall (registry : Option Registry)
  | closeCall
  deriving DecidableEq

/-- `cancelled` records that the caller was cancelled while it waited. -/
structure Call where
  method : Method
  phase : Phase
  cancelled : Bool
  deriving DecidableEq

/-- The client and its service, the tasks and calls, and last what happened so far:
the providers factories returned, those whose `close()` body has started (ever, and
since the last commit), the number of commits, and every factory called. -/
structure Client where
  initialized : Bool
  initError : Option PyError
  initTask : Option RunId
  providers : List (String × ProviderId)
  pipelines : List (String × ℕ)
  runs : List Run
  calls : List Call
  created : List ProviderId
  closeStarted : List ProviderId
  closedSinceCommit : List ProviderId
  commits : ℕ
  factoryCalls : List (RunId × String)

def Client.new : Client :=
  ⟨false, none, none, [], [], [], [], [], [], [], 0, []⟩

/-- The service's config, and `default_async_registry`. -/
structure Setup where
  config : MemoryServiceConfig
  defaultAsyncRegistry : Registry

def Client.outcome? (c : Client) (r : RunId) : Option Outcome :=
  match c.runs[r]? with
  | some ⟨_, .finished outcome, _⟩ => some outcome
  | _ => none

def Client.updateRun (c : Client) (r : RunId) (f : Run → Run) : Client :=
  { c with runs := c.runs.modify r f }

/-- Suspend run `r` at `stage`, a pending cancellation having been delivered. -/
def Client.suspendRun (c : Client) (r : RunId) (stage : Stage) : Client :=
  c.updateRun r fun run => { run with stage, cancelled := false }

def Client.setPhase (c : Client) (i : CallId) (phase : Phase) : Client :=
  { c with calls := c.calls.modify i fun call => { call with phase } }

/-- The body of `provider.close()` starts. -/
def Client.startClose (c : Client) (p : ProviderId) : Client :=
  { c with
    closeStarted := c.closeStarted ++ [p]
    closedSinceCommit := c.closedSinceCommit ++ [p] }

/-- A `Task.cancel()` passed on to a child of the gather. -/
def cancelCloseTask : ProviderId × CloseTask → ProviderId × CloseTask
  | (p, .scheduled _) => (p, .scheduled true)
  | task => task

/-- `Task.cancel()` on a run that is not done. In the teardown it also cancels the
children of the gather. -/
def cancelRun (run : Run) : Run :=
  match run.stage with
  | .finished _ => run
  | .inTeardown closes error =>
    { run with stage := .inTeardown (closes.map cancelCloseTask) error, cancelled := true }
  | _ => { run with cancelled := true }

def nextFactory (registry : Registry) : List String → Option (String × List String)
  | [] => none
  | name :: todo => if name ∈ registry.names then some (name, todo) else nextFactory registry todo

/-- `_run_initialize` after its `await`: record an `Exception`, or the success. -/
def Client.endRun (c : Client) (r : RunId) : Outcome → Client
  | .returned => { c with initialized := true }.suspendRun r (.finished .returned)
  | .raised e =>
    { c with initError := if e.isException then some e else c.initError }.suspendRun r
      (.finished (.raised e))

/-- `except BaseException` of the service: gather the closes of what is staged. A
gather of nothing is done at once. -/
def Client.failRun (c : Client) (r : RunId) (staged : Staged) (e : PyError) : Client :=
  if staged.isEmpty then c.endRun r (.raised e)
  else c.suspendRun r (.inTeardown (staged.map fun x => (x.2.provider, .scheduled false)) e)

/-- The end of the service's `initialize`: replace both maps. -/
def Client.commit (c : Client) (staged : Staged) : Client :=
  { c with
    providers := staged.map fun x => (x.1, x.2.provider)
    pipelines := staged.map fun x => (x.1, x.2.pipeline)
    closedSinceCommit := []
    commits := c.commits + 1 }

/-- The loop of the service's `initialize` up to its next await. -/
def Client.continueLoop (config : MemoryServiceConfig) (c : Client) (r : RunId)
    (registry : Registry) (todo : List String) (staged : Staged) : Client :=
  match nextFactory registry todo with
  | some (name, rest) =>
    { c with factoryCalls := c.factoryCalls ++ [(r, name)] }.suspendRun r
      (.inFactory name rest staged)
  | none =>
    if config.defaultProvider ∈ staged.map Prod.fst then (c.commit staged).endRun r .returned
    else c.failRun r staged config.missingDefault

def startRun (setup : Setup) (c : Client) (r : RunId) : Option Client :=
  match c.runs[r]? with
  | some ⟨_, .created, true⟩ => some (c.endRun r (.raised .cancelledError))
  | some ⟨registry, .created, false⟩ =>
    some (c.continueLoop setup.config r registry setup.config.providerConfigs [])
  | _ => none

/-- `_resolve_async_registration` is resumed. -/
def factoryStep (c : Client) (r : RunId) (response : Response Registration) : Option Client :=
  match c.runs[r]? with
  | some ⟨_, .inFactory name todo staged, _⟩ =>
    match response with
    | .suspends => some (c.suspendRun r (.inFactory name todo staged))
    | .returns registration =>
      some ({ c with created := c.created ++ [registration.provider] }.suspendRun r
        (.inProviderInit todo (staged ++ [(name, registration)])))
    | .raises e => some (c.failRun r staged e)
  | _ => none

/-- `registration.provider.initialize()` is resumed. -/
def providerInitStep (setup : Setup) (c : Client) (r : RunId) (response : Response Unit) :
    Option Client :=
  match c.runs[r]? with
  | some ⟨registry, .inProviderInit todo staged, _⟩ =>
    match response with
    | .suspends => some (c.suspendRun r (.inProviderInit todo staged))
    | .returns () => some (c.continueLoop setup.config r registry todo staged)
    | .raises e => some (c.failRun r staged e)
  | _ => none

/-- The gather's child `j` makes a step: it starts, or ends in whatever way. -/
def closeTaskStep (c : Client) (r : RunId) (j : ℕ) : Option Client :=
  match c.runs[r]? with
  | some ⟨_, .inTeardown closes error, _⟩ =>
    let setTask (task : CloseTask) (c : Client) : Client := c.updateRun r fun run =>
      { run with stage := .inTeardown (closes.modify j fun x => (x.1, task)) error }
    match closes[j]? with
    | some (p, .scheduled false) => some (setTask .running (c.startClose p))
    | some (_, .scheduled true) | some (_, .running) => some (setTask .finished c)
    | _ => none
  | _ => none

/-- The gather is done. A run cancelled meanwhile leaves it by `CancelledError`. -/
def teardownDone (c : Client) (r : RunId) : Option Client :=
  match c.runs[r]? with
  | some ⟨_, .inTeardown closes error, cancelled⟩ =>
    if closes.all fun x => x.2 = .finished then
      some (c.endRun r (.raised (if cancelled then .cancelledError else error)))
    else none
  | _ => none

/-- `initialize` up to its await, or to its end. A shield around a done task gives its
outcome at once, and `finally` clears the slot. -/
def beginInitialize (setup : Setup) (c : Client) (registry : Option Registry) : Client × Phase :=
  if c.initialized then (c, .finished .returned)
  else match c.initError with
    | some e => (c, .finished (.raised e))
    | none =>
      match c.initTask with
      | none =>
        ({ c with
            runs := c.runs ++ [⟨registry.getD setup.defaultAsyncRegistry, .created, false⟩]
            initTask := some c.runs.length }, .awaitingRun c.runs.length false)
      | some r =>
        match c.outcome? r with
        | some outcome => ({ c with initTask := none }, .finished outcome)
        | none => (c, .awaitingRun r false)

def shieldCallback (c : Client) (i : CallId) : Option Client :=
  match c.calls[i]? with
  | some ⟨_, .awaitingRun r false, _⟩ =>
    if (c.outcome? r).isSome then some (c.setPhase i (.awaitingRun r true)) else none
  | _ => none

/-- `finally: if task.done(): self._init_task = None`. -/
def Client.clearIfDone (c : Client) (r : RunId) : Client :=
  if (c.outcome? r).isSome then { c with initTask := none } else c

def resumeInitialize (c : Client) (i : CallId) : Option Client :=
  match c.calls[i]? with
  | some ⟨_, .awaitingRun r _, true⟩ =>
    some ((c.clearIfDone r).setPhase i (.finished (.raised .cancelledError)))
  | some ⟨_, .awaitingRun r true, false⟩ =>
    match c.outcome? r with
    | some outcome => some ((c.clearIfDone r).setPhase i (.finished outcome))
    | none => none
  | _ => none

/-- `Task.cancel()` on a waiting caller of `initialize()`; the shield keeps it from
the run. -/
def cancelCaller (c : Client) (i : CallId) : Option Client :=
  match c.calls[i]? with
  | some ⟨_, .awaitingRun _ _, _⟩ =>
    some { c with calls := c.calls.modify i fun call => { call with cancelled := true } }
  | _ => none

/-- `finally` in both `close` methods: clear the maps and the flag. -/
def Client.endClose (c : Client) (error : Option PyError) : Client × Phase :=
  ({ c with providers := [], pipelines := [], initialized := false },
    .finished (match error with | none => .returned | some e => .raised e))

def Client.closeNext (c : Client) (epoch : ℕ) (firstError : Option PyError) :
    List ProviderId → Client × Phase
  | [] => c.endClose firstError
  | p :: rest => (c.startClose p, .inServiceClose epoch rest firstError)

/-- `close` after the part about `_init_task`. -/
def Client.closeService (c : Client) : Client × Phase :=
  if c.initialized then c.closeNext c.commits none (c.providers.map Prod.snd)
  else (c, .finished .returned)

/-- `close` up to its first await. -/
def beginClose (c : Client) : Client × Phase :=
  match c.initTask with
  | none => c.closeService
  | some r =>
    match c.outcome? r with
    | some _ => { c with initTask := none }.closeService
    | none => (c.updateRun r cancelRun, .awaitingCancelled r)

/-- `contextlib.suppress(Exception, asyncio.CancelledError)`. -/
def suppressed : Outcome → Bool
  | .returned => true
  | .raised e => e.isException || e = .cancelledError

/-- `await task` in `close` ends. -/
def resumeClose (c : Client) (i : CallId) : Option Client :=
  match c.calls[i]? with
  | some ⟨_, .awaitingCancelled r, _⟩ =>
    match c.outcome? r with
    | some outcome =>
      if suppressed outcome then
        let (c, phase) := { c with initTask := none }.closeService
        some (c.setPhase i phase)
      else some (c.setPhase i (.finished outcome))
    | none => none
  | _ => none

/-- `await provider.close()` in the service's loop is resumed. Only an `Exception` is
kept for the end of the loop. -/
def providerCloseStep (c : Client) (i : CallId) (response : Response Unit) : Option Client :=
  match c.calls[i]? with
  | some ⟨_, .inServiceClose epoch rest firstError, _⟩ =>
    match response with
    | .suspends => some c
    | .returns () =>
      let (c, phase) := c.closeNext epoch firstError rest
      some (c.setPhase i phase)
    | .raises e =>
      let (c, phase) :=
        if e.isException then c.closeNext epoch (firstError <|> some e) rest
        else c.endClose (some e)
      some (c.setPhase i phase)
  | _ => none

inductive Label
  | callInitialize (registry : Option Registry)
  | callClose
  | cancelCaller (i : CallId)
  | startRun (r : RunId)
  | factoryStep (r : RunId) (response : Response Registration)
  | providerInitStep (r : RunId) (response : Response Unit)
  | closeTaskStep (r : RunId) (j : ℕ)
  | teardownDone (r : RunId)
  | shieldCallback (i : CallId)
  | resumeInitialize (i : CallId)
  | resumeClose (i : CallId)
  | providerCloseStep (i : CallId) (response : Response Unit)

def addCall (method : Method) (x : Client × Phase) : Client :=
  { x.1 with calls := x.1.calls ++ [⟨method, x.2, false⟩] }

def step (setup : Setup) (c : Client) : Label → Option Client
  | .callInitialize registry =>
    some (addCall (.initializeCall registry) (beginInitialize setup c registry))
  | .callClose => some (addCall .closeCall (beginClose c))
  | .cancelCaller i => cancelCaller c i
  | .startRun r => startRun setup c r
  | .factoryStep r response => factoryStep c r response
  | .providerInitStep r response => providerInitStep setup c r response
  | .closeTaskStep r j => closeTaskStep c r j
  | .teardownDone r => teardownDone c r
  | .shieldCallback i => shieldCallback c i
  | .resumeInitialize i => resumeInitialize c i
  | .resumeClose i => resumeClose c i
  | .providerCloseStep i response => providerCloseStep c i response

def machine (setup : Setup) : Machine Client Label := ⟨.new, step setup⟩

end AtomicMemory.AsyncClient
