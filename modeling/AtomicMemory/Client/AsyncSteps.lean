import AtomicMemory.Client.AsyncMemoryClient

-- One case lemma for each step function, so that no invariant proof unfolds them, and
-- what every step leaves alone.

namespace AtomicMemory.AsyncClient

/-- A task that was created and is not done. -/
def Client.Unfinished (c : Client) (r : RunId) : Prop :=
  ∃ run, c.runs[r]? = some run ∧ ∀ outcome, run.stage ≠ .finished outcome

theorem outcome?_eq_some {c : Client} {r : RunId} {outcome : Outcome} :
    c.outcome? r = some outcome ↔
      ∃ run, c.runs[r]? = some run ∧ run.stage = .finished outcome := by
  unfold Client.outcome?
  constructor
  · intro h
    split at h
    · rename_i hr
      cases h
      exact ⟨_, hr, rfl⟩
    · cases h
  · rintro ⟨⟨registry, stage, cancelled⟩, hr, hs⟩
    dsimp only at hs
    rw [hr, hs]

theorem unfinished_iff {c : Client} {r : RunId} :
    c.Unfinished r ↔ r < c.runs.length ∧ c.outcome? r = none := by
  constructor
  · rintro ⟨run, hr, hs⟩
    refine ⟨(List.getElem?_eq_some_iff.mp hr).1, ?_⟩
    rw [Option.eq_none_iff_forall_ne_some]
    intro outcome ho
    obtain ⟨run', hr', hs'⟩ := outcome?_eq_some.mp ho
    rw [hr] at hr'
    cases hr'
    exact hs outcome hs'
  · rintro ⟨hlt, ho⟩
    refine ⟨c.runs[r], List.getElem?_eq_getElem hlt, fun outcome hs => ?_⟩
    rw [outcome?_eq_some.mpr ⟨_, List.getElem?_eq_getElem hlt, hs⟩] at ho
    cases ho

instance (c : Client) (r : RunId) : Decidable (c.Unfinished r) :=
  decidable_of_iff _ unfinished_iff.symm

theorem Client.Unfinished.of_outcome?_ne {c : Client} {r : RunId} (h : c.Unfinished r)
    (outcome : Outcome) : c.outcome? r ≠ some outcome := by
  rw [(unfinished_iff.mp h).2]
  exact nofun

theorem not_unfinished_of_outcome {c : Client} {r : RunId} {outcome : Outcome}
    (h : c.outcome? r = some outcome) : ¬ c.Unfinished r := fun hu =>
  hu.of_outcome?_ne outcome h

@[simp] theorem updateRun_runs (c : Client) (r : RunId) (f : Run → Run) :
    (c.updateRun r f).runs = c.runs.modify r f := rfl

theorem outcome?_congr {c c' : Client} {r : RunId} (h : c'.runs[r]? = c.runs[r]?) :
    c'.outcome? r = c.outcome? r := by
  unfold Client.outcome?
  rw [h]

theorem unfinished_congr {c c' : Client} {r : RunId} (h : c'.runs[r]? = c.runs[r]?) :
    c'.Unfinished r ↔ c.Unfinished r := by
  unfold Client.Unfinished
  rw [h]

theorem failRun_cases (c : Client) (r : RunId) (staged : Staged) (e : PyError) :
    (staged = [] ∧ c.failRun r staged e = c.endRun r (.raised e)) ∨
    (staged ≠ [] ∧ c.failRun r staged e = c.suspendRun r
      (.inTeardown (staged.map fun x => (x.2.provider, .scheduled false)) e)) := by
  unfold Client.failRun
  cases staged with
  | nil => exact .inl ⟨rfl, rfl⟩
  | cons x xs => exact .inr ⟨List.cons_ne_nil _ _, rfl⟩

theorem continueLoop_cases (config : MemoryServiceConfig) (c : Client) (r : RunId)
    (registry : Registry) (todo : List String) (staged : Staged) :
    (∃ name rest, nextFactory registry todo = some (name, rest) ∧
      c.continueLoop config r registry todo staged =
        { c with factoryCalls := c.factoryCalls ++ [(r, name)] }.suspendRun r
          (.inFactory name rest staged)) ∨
    (nextFactory registry todo = none ∧ config.defaultProvider ∈ staged.map Prod.fst ∧
      c.continueLoop config r registry todo staged = (c.commit staged).endRun r .returned) ∨
    (nextFactory registry todo = none ∧ config.defaultProvider ∉ staged.map Prod.fst ∧
      c.continueLoop config r registry todo staged = c.failRun r staged config.missingDefault) := by
  unfold Client.continueLoop
  split
  · rename_i name rest h
    exact .inl ⟨name, rest, h, rfl⟩
  · rename_i h
    split
    · rename_i hd
      exact .inr (.inl ⟨h, hd, rfl⟩)
    · rename_i hd
      exact .inr (.inr ⟨h, hd, rfl⟩)

theorem startRun_cases {setup : Setup} {c c' : Client} {r : RunId}
    (h : startRun setup c r = some c') :
    ∃ run, c.runs[r]? = some run ∧ run.stage = .created ∧
      ((run.cancelled = true ∧ c' = c.endRun r (.raised .cancelledError)) ∨
        (run.cancelled = false ∧
          c' = c.continueLoop setup.config r run.registry setup.config.providerConfigs [])) := by
  unfold startRun at h
  split at h
  · rename_i registry hr
    cases h
    exact ⟨_, hr, rfl, .inl ⟨rfl, rfl⟩⟩
  · rename_i registry hr
    cases h
    exact ⟨_, hr, rfl, .inr ⟨rfl, rfl⟩⟩
  · cases h

theorem factoryStep_cases {c c' : Client} {r : RunId} {response : Response Registration}
    (h : factoryStep c r response = some c') :
    ∃ run name todo staged, c.runs[r]? = some run ∧ run.stage = .inFactory name todo staged ∧
      ((response = .suspends ∧ c' = c.suspendRun r (.inFactory name todo staged)) ∨
        (∃ registration, response = .returns registration ∧
          c' = { c with created := c.created ++ [registration.provider] }.suspendRun r
            (.inProviderInit todo (staged ++ [(name, registration)]))) ∨
        ∃ e, response = .raises e ∧ c' = c.failRun r staged e) := by
  unfold factoryStep at h
  split at h
  · rename_i name todo staged cancelled hr
    refine ⟨_, name, todo, staged, hr, rfl, ?_⟩
    cases response with
    | suspends => exact .inl ⟨rfl, (Option.some.inj h).symm⟩
    | returns registration => exact .inr (.inl ⟨registration, rfl, (Option.some.inj h).symm⟩)
    | raises e => exact .inr (.inr ⟨e, rfl, (Option.some.inj h).symm⟩)
  · cases h

theorem providerInitStep_cases {setup : Setup} {c c' : Client} {r : RunId}
    {response : Response Unit} (h : providerInitStep setup c r response = some c') :
    ∃ run todo staged, c.runs[r]? = some run ∧ run.stage = .inProviderInit todo staged ∧
      ((response = .suspends ∧ c' = c.suspendRun r (.inProviderInit todo staged)) ∨
        (response = .returns () ∧
          c' = c.continueLoop setup.config r run.registry todo staged) ∨
        ∃ e, response = .raises e ∧ c' = c.failRun r staged e) := by
  unfold providerInitStep at h
  split at h
  · rename_i registry todo staged cancelled hr
    refine ⟨_, todo, staged, hr, rfl, ?_⟩
    cases response with
    | suspends => exact .inl ⟨rfl, (Option.some.inj h).symm⟩
    | returns u => exact .inr (.inl ⟨rfl, (Option.some.inj h).symm⟩)
    | raises e => exact .inr (.inr ⟨e, rfl, (Option.some.inj h).symm⟩)
  · cases h

/-- The stage of a teardown whose child `j` is set to `task`. -/
def setCloseTask (closes : List (ProviderId × CloseTask)) (error : PyError) (j : ℕ)
    (task : CloseTask) (run : Run) : Run :=
  { run with stage := .inTeardown (closes.modify j fun x => (x.1, task)) error }

theorem closeTaskStep_cases {c c' : Client} {r : RunId} {j : ℕ}
    (h : closeTaskStep c r j = some c') :
    ∃ run closes error p task, c.runs[r]? = some run ∧ run.stage = .inTeardown closes error ∧
      closes[j]? = some (p, task) ∧
      ((task = .scheduled false ∧
          c' = (c.startClose p).updateRun r (setCloseTask closes error j .running)) ∨
        ((task = .scheduled true ∨ task = .running) ∧
          c' = c.updateRun r (setCloseTask closes error j .finished))) := by
  unfold closeTaskStep at h
  split at h
  · rename_i closes error cancelled hr
    dsimp only at h
    split at h
    · rename_i p hj
      exact ⟨_, closes, error, p, _, hr, rfl, hj, .inl ⟨rfl, (Option.some.inj h).symm⟩⟩
    · rename_i p hj
      exact ⟨_, closes, error, p, _, hr, rfl, hj, .inr ⟨.inl rfl, (Option.some.inj h).symm⟩⟩
    · rename_i p hj
      exact ⟨_, closes, error, p, _, hr, rfl, hj, .inr ⟨.inr rfl, (Option.some.inj h).symm⟩⟩
    · cases h
  · cases h

theorem teardownDone_cases {c c' : Client} {r : RunId} (h : teardownDone c r = some c') :
    ∃ run closes error, c.runs[r]? = some run ∧ run.stage = .inTeardown closes error ∧
      (∀ x ∈ closes, x.2 = .finished) ∧
      c' = c.endRun r (.raised (if run.cancelled then .cancelledError else error)) := by
  unfold teardownDone at h
  split at h
  · rename_i closes error cancelled hr
    split at h
    · rename_i hall
      exact ⟨_, closes, error, hr, rfl, by simpa using hall, (Option.some.inj h).symm⟩
    · cases h
  · cases h

theorem shieldCallback_cases {c c' : Client} {i : CallId} (h : shieldCallback c i = some c') :
    ∃ call r outcome, c.calls[i]? = some call ∧ call.phase = .awaitingRun r false ∧
      c.outcome? r = some outcome ∧ c' = c.setPhase i (.awaitingRun r true) := by
  unfold shieldCallback at h
  split at h
  · rename_i r cancelled hi
    split at h
    · rename_i ho
      obtain ⟨outcome, ho⟩ := Option.isSome_iff_exists.mp ho
      exact ⟨_, r, outcome, hi, rfl, ho, (Option.some.inj h).symm⟩
    · cases h
  · cases h

theorem resumeInitialize_cases {c c' : Client} {i : CallId} (h : resumeInitialize c i = some c') :
    ∃ call r outerDone, c.calls[i]? = some call ∧ call.phase = .awaitingRun r outerDone ∧
      ((call.cancelled = true ∧
          c' = (c.clearIfDone r).setPhase i (.finished (.raised .cancelledError))) ∨
        ∃ outcome, call.cancelled = false ∧ outerDone = true ∧ c.outcome? r = some outcome ∧
          c' = (c.clearIfDone r).setPhase i (.finished outcome)) := by
  unfold resumeInitialize at h
  split at h
  · rename_i r outerDone hi
    exact ⟨_, r, outerDone, hi, rfl, .inl ⟨rfl, (Option.some.inj h).symm⟩⟩
  · rename_i r hi
    split at h
    · rename_i outcome ho
      exact ⟨_, r, true, hi, rfl, .inr ⟨outcome, rfl, rfl, ho, (Option.some.inj h).symm⟩⟩
    · cases h
  · cases h

theorem cancelCaller_cases {c c' : Client} {i : CallId} (h : cancelCaller c i = some c') :
    ∃ call r outerDone, c.calls[i]? = some call ∧ call.phase = .awaitingRun r outerDone ∧
      c' = { c with calls := c.calls.modify i fun call => { call with cancelled := true } } := by
  unfold cancelCaller at h
  split at h
  · rename_i r outerDone cancelled hi
    exact ⟨_, r, outerDone, hi, rfl, (Option.some.inj h).symm⟩
  · cases h

theorem beginInitialize_cases (setup : Setup) (c : Client) (registry : Option Registry) :
    (c.initialized = true ∧ beginInitialize setup c registry = (c, .finished .returned)) ∨
    (c.initialized = false ∧ ∃ e, c.initError = some e ∧
      beginInitialize setup c registry = (c, .finished (.raised e))) ∨
    (c.initialized = false ∧ c.initError = none ∧ c.initTask = none ∧
      beginInitialize setup c registry =
        ({ c with
            runs := c.runs ++ [⟨registry.getD setup.defaultAsyncRegistry, .created, false⟩]
            initTask := some c.runs.length }, .awaitingRun c.runs.length false)) ∨
    (c.initialized = false ∧ c.initError = none ∧ ∃ r outcome, c.initTask = some r ∧
      c.outcome? r = some outcome ∧
      beginInitialize setup c registry = ({ c with initTask := none }, .finished outcome)) ∨
    (c.initialized = false ∧ c.initError = none ∧ ∃ r, c.initTask = some r ∧
      c.outcome? r = none ∧ beginInitialize setup c registry = (c, .awaitingRun r false)) := by
  unfold beginInitialize
  -- in the order in which `initialize` reads the two flags, the slot and the task in it
  split
  · rename_i hi
    exact .inl ⟨hi, rfl⟩
  rename_i hi
  have hi : c.initialized = false := by simpa using hi
  split
  · rename_i e he
    exact .inr (.inl ⟨hi, e, he, rfl⟩)
  rename_i he
  split
  · rename_i ht
    exact .inr (.inr (.inl ⟨hi, he, ht, rfl⟩))
  rename_i r ht
  split
  · rename_i outcome ho
    exact .inr (.inr (.inr (.inl ⟨hi, he, r, outcome, ht, ho, rfl⟩)))
  · rename_i ho
    exact .inr (.inr (.inr (.inr ⟨hi, he, r, ht, ho, rfl⟩)))

theorem closeService_cases (c : Client) :
    (c.initialized = false ∧ c.closeService = (c, .finished .returned)) ∨
    (c.initialized = true ∧
      c.closeService = c.closeNext c.commits none (c.providers.map Prod.snd)) := by
  unfold Client.closeService
  cases hi : c.initialized with
  | false => exact .inl ⟨rfl, rfl⟩
  | true => exact .inr ⟨rfl, rfl⟩

theorem beginClose_cases (c : Client) :
    (c.initTask = none ∧ beginClose c = c.closeService) ∨
    (∃ r outcome, c.initTask = some r ∧ c.outcome? r = some outcome ∧
      beginClose c = { c with initTask := none }.closeService) ∨
    (∃ r, c.initTask = some r ∧ c.outcome? r = none ∧
      beginClose c = (c.updateRun r cancelRun, .awaitingCancelled r)) := by
  unfold beginClose
  split
  · rename_i ht
    exact .inl ⟨ht, rfl⟩
  rename_i r ht
  split
  · rename_i outcome ho
    exact .inr (.inl ⟨r, outcome, ht, ho, rfl⟩)
  · rename_i ho
    exact .inr (.inr ⟨r, ht, ho, rfl⟩)

theorem resumeClose_cases {c c' : Client} {i : CallId} (h : resumeClose c i = some c') :
    ∃ call r outcome, c.calls[i]? = some call ∧ call.phase = .awaitingCancelled r ∧
      c.outcome? r = some outcome ∧
      ((suppressed outcome = true ∧
          c' = ({ c with initTask := none }.closeService).1.setPhase i
            ({ c with initTask := none }.closeService).2) ∨
        (suppressed outcome = false ∧ c' = c.setPhase i (.finished outcome))) := by
  unfold resumeClose at h
  split at h
  · rename_i r cancelled hi
    split at h
    · rename_i outcome ho
      split at h
      · rename_i hs
        exact ⟨_, r, outcome, hi, rfl, ho, .inl ⟨hs, (Option.some.inj h).symm⟩⟩
      · rename_i hs
        exact ⟨_, r, outcome, hi, rfl, ho, .inr ⟨by simpa using hs, (Option.some.inj h).symm⟩⟩
    · cases h
  · cases h

theorem providerCloseStep_cases {c c' : Client} {i : CallId} {response : Response Unit}
    (h : providerCloseStep c i response = some c') :
    ∃ call epoch rest firstError, c.calls[i]? = some call ∧
      call.phase = .inServiceClose epoch rest firstError ∧
      (c' = c ∨
        (∃ error, (response = .returns () ∨ ∃ e, response = .raises e ∧ e.isException = true) ∧
          c' = (c.closeNext epoch error rest).1.setPhase i (c.closeNext epoch error rest).2) ∨
        ∃ e, response = .raises e ∧ e.isException = false ∧
          c' = (c.endClose (some e)).1.setPhase i (c.endClose (some e)).2) := by
  unfold providerCloseStep at h
  split at h
  · rename_i epoch rest firstError cancelled hi
    refine ⟨_, epoch, rest, firstError, hi, rfl, ?_⟩
    cases response with
    | suspends => exact .inl (Option.some.inj h).symm
    | returns u => exact .inr (.inl ⟨firstError, .inl rfl, (Option.some.inj h).symm⟩)
    | raises e =>
      cases he : e.isException with
      | true =>
        simp only [he, if_true] at h
        exact .inr (.inl ⟨firstError <|> some e, .inr ⟨e, rfl, he⟩, (Option.some.inj h).symm⟩)
      | false =>
        simp only [he] at h
        exact .inr (.inr ⟨e, rfl, he, (Option.some.inj h).symm⟩)
  · cases h

theorem closeNext_cases (c : Client) (epoch : ℕ) (firstError : Option PyError)
    (rest : List ProviderId) :
    (rest = [] ∧ c.closeNext epoch firstError rest = c.endClose firstError) ∨
    (∃ p ps, rest = p :: ps ∧
      c.closeNext epoch firstError rest =
        (c.startClose p, .inServiceClose epoch ps firstError)) := by
  cases rest with
  | nil => exact .inl ⟨rfl, rfl⟩
  | cons p ps => exact .inr ⟨p, ps, rfl, rfl⟩

@[simp] theorem suspendRun_runs (c : Client) (r : RunId) (stage : Stage) :
    (c.suspendRun r stage).runs =
      c.runs.modify r fun run => { run with stage, cancelled := false } := rfl

theorem endRun_runs (c : Client) (r : RunId) (outcome : Outcome) :
    (c.endRun r outcome).runs =
      c.runs.modify r fun run => { run with stage := .finished outcome, cancelled := false } := by
  cases outcome <;> rfl

/-- What a step of run `r` cannot touch: the other runs, the slot and the calls. -/
structure RunStep (c c' : Client) (r : RunId) : Prop where
  runs : ∃ f, c'.runs = c.runs.modify r f
  initTask : c'.initTask = c.initTask
  calls : c'.calls = c.calls

theorem runStep_suspendRun (c : Client) (r : RunId) (stage : Stage) :
    RunStep c (c.suspendRun r stage) r := ⟨⟨_, rfl⟩, rfl, rfl⟩

theorem runStep_endRun (c : Client) (r : RunId) (outcome : Outcome) :
    RunStep c (c.endRun r outcome) r := by
  refine ⟨⟨_, endRun_runs c r outcome⟩, ?_, ?_⟩ <;> cases outcome <;> rfl

theorem runStep_failRun (c : Client) (r : RunId) (staged : Staged) (e : PyError) :
    RunStep c (c.failRun r staged e) r := by
  obtain ⟨-, h⟩ | ⟨-, h⟩ := failRun_cases c r staged e <;> rw [h]
  · exact runStep_endRun c r _
  · exact runStep_suspendRun c r _

theorem runStep_continueLoop (config : MemoryServiceConfig) (c : Client) (r : RunId)
    (registry : Registry) (todo : List String) (staged : Staged) :
    RunStep c (c.continueLoop config r registry todo staged) r := by
  obtain ⟨name, rest, -, h⟩ | ⟨-, -, h⟩ | ⟨-, -, h⟩ :=
    continueLoop_cases config c r registry todo staged <;> rw [h]
  · exact ⟨⟨_, rfl⟩, rfl, rfl⟩
  · exact ⟨⟨_, rfl⟩, rfl, rfl⟩
  · exact runStep_failRun c r staged _

theorem unfinished_of_stage {c : Client} {r : RunId} {run : Run} (hr : c.runs[r]? = some run)
    (h : ∀ outcome, run.stage ≠ .finished outcome) : c.Unfinished r := ⟨run, hr, h⟩

/-- The labels that are a step of run `r`. -/
def Label.run? : Label → Option RunId
  | .startRun r | .factoryStep r _ | .providerInitStep r _ | .closeTaskStep r _
  | .teardownDone r => some r
  | _ => none

theorem step_run {setup : Setup} {c c' : Client} {l : Label} {r : RunId}
    (h : step setup c l = some c') (hl : l.run? = some r) : c.Unfinished r ∧ RunStep c c' r := by
  cases l <;> simp only [Label.run?, reduceCtorEq, Option.some.injEq] at hl <;> subst hl
  case startRun r =>
    obtain ⟨run, hr, hs, ⟨-, rfl⟩ | ⟨-, rfl⟩⟩ := startRun_cases h
    · exact ⟨unfinished_of_stage hr (by simp [hs]), runStep_endRun c r _⟩
    · exact ⟨unfinished_of_stage hr (by simp [hs]), runStep_continueLoop _ c r _ _ _⟩
  case factoryStep r response =>
    obtain ⟨run, name, todo, staged, hr, hs, ⟨-, rfl⟩ | ⟨registration, -, rfl⟩ | ⟨e, -, rfl⟩⟩ :=
      factoryStep_cases h
    · exact ⟨unfinished_of_stage hr (by simp [hs]), runStep_suspendRun c r _⟩
    · exact ⟨unfinished_of_stage hr (by simp [hs]), ⟨_, rfl⟩, rfl, rfl⟩
    · exact ⟨unfinished_of_stage hr (by simp [hs]), runStep_failRun c r staged e⟩
  case providerInitStep r response =>
    obtain ⟨run, todo, staged, hr, hs, ⟨-, rfl⟩ | ⟨-, rfl⟩ | ⟨e, -, rfl⟩⟩ :=
      providerInitStep_cases h
    · exact ⟨unfinished_of_stage hr (by simp [hs]), runStep_suspendRun c r _⟩
    · exact ⟨unfinished_of_stage hr (by simp [hs]), runStep_continueLoop _ c r _ _ _⟩
    · exact ⟨unfinished_of_stage hr (by simp [hs]), runStep_failRun c r staged e⟩
  case closeTaskStep r j =>
    obtain ⟨run, closes, error, p, task, hr, hs, -, ⟨-, rfl⟩ | ⟨-, rfl⟩⟩ := closeTaskStep_cases h
    · exact ⟨unfinished_of_stage hr (by simp [hs]), ⟨_, rfl⟩, rfl, rfl⟩
    · exact ⟨unfinished_of_stage hr (by simp [hs]), ⟨_, rfl⟩, rfl, rfl⟩
  case teardownDone r =>
    obtain ⟨run, closes, error, hr, hs, -, rfl⟩ := teardownDone_cases h
    exact ⟨unfinished_of_stage hr (by simp [hs]), runStep_endRun c r _⟩

/-- A step of run `r` leaves no other run unfinished that was not. -/
theorem RunStep.unfinished {c c' : Client} {r q : RunId} (h : RunStep c c' r)
    (hr : c.Unfinished r) (hq : c'.Unfinished q) : c.Unfinished q := by
  by_cases hrq : r = q
  · exact hrq ▸ hr
  · obtain ⟨f, hf⟩ := h.runs
    refine (unfinished_congr ?_).mp hq
    rw [hf, List.getElem?_modify_ne _ _ hrq]

@[simp] theorem closeService_runs (c : Client) : c.closeService.1.runs = c.runs := by
  obtain ⟨-, h⟩ | ⟨-, h⟩ := closeService_cases c
  · rw [h]
  · rw [h]
    obtain ⟨-, h⟩ | ⟨p, ps, -, h⟩ := closeNext_cases c c.commits none (c.providers.map Prod.snd) <;>
      rw [h] <;> rfl

@[simp] theorem closeNext_runs (c : Client) (epoch : ℕ) (error : Option PyError)
    (rest : List ProviderId) : (c.closeNext epoch error rest).1.runs = c.runs := by
  cases rest <;> rfl

@[simp] theorem closeNext_initTask (c : Client) (epoch : ℕ) (error : Option PyError)
    (rest : List ProviderId) : (c.closeNext epoch error rest).1.initTask = c.initTask := by
  cases rest <;> rfl

@[simp] theorem closeService_initTask (c : Client) : c.closeService.1.initTask = c.initTask := by
  obtain ⟨-, h⟩ | ⟨-, h⟩ := closeService_cases c <;> rw [h]
  exact closeNext_initTask c _ _ _

@[simp] theorem setPhase_runs (c : Client) (i : CallId) (phase : Phase) :
    (c.setPhase i phase).runs = c.runs := rfl

@[simp] theorem setPhase_initTask (c : Client) (i : CallId) (phase : Phase) :
    (c.setPhase i phase).initTask = c.initTask := rfl

@[simp] theorem clearIfDone_runs (c : Client) (r : RunId) : (c.clearIfDone r).runs = c.runs := by
  unfold Client.clearIfDone
  split <;> rfl

theorem cancelRun_stage {run : Run} (outcome : Outcome) :
    (cancelRun run).stage = .finished outcome ↔ run.stage = .finished outcome := by
  unfold cancelRun
  split <;> simp_all

end AtomicMemory.AsyncClient
