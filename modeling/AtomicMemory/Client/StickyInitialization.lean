import AtomicMemory.Client.SingleFlight

-- Without `close()`, and as long as factories and `provider.initialize` raise only
-- `Exception`s, the first `initialize()` starts the only run, its outcome is kept, and
-- every caller that is not cancelled is told that outcome.

namespace AtomicMemory.AsyncClient

/-- The step is no `close()`, and a factory or `provider.initialize` that raises in it
raises an `Exception`. -/
def InitializesOnly : Label → Prop
  | .callClose => False
  | .factoryStep _ (.raises e) | .providerInitStep _ (.raises e) => e.isException = true
  | _ => True

def Stage.todo (config : MemoryServiceConfig) : Stage → List String
  | .created => config.providerConfigs
  | .inFactory _ todo _ | .inProviderInit todo _ => todo
  | .inTeardown _ _ | .finished _ => []

theorem outcome?_of_modify {c c' : Client} {r : RunId} {f : Run → Run} {q : RunId}
    {outcome : Outcome} (hruns : c'.runs = c.runs.modify r f)
    (hf : ∀ run, run.stage = .finished outcome → (f run).stage = .finished outcome)
    (h : c.outcome? q = some outcome) : c'.outcome? q = some outcome := by
  obtain ⟨run, hq, hs⟩ := outcome?_eq_some.mp h
  refine outcome?_eq_some.mpr ⟨if r = q then f run else run, ?_, ?_⟩
  · rw [hruns, List.getElem?_modify, hq]
    rfl
  · split
    · exact hf run hs
    · exact hs

theorem step_runs {setup : Setup} {c c' : Client} {l : Label} (h : step setup c l = some c')
    (hl : l.run? = none) :
    c'.runs = c.runs ∨ (∃ run, c'.runs = c.runs ++ [run]) ∨
      ∃ r, c'.runs = c.runs.modify r cancelRun := by
  cases l <;> simp only [Label.run?, reduceCtorEq] at hl
  -- only `initialize` adds a run, and only `close` cancels one
  case callInitialize registry =>
    cases h
    obtain ⟨-, h⟩ | ⟨-, e, -, h⟩ | ⟨-, -, -, h⟩ | ⟨-, -, r, outcome, -, -, h⟩ |
      ⟨-, -, r, -, -, h⟩ := beginInitialize_cases setup c registry <;> rw [h]
    · exact .inl rfl
    · exact .inl rfl
    · exact .inr (.inl ⟨_, rfl⟩)
    · exact .inl rfl
    · exact .inl rfl
  case callClose =>
    cases h
    obtain ⟨-, h⟩ | ⟨r, outcome, -, -, h⟩ | ⟨r, -, -, h⟩ := beginClose_cases c
    · exact .inl (by simp [addCall, h])
    · exact .inl (by simp [addCall, h])
    · exact .inr (.inr ⟨r, by simp [addCall, h]⟩)
  case cancelCaller i =>
    obtain ⟨call, r, outerDone, -, -, rfl⟩ := cancelCaller_cases h
    exact .inl rfl
  case shieldCallback i =>
    obtain ⟨call, r, outcome, -, -, -, rfl⟩ := shieldCallback_cases h
    exact .inl rfl
  case resumeInitialize i =>
    obtain ⟨call, r, outerDone, -, -, ⟨-, rfl⟩ | ⟨outcome, -, -, -, rfl⟩⟩ :=
      resumeInitialize_cases h <;> exact .inl (by simp)
  case resumeClose i =>
    obtain ⟨call, r, outcome, -, -, -, ⟨-, rfl⟩ | ⟨-, rfl⟩⟩ := resumeClose_cases h <;>
      exact .inl (by simp)
  case providerCloseStep i response =>
    obtain ⟨call, epoch, rest, firstError, -, -, rfl | ⟨error, -, rfl⟩ | ⟨e, -, -, rfl⟩⟩ :=
      providerCloseStep_cases h
    · exact .inl rfl
    · exact .inl (by simp)
    · exact .inl rfl

theorem outcome?_step {setup : Setup} {c c' : Client} {l : Label} {q : RunId} {outcome : Outcome}
    (h : step setup c l = some c') (ho : c.outcome? q = some outcome) :
    c'.outcome? q = some outcome := by
  cases hrun : l.run? with
  | some r =>
    obtain ⟨hr, ⟨f, hf⟩, -, -⟩ := step_run h hrun
    have hne : r ≠ q := fun hrq => (hrq ▸ hr).of_outcome?_ne outcome ho
    have hsame : c'.outcome? q = c.outcome? q :=
      outcome?_congr (by rw [hf, List.getElem?_modify_ne _ _ hne])
    exact hsame.trans ho
  | none =>
    obtain hruns | ⟨run, hruns⟩ | ⟨r, hruns⟩ := step_runs h hrun
    · exact (outcome?_congr (by rw [hruns])).trans ho
    · obtain ⟨run', hq, hs⟩ := outcome?_eq_some.mp ho
      have hlt : q < c.runs.length := (List.getElem?_eq_some_iff.mp hq).1
      exact outcome?_eq_some.mpr ⟨run', by rw [hruns, List.getElem?_append_left hlt, hq], hs⟩
    · exact outcome?_of_modify hruns (fun run => (cancelRun_stage outcome).mpr) ho

/-- Every factory called so far, and the names still to look up, are distinct names of
the config. Only run 0 calls factories, and only those of its registry. -/
structure FactoriesOk (setup : Setup) (c : Client) (run : Run) : Prop where
  sublist : (c.factoryCalls.map Prod.snd ++ run.stage.todo setup.config).Sublist
    setup.config.providerConfigs
  own : ∀ x ∈ c.factoryCalls, x.1 = 0 ∧ x.2 ∈ run.registry.names

/-- A caller waits for run 0, or was told its outcome, or was cancelled. -/
def Call.Shares (run : Run) (call : Call) : Prop :=
  match call.phase with
  | .awaitingRun r outerDone =>
    r = 0 ∧ (outerDone = true → ∃ outcome, run.stage = .finished outcome)
  | .finished outcome => call.cancelled = false → run.stage = .finished outcome
  | _ => False

/-- The client after its first `initialize()`, with its only run. -/
structure Started (setup : Setup) (c : Client) (run : Run) : Prop where
  runs : c.runs = [run]
  registry : ∃ call registry, c.calls[0]? = some call ∧ call.method = .initializeCall registry ∧
    run.registry = registry.getD setup.defaultAsyncRegistry
  notCancelled : run.cancelled = false
  teardown : ∀ closes error, run.stage = .inTeardown closes error → error.isException = true
  factories : FactoriesOk setup c run
  slot : (∀ outcome, run.stage ≠ .finished outcome) → c.initTask = some 0
  slot_eq : ∀ r, c.initTask = some r → r = 0
  initialized : c.initialized = true ↔ run.stage = .finished .returned
  initError : ∀ e, c.initError = some e ↔ run.stage = .finished (.raised e)
  calls : ∀ call ∈ c.calls, call.Shares run

theorem Started.outcome? {setup : Setup} {c : Client} {run : Run} (hc : Started setup c run)
    (outcome : Outcome) : c.outcome? 0 = some outcome ↔ run.stage = .finished outcome := by
  rw [outcome?_eq_some, hc.runs]
  exact ⟨fun ⟨_, h, hs⟩ => Option.some.inj h ▸ hs, fun h => ⟨run, rfl, h⟩⟩

theorem Started.run_eq {setup : Setup} {c : Client} {run run' : Run} (hc : Started setup c run)
    {r : RunId} (hr : c.runs[r]? = some run') : r = 0 ∧ run' = run := by
  rw [hc.runs, List.getElem?_singleton] at hr
  split at hr
  · rename_i h
    exact ⟨h, (Option.some.inj hr).symm⟩
  · cases hr

theorem Started.calls_advance {setup : Setup} {c : Client} {run run' : Run}
    (hc : Started setup c run) (hu : ∀ outcome, run.stage ≠ .finished outcome) :
    ∀ call ∈ c.calls, call.Shares run' := by
  intro call hmem
  have h := hc.calls call hmem
  unfold Call.Shares at h ⊢
  split at h
  · refine ⟨h.1, fun hdone => ?_⟩
    obtain ⟨outcome, ho⟩ := h.2 hdone
    exact absurd ho (hu outcome)
  · exact fun hcancel => absurd (h hcancel) (hu _)
  · exact h

theorem Started.advance {setup : Setup} {c c' : Client} {run : Run} (hc : Started setup c run)
    (hu : ∀ outcome, run.stage ≠ .finished outcome) (stage : Stage)
    (hstage : ∀ outcome, stage ≠ .finished outcome)
    (hruns : c'.runs = [{ run with stage, cancelled := false }])
    (hteardown : ∀ closes error, stage = .inTeardown closes error → error.isException = true)
    (hfactories : FactoriesOk setup c' { run with stage, cancelled := false })
    (hinit : c'.initialized = c.initialized) (herr : c'.initError = c.initError)
    (htask : c'.initTask = c.initTask) (hcalls : c'.calls = c.calls) :
    Started setup c' { run with stage, cancelled := false } where
  runs := hruns
  registry := hcalls ▸ hc.registry
  notCancelled := rfl
  teardown := hteardown
  factories := hfactories
  slot := fun _ => htask ▸ hc.slot hu
  slot_eq := htask ▸ hc.slot_eq
  initialized := by
    rw [hinit, hc.initialized]
    exact ⟨fun h => absurd h (hu _), fun h => absurd h (hstage _)⟩
  initError := by
    intro e
    rw [herr, hc.initError]
    exact ⟨fun h => absurd h (hu _), fun h => absurd h (hstage _)⟩
  calls := hcalls ▸ hc.calls_advance hu

theorem FactoriesOk.mono {setup : Setup} {c c' : Client} {run : Run} (h : FactoriesOk setup c run)
    {stage : Stage} (htodo : (stage.todo setup.config).Sublist (run.stage.todo setup.config))
    (hcalls : c'.factoryCalls = c.factoryCalls) :
    FactoriesOk setup c' { run with stage, cancelled := false } where
  sublist := by
    rw [hcalls]
    exact (htodo.append_left _).trans h.sublist
  own := hcalls ▸ h.own

theorem Started.endRun {setup : Setup} {c : Client} {run : Run} (hc : Started setup c run)
    (hu : ∀ outcome, run.stage ≠ .finished outcome) {outcome : Outcome}
    (he : ∀ e, outcome = .raised e → e.isException = true) :
    Started setup (c.endRun 0 outcome)
      { run with stage := .finished outcome, cancelled := false } := by
  -- neither flag is set while the run has not ended
  have hinit : c.initialized = false := by
    by_contra h
    exact hu _ (hc.initialized.mp (by simpa using h))
  have herr : c.initError = none := by
    by_contra h
    obtain ⟨e, h⟩ := Option.ne_none_iff_exists'.mp h
    exact hu _ ((hc.initError e).mp h)
  have hcalls : (c.endRun 0 outcome).calls = c.calls := (runStep_endRun c 0 outcome).calls
  have htask : (c.endRun 0 outcome).initTask = c.initTask := (runStep_endRun c 0 outcome).initTask
  constructor
  · rw [endRun_runs, hc.runs]
    rfl
  · exact hcalls ▸ hc.registry
  · rfl
  · exact nofun
  · have hfac : (c.endRun 0 outcome).factoryCalls = c.factoryCalls := by cases outcome <;> rfl
    exact hc.factories.mono (List.nil_sublist _) hfac
  · exact fun h => absurd rfl (h outcome)
  · exact htask ▸ hc.slot_eq
  · cases outcome with
    | returned => exact ⟨fun _ => rfl, fun _ => rfl⟩
    | raised e => simp [Client.endRun, Client.suspendRun, Client.updateRun, hinit]
  · intro e
    cases outcome with
    | returned => simp [Client.endRun, Client.suspendRun, Client.updateRun, herr]
    | raised e' => simp [Client.endRun, Client.suspendRun, Client.updateRun, he e' rfl]
  · exact hcalls ▸ hc.calls_advance hu

theorem Started.suspendRun {setup : Setup} {c : Client} {run : Run} (hc : Started setup c run)
    (hu : ∀ outcome, run.stage ≠ .finished outcome) {stage : Stage}
    (hstage : ∀ outcome, stage ≠ .finished outcome)
    (hteardown : ∀ closes error, stage = .inTeardown closes error → error.isException = true)
    (htodo : (stage.todo setup.config).Sublist (run.stage.todo setup.config)) :
    Started setup (c.suspendRun 0 stage) { run with stage, cancelled := false } :=
  hc.advance hu _ hstage (by rw [suspendRun_runs, hc.runs]; rfl) hteardown
    (hc.factories.mono htodo rfl) rfl rfl rfl rfl

theorem Started.failRun {setup : Setup} {c : Client} {run : Run} (hc : Started setup c run)
    (hu : ∀ outcome, run.stage ≠ .finished outcome) (staged : Staged) {e : PyError}
    (he : e.isException = true) : ∃ run', Started setup (c.failRun 0 staged e) run' := by
  obtain ⟨-, h⟩ | ⟨-, h⟩ := failRun_cases c 0 staged e <;> rw [h]
  · exact ⟨_, hc.endRun hu fun e' h => by cases h; exact he⟩
  · refine ⟨_, hc.suspendRun hu nofun (fun closes error h => ?_) (List.nil_sublist _)⟩
    cases h
    exact he

theorem nextFactory_some {registry : Registry} {todo rest : List String} {name : String}
    (h : nextFactory registry todo = some (name, rest)) :
    (name :: rest).Sublist todo ∧ name ∈ registry.names := by
  induction todo with
  | nil => cases h
  | cons x todo ih =>
    unfold nextFactory at h
    split at h
    · rename_i hx
      cases h
      exact ⟨List.Sublist.refl _, hx⟩
    · exact ⟨(ih h).1.cons x, (ih h).2⟩

theorem Started.continueLoop {setup : Setup} {c : Client} {run : Run} (hc : Started setup c run)
    (hu : ∀ outcome, run.stage ≠ .finished outcome) {todo : List String} (staged : Staged)
    (htodo : run.stage.todo setup.config = todo) :
    ∃ run', Started setup (c.continueLoop setup.config 0 run.registry todo staged) run' := by
  obtain ⟨name, rest, hnext, h⟩ | ⟨-, -, h⟩ | ⟨-, -, h⟩ :=
    continueLoop_cases setup.config c 0 run.registry todo staged <;> rw [h]
  · obtain ⟨hsub, hname⟩ := nextFactory_some hnext
    refine ⟨_, hc.advance hu (.inFactory name rest staged) (by simp) ?_ (by simp) ?_ rfl rfl rfl
      rfl⟩
    · rw [suspendRun_runs, hc.runs]
      rfl
    · constructor
      · have hold := hc.factories.sublist
        rw [htodo] at hold
        refine List.Sublist.trans ?_ hold
        simpa [Client.suspendRun, Client.updateRun, Stage.todo] using hsub
      · intro x hx
        rcases List.mem_append.mp hx with hx | hx
        · exact hc.factories.own x hx
        · obtain rfl := List.mem_singleton.mp hx
          exact ⟨rfl, hname⟩
  · -- the commit touches none of what the invariant is about
    have hcommit : Started setup (c.commit staged) run :=
      ⟨hc.1, hc.2, hc.3, hc.4, ⟨hc.5.1, hc.5.2⟩, hc.6, hc.7, hc.8, hc.9, hc.10⟩
    exact ⟨_, hcommit.endRun hu (by simp)⟩
  · exact hc.failRun hu staged rfl

/-- A close task of the teardown moves on in `d`, which differs from `c` in what was closed. -/
theorem Started.closeTask {setup : Setup} {c d : Client} {run : Run} (hc : Started setup c run)
    {closes : List (ProviderId × CloseTask)} {error : PyError}
    (hs : run.stage = .inTeardown closes error) (hd : d.runs = c.runs)
    (hfac : d.factoryCalls = c.factoryCalls) (hinit : d.initialized = c.initialized)
    (herr : d.initError = c.initError) (htask : d.initTask = c.initTask)
    (hcalls : d.calls = c.calls) (j : ℕ) (task : CloseTask) :
    ∃ run', Started setup (d.updateRun 0 (setCloseTask closes error j task)) run' := by
  have hu : ∀ outcome, run.stage ≠ .finished outcome := by simp [hs]
  have hrun : (d.updateRun 0 (setCloseTask closes error j task)).runs = [{ run with
      stage := .inTeardown (closes.modify j fun x => (x.1, task)) error
      cancelled := false }] := by
    rw [updateRun_runs, hd, hc.runs, ← hc.notCancelled]
    rfl
  refine ⟨_, hc.advance hu (.inTeardown (closes.modify j fun x => (x.1, task)) error)
    (by simp) hrun (fun closes' error' heq => ?_)
    (hc.factories.mono (List.nil_sublist _) hfac) hinit herr htask hcalls⟩
  cases heq
  exact hc.teardown closes error hs

theorem Started.run_step {setup : Setup} {c c' : Client} {l : Label} {run : Run} {r : RunId}
    (hc : Started setup c run) (hg : InitializesOnly l) (h : step setup c l = some c')
    (hl : l.run? = some r) : ∃ run', Started setup c' run' := by
  cases l <;> simp only [Label.run?, reduceCtorEq, Option.some.injEq] at hl <;> subst hl
  case startRun r =>
    obtain ⟨run', hr, hs, ⟨hcancel, -⟩ | ⟨-, rfl⟩⟩ := startRun_cases h
    · obtain ⟨rfl, rfl⟩ := hc.run_eq hr
      rw [hc.notCancelled] at hcancel
      cases hcancel
    · obtain ⟨rfl, rfl⟩ := hc.run_eq hr
      exact hc.continueLoop (by simp [hs]) [] (by rw [hs]; rfl)
  case factoryStep r response =>
    obtain ⟨run', name, todo, staged, hr, hs, hcase⟩ := factoryStep_cases h
    -- the only run there is is never cancelled
    obtain ⟨rfl, rfl⟩ := hc.run_eq hr
    have hu : ∀ outcome, run'.stage ≠ .finished outcome := by simp [hs]
    obtain ⟨-, rfl⟩ | ⟨registration, -, rfl⟩ | ⟨e, rfl, rfl⟩ := hcase
    · exact ⟨_, hc.suspendRun hu (by simp) (by simp) (by rw [hs])⟩
    · refine ⟨_, hc.advance hu (.inProviderInit todo (staged ++ [(name, registration)]))
        (by simp) ?_ (by simp) (hc.factories.mono (by rw [hs]; exact List.Sublist.refl _) rfl)
        rfl rfl rfl rfl⟩
      rw [suspendRun_runs, hc.runs]
      rfl
    · exact hc.failRun hu staged hg
  case providerInitStep r response =>
    obtain ⟨run', todo, staged, hr, hs, hcase⟩ := providerInitStep_cases h
    obtain ⟨rfl, rfl⟩ := hc.run_eq hr
    have hu : ∀ outcome, run'.stage ≠ .finished outcome := by simp [hs]
    obtain ⟨-, rfl⟩ | ⟨-, rfl⟩ | ⟨e, rfl, rfl⟩ := hcase
    · exact ⟨_, hc.suspendRun hu (by simp) (by simp) (by rw [hs])⟩
    · exact hc.continueLoop hu staged (by rw [hs]; rfl)
    · exact hc.failRun hu staged hg
  case closeTaskStep r j =>
    obtain ⟨run', closes, error, p, task, hr, hs, -, hcase⟩ := closeTaskStep_cases h
    obtain ⟨rfl, rfl⟩ := hc.run_eq hr
    obtain ⟨-, rfl⟩ | ⟨-, rfl⟩ := hcase
    · exact hc.closeTask (d := c.startClose p) hs rfl rfl rfl rfl rfl rfl j _
    · exact hc.closeTask hs rfl rfl rfl rfl rfl rfl j _
  case teardownDone r =>
    obtain ⟨run', closes, error, hr, hs, -, rfl⟩ := teardownDone_cases h
    obtain ⟨rfl, rfl⟩ := hc.run_eq hr
    refine ⟨_, hc.endRun (by simp [hs]) fun e he => ?_⟩
    -- so the error that the teardown re-raises is the one it was started with
    rw [hc.notCancelled] at he
    cases he
    exact hc.teardown closes error hs

theorem Started.addCall {setup : Setup} {c : Client} {run : Run} (hc : Started setup c run)
    (method : Method) {phase : Phase} (hphase : Call.Shares run ⟨method, phase, false⟩) :
    Started setup (addCall method (c, phase)) run := by
  refine ⟨hc.runs, ?_, hc.notCancelled, hc.teardown, ⟨hc.factories.1, hc.factories.2⟩, hc.slot,
    hc.slot_eq, hc.initialized, hc.initError, ?_⟩
  · obtain ⟨call, registry, hcall, h⟩ := hc.registry
    refine ⟨call, registry, ?_, h⟩
    have hlt : 0 < c.calls.length := (List.getElem?_eq_some_iff.mp hcall).1
    exact (List.getElem?_append_left hlt).trans hcall
  · intro call hmem
    rcases List.mem_append.mp hmem with h | h
    · exact hc.calls call h
    · obtain rfl := List.mem_singleton.mp h
      exact hphase

theorem Started.modifyCall {setup : Setup} {c : Client} {run : Run} (hc : Started setup c run)
    {i : CallId} {f : Call → Call} (hmethod : ∀ call, (f call).method = call.method)
    (hshares : ∀ call, c.calls[i]? = some call → (f call).Shares run) :
    Started setup { c with calls := c.calls.modify i f } run := by
  refine ⟨hc.runs, ?_, hc.notCancelled, hc.teardown, ⟨hc.factories.1, hc.factories.2⟩, hc.slot,
    hc.slot_eq, hc.initialized, hc.initError, ?_⟩
  · obtain ⟨call, registry, hcall, hm, h⟩ := hc.registry
    refine ⟨if i = 0 then f call else call, registry, ?_, ?_, h⟩
    · simp [List.getElem?_modify, hcall]
    · split
      · rw [hmethod, hm]
      · exact hm
  · intro call hmem
    obtain ⟨j, hj⟩ := List.mem_iff_getElem?.mp hmem
    simp only [List.getElem?_modify, Option.map_eq_map, Option.map_eq_some_iff] at hj
    obtain ⟨call', hj, rfl⟩ := hj
    split
    · rename_i hij
      exact hshares call' (hij ▸ hj)
    · exact hc.calls call' (List.mem_of_getElem? hj)

theorem Started.clearTask {setup : Setup} {c : Client} {run : Run} (hc : Started setup c run)
    {outcome : Outcome} (ho : run.stage = .finished outcome) :
    Started setup { c with initTask := none } run :=
  ⟨hc.1, hc.2, hc.3, hc.4, ⟨hc.5.1, hc.5.2⟩, fun h => absurd ho (h outcome), nofun, hc.8, hc.9,
    hc.10⟩

theorem Started.callInitialize {setup : Setup} {c : Client} {run : Run}
    (hc : Started setup c run) (registry : Option Registry) :
    Started setup (AsyncClient.addCall (.initializeCall registry)
      (beginInitialize setup c registry)) run := by
  obtain ⟨hi, h⟩ | ⟨-, e, he, h⟩ | ⟨hi, he, ht, h⟩ | ⟨-, -, r, outcome, ht, ho, h⟩ |
    ⟨-, -, r, ht, -, h⟩ := beginInitialize_cases setup c registry <;> rw [h]
  · exact hc.addCall _ fun _ => hc.initialized.mp hi
  · exact hc.addCall _ fun _ => (hc.initError e).mp he
  · -- with an empty slot the run is done, so one of the two flags is set
    exfalso
    have hdone : ∃ outcome, run.stage = .finished outcome := by
      by_contra hu
      have := hc.slot fun outcome ho => hu ⟨outcome, ho⟩
      rw [ht] at this
      cases this
    obtain ⟨outcome, ho⟩ := hdone
    cases outcome with
    | returned =>
      have := hc.initialized.mpr ho
      rw [hi] at this
      cases this
    | raised e =>
      have := (hc.initError e).mpr ho
      rw [he] at this
      cases this
  · obtain rfl := hc.slot_eq r ht
    have ho := (hc.outcome? outcome).mp ho
    exact (hc.clearTask ho).addCall _ fun _ => ho
  · exact hc.addCall _ ⟨hc.slot_eq r ht, nofun⟩

/-- The first `initialize()` starts the run, with its registry. -/
theorem started_new (setup : Setup) (registry : Option Registry) :
    Started setup (AsyncClient.addCall (.initializeCall registry)
        (beginInitialize setup .new registry))
      ⟨registry.getD setup.defaultAsyncRegistry, .created, false⟩ where
  runs := rfl
  registry := ⟨_, registry, rfl, rfl, rfl⟩
  notCancelled := rfl
  teardown := nofun
  factories := ⟨List.Sublist.refl _, nofun⟩
  slot := fun _ => rfl
  slot_eq := fun r hr => (Option.some.inj hr).symm
  initialized := ⟨nofun, nofun⟩
  initError := fun e => ⟨nofun, nofun⟩
  calls := by
    intro call hmem
    obtain rfl := List.mem_singleton.mp hmem
    exact ⟨rfl, nofun⟩

/-- A caller that is resumed is told the outcome of the run, unless it was cancelled. -/
theorem Started.resumeInitialize {setup : Setup} {c c' : Client} {run : Run}
    (hc : Started setup c run) {i : CallId} (h : resumeInitialize c i = some c') :
    Started setup c' run := by
  obtain ⟨call, r, outerDone, hi, hp, hcase⟩ := resumeInitialize_cases h
  have hr : r = 0 := by
    have hold := hc.calls call (List.mem_of_getElem? hi)
    simp only [Call.Shares, hp] at hold
    exact hold.1
  subst hr
  have hclear : Started setup (c.clearIfDone 0) run := by
    unfold Client.clearIfDone
    split
    · rename_i ho
      obtain ⟨outcome, ho⟩ := Option.isSome_iff_exists.mp ho
      exact hc.clearTask ((hc.outcome? outcome).mp ho)
    · exact hc
  have hi' : (c.clearIfDone 0).calls[i]? = some call := by
    unfold Client.clearIfDone
    split <;> exact hi
  obtain ⟨hcancel, rfl⟩ | ⟨outcome, -, -, ho, rfl⟩ := hcase
  · refine hclear.modifyCall (fun _ => rfl) fun call' hcall' => ?_
    rw [hi'] at hcall'
    cases hcall'
    exact fun h => absurd (hcancel.symm.trans h) (by decide)
  · exact hclear.modifyCall (fun _ => rfl) fun _ _ _ => (hc.outcome? outcome).mp ho

theorem started_step {setup : Setup} {c c' : Client} {l : Label}
    (hc : c = .new ∨ ∃ run, Started setup c run) (hg : InitializesOnly l)
    (h : step setup c l = some c') : ∃ run, Started setup c' run := by
  obtain rfl | ⟨run, hc⟩ := hc
  · cases l with
    | callInitialize registry =>
      cases h
      exact ⟨_, started_new setup registry⟩
    | callClose => exact hg.elim
    | _ =>
      -- nothing else is enabled before the first call
      simp [step, cancelCaller, startRun, factoryStep, providerInitStep, closeTaskStep,
        teardownDone, shieldCallback, resumeInitialize, resumeClose, providerCloseStep,
        Client.new] at h
  cases hrun : l.run? with
  | some r => exact hc.run_step hg h hrun
  | none =>
    cases l <;> simp only [Label.run?, reduceCtorEq] at hrun
    case callInitialize registry =>
      cases h
      exact ⟨run, hc.callInitialize registry⟩
    case callClose => exact hg.elim
    case cancelCaller i =>
      obtain ⟨call, r, outerDone, hi, hp, rfl⟩ := cancelCaller_cases h
      refine ⟨run, hc.modifyCall (fun _ => rfl) fun call' hi' => ?_⟩
      have hold := hc.calls call' (List.mem_of_getElem? hi')
      rw [hi] at hi'
      cases hi'
      simpa only [Call.Shares, hp] using hold
    case shieldCallback i =>
      obtain ⟨call, r, outcome, hi, hp, ho, rfl⟩ := shieldCallback_cases h
      refine ⟨run, hc.modifyCall (fun _ => rfl) fun call' hi' => ?_⟩
      have hold := hc.calls call' (List.mem_of_getElem? hi')
      rw [hi] at hi'
      cases hi'
      simp only [Call.Shares, hp] at hold ⊢
      obtain ⟨rfl, -⟩ := hold
      exact ⟨rfl, fun _ => ⟨outcome, (hc.outcome? outcome).mp ho⟩⟩
    case resumeInitialize i =>
      exact ⟨run, hc.resumeInitialize h⟩
    case resumeClose i =>
      obtain ⟨call, r, outcome, hi, hp, -⟩ := resumeClose_cases h
      have hold := hc.calls call (List.mem_of_getElem? hi)
      simp only [Call.Shares, hp] at hold
    case providerCloseStep i response =>
      obtain ⟨call, epoch, rest, firstError, hi, hp, -⟩ := providerCloseStep_cases h
      have hold := hc.calls call (List.mem_of_getElem? hi)
      simp only [Call.Shares, hp] at hold

theorem resume_told (setup : Setup) {c : Client} {i : CallId} {method : Method}
    {outcome : Outcome} (hi : c.calls[i]? = some ⟨method, .awaitingRun 0 true, false⟩)
    (ho : c.outcome? 0 = some outcome) :
    ∃ c', step setup c (.resumeInitialize i) = some c' ∧
      c'.calls[i]? = some ⟨method, .finished outcome, false⟩ := by
  refine ⟨(c.clearIfDone 0).setPhase i (.finished outcome), ?_, ?_⟩
  · simp [step, resumeInitialize, hi, ho]
  · have hcalls : (c.clearIfDone 0).calls = c.calls := by
      unfold Client.clearIfDone
      split <;> rfl
    simp [Client.setPhase, hcalls, hi]

/-- Once the run is done, steps of its own bring a waiting caller to the run's outcome. -/
theorem Started.waiting_told {setup : Setup} {c : Client} {run : Run} (hc : Started setup c run)
    {i : CallId} {call : Call} {r : RunId} {outerDone : Bool} {outcome : Outcome}
    (hi : c.calls[i]? = some call) (hp : call.phase = .awaitingRun r outerDone)
    (hcancel : call.cancelled = false) (ho : c.outcome? 0 = some outcome) :
    ∃ c', (machine setup).Leads (fun _ l => l = .shieldCallback i ∨ l = .resumeInitialize i) c c' ∧
      c'.calls[i]? = some { call with phase := .finished outcome } := by
  obtain ⟨method, phase, cancelled⟩ := call
  dsimp only at hp hcancel
  subst hp hcancel
  have hr : r = 0 := (hc.calls _ (List.mem_of_getElem? hi)).1
  subst hr
  cases outerDone with
  | true =>
    obtain ⟨c', hstep, htold⟩ := resume_told setup hi ho
    exact ⟨c', .single ⟨_, .inr rfl, hstep⟩, htold⟩
  | false =>
    have hshield : step setup c (.shieldCallback i) =
        some (c.setPhase i (.awaitingRun 0 true)) := by
      simp [step, shieldCallback, hi, ho]
    have hi' : (c.setPhase i (.awaitingRun 0 true)).calls[i]? =
        some ⟨method, .awaitingRun 0 true, false⟩ := by
      simp [Client.setPhase, hi]
    obtain ⟨c', hstep, htold⟩ := resume_told setup hi' ho
    exact ⟨c', .tail (.single ⟨_, .inl rfl, hshield⟩) ⟨_, .inr rfl, hstep⟩, htold⟩

theorem Started.later_told {setup : Setup} {c : Client} {run : Run} (hc : Started setup c run)
    (registry : Option Registry) {outcome : Outcome} (ho : c.outcome? 0 = some outcome) :
    beginInitialize setup c registry = (c, .finished outcome) := by
  have hdone := (hc.outcome? outcome).mp ho
  cases outcome with
  | returned =>
    have hi := hc.initialized.mpr hdone
    simp [beginInitialize, hi]
  | raised e =>
    have he := (hc.initError e).mpr hdone
    have hi : c.initialized = false := by
      by_contra h
      have := hc.initialized.mp (by simpa using h)
      rw [hdone] at this
      cases this
    simp [beginInitialize, hi, he]

/-- The shared initialization: one run, never cancelled, whose outcome is recorded and is
what every caller that was not cancelled is told. -/
structure SharedInitialization (setup : Setup) (c : Client) : Prop where
  one_run : c.runs.length ≤ 1
  first_registry : ∀ run ∈ c.runs, ∃ call registry, c.calls[0]? = some call ∧
    call.method = .initializeCall registry ∧
    run.registry = registry.getD setup.defaultAsyncRegistry
  own_factories : ∀ x ∈ c.factoryCalls, x.1 = 0 ∧
    ∃ run, c.runs[0]? = some run ∧ x.2 ∈ run.registry.names
  factories_once : (c.factoryCalls.map Prod.snd).Nodup
  never_cancelled : ∀ run ∈ c.runs, run.cancelled = false
  failure : ∀ e, c.outcome? 0 = some (.raised e) → c.initError = some e ∧ c.initialized = false
  success : c.outcome? 0 = some .returned → c.initialized = true ∧ c.initError = none
  told : ∀ call ∈ c.calls, ∀ outcome, call.phase = .finished outcome →
    call.cancelled = false → c.outcome? 0 = some outcome
  waiting : ∀ (i : CallId) (call : Call) r outerDone outcome, c.calls[i]? = some call →
    call.phase = .awaitingRun r outerDone → call.cancelled = false →
    c.outcome? 0 = some outcome →
    ∃ c', (machine setup).Leads (fun _ l => l = .shieldCallback i ∨ l = .resumeInitialize i) c c' ∧
      c'.calls[i]? = some { call with phase := .finished outcome }
  later : ∀ registry outcome, c.outcome? 0 = some outcome →
    beginInitialize setup c registry = (c, .finished outcome)

theorem outcome?_new (r : RunId) (outcome : Outcome) : Client.new.outcome? r ≠ some outcome := by
  simp [Client.outcome?, Client.new]

theorem sharedInitialization_new (setup : Setup) : SharedInitialization setup .new where
  one_run := Nat.zero_le _
  first_registry := fun _ h => absurd h List.not_mem_nil
  own_factories := fun _ h => absurd h List.not_mem_nil
  factories_once := List.nodup_nil
  never_cancelled := fun _ h => absurd h List.not_mem_nil
  failure := fun _ h => absurd h (outcome?_new 0 _)
  success := fun h => absurd h (outcome?_new 0 _)
  told := fun _ h => absurd h List.not_mem_nil
  waiting := fun _ _ _ _ _ _ _ _ h => absurd h (outcome?_new 0 _)
  later := fun _ _ h => absurd h (outcome?_new 0 _)

theorem Started.sharedInitialization {setup : Setup} {c : Client} {run : Run}
    (hc : Started setup c run) : SharedInitialization setup c where
  one_run := by simp [hc.runs]
  first_registry := by
    intro run' hmem
    rw [hc.runs, List.mem_singleton] at hmem
    exact hmem ▸ hc.registry
  own_factories := by
    intro x hx
    obtain ⟨hzero, hname⟩ := hc.factories.own x hx
    exact ⟨hzero, run, by rw [hc.runs]; rfl, hname⟩
  factories_once :=
    (setup.config.nodup.sublist hc.factories.sublist).of_append_left
  never_cancelled := by
    intro run' hmem
    rw [hc.runs, List.mem_singleton] at hmem
    exact hmem ▸ hc.notCancelled
  failure := by
    intro e ho
    have hdone := (hc.outcome? _).mp ho
    refine ⟨(hc.initError e).mpr hdone, ?_⟩
    by_contra h
    have := hc.initialized.mp (by simpa using h)
    rw [hdone] at this
    cases this
  success := by
    intro ho
    have hdone := (hc.outcome? _).mp ho
    refine ⟨hc.initialized.mpr hdone, ?_⟩
    by_contra h
    obtain ⟨e, he⟩ := Option.ne_none_iff_exists'.mp h
    have := (hc.initError e).mp he
    rw [hdone] at this
    cases this
  told := by
    intro call hmem outcome hp hcancel
    have h := hc.calls call hmem
    simp only [Call.Shares, hp] at h
    exact (hc.outcome? outcome).mpr (h hcancel)
  waiting := fun _ _ _ _ _ hi hp hcancel ho => hc.waiting_told hi hp hcancel ho
  later := fun registry _ ho => hc.later_told registry ho

/-- In every run without `close()` and in which only `Exception`s are raised the
initialization is shared, and an outcome once reached stays, with all that follows. -/
theorem shared_initialization (setup : Setup) {c : Client}
    (h : (machine setup).ReachableBy (fun _ l => InitializesOnly l) c) :
    SharedInitialization setup c ∧
      ∀ c', (machine setup).Leads (fun _ l => InitializesOnly l) c c' →
        SharedInitialization setup c' ∧
          ∀ outcome, c.outcome? 0 = some outcome → c'.outcome? 0 = some outcome := by
  have hshared {c : Client} (h : (machine setup).ReachableBy (fun _ l => InitializesOnly l) c) :
      SharedInitialization setup c := by
    have hinv : c = .new ∨ ∃ run, Started setup c run :=
      h.invariant (I := fun c => c = .new ∨ ∃ run, Started setup c run) (.inl rfl)
        fun s l s' hs hl hstep => .inr (started_step hs hl hstep)
    obtain rfl | ⟨run, hc⟩ := hinv
    · exact sharedInitialization_new setup
    · exact hc.sharedInitialization
  refine ⟨hshared h, fun c' hleads => ⟨hshared (h.leads hleads), fun outcome ho => ?_⟩⟩
  exact hleads.invariant (I := fun c => c.outcome? 0 = some outcome)
    (fun s l s' hs _ hstep => outcome?_step hstep hs) ho

/-- A factory raises `CancelledError`: nothing is recorded, and the next caller starts a
second run. -/
def restartedLabels : List Label :=
  [.callInitialize none, .startRun 0, .factoryStep 0 (.raises .cancelledError),
    .shieldCallback 0, .resumeInitialize 0, .callInitialize none]

theorem not_always_one_run :
    ¬ ∀ setup c, (machine setup).ReachableBy (fun _ l => l ≠ .callClose) c →
      c.runs.length ≤ 1 := by
  intro h
  have hby := Machine.reachableBy_exec (M := machine soloSetup) (fun _ l => l ≠ .callClose)
    restartedLabels (by simp [restartedLabels]) rfl
  exact absurd (h soloSetup _ hby) (by decide)

/-- The first caller is cancelled before its run fails; the second one waits on. -/
def failedRunLabels : List Label :=
  [.callInitialize none, .callInitialize (some ⟨1, ["q"]⟩), .startRun 0, .cancelCaller 0,
    .factoryStep 0 (.raises (.exception 7)), .resumeInitialize 0, .shieldCallback 1]

def failedRun : Client := ((machine soloSetup).exec failedRunLabels).getD .new

theorem shared_initialization_failedRun : SharedInitialization soloSetup failedRun := by
  have hby : (machine soloSetup).ReachableBy (fun _ l => InitializesOnly l) failedRun := by
    refine Machine.reachableBy_exec _ failedRunLabels (fun _ l hl => ?_) rfl
    simp only [failedRunLabels, List.mem_cons, List.not_mem_nil, or_false] at hl
    rcases hl with rfl | rfl | rfl | rfl | rfl | rfl | rfl <;> trivial
  exact (shared_initialization soloSetup hby).1

end AtomicMemory.AsyncClient
