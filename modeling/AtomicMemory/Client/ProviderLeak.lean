import AtomicMemory.Client.SingleFlight

-- Where every provider a factory returned is: closed, registered, staged by a run, or
-- about to be closed by a run's teardown. The ledger is kept by every step that does not
-- take one of four branches; each of those drops a provider from it.

namespace AtomicMemory.AsyncClient

def Client.registered (c : Client) : List ProviderId := c.providers.map Prod.snd

def stagedIds (staged : Staged) : List ProviderId := staged.map fun x => x.2.provider

/-- The providers a run still answers for: what it staged, and in the teardown those
whose `close()` will start. -/
def Stage.held : Stage → List ProviderId
  | .inFactory _ _ staged | .inProviderInit _ staged => stagedIds staged
  | .inTeardown closes _ =>
    (closes.filter fun x => x.2 = .scheduled false).map Prod.fst
  | .created | .finished _ => []

def Quiescent (c : Client) : Prop :=
  (∀ call ∈ c.calls, ∃ outcome, call.phase = .finished outcome) ∧
    ∀ run ∈ c.runs, ∃ outcome, run.stage = .finished outcome

/-- Every provider ever returned by a factory had its `close()` started, or is
registered in an initialized client. -/
def NoLeak (c : Client) : Prop :=
  ∀ p ∈ c.created, p ∈ c.closeStarted ∨ (p ∈ c.registered ∧ c.initialized = true)

/-- `close()` cancels a run whose teardown has a `close()` task that made no step yet. -/
def CancelsScheduledClose (c : Client) (l : Label) : Prop :=
  l = .callClose ∧ ∃ r run closes error cancelled p, c.initTask = some r ∧
    c.runs[r]? = some run ∧ run.stage = .inTeardown closes error ∧
    (p, CloseTask.scheduled cancelled) ∈ closes

/-- The step commits what run `r` staged. -/
def Commits (setup : Setup) (c : Client) (l : Label) : Prop :=
  ∃ r run todo staged, l = .providerInitStep r (.returns ()) ∧ c.runs[r]? = some run ∧
    run.stage = .inProviderInit todo staged ∧ nextFactory run.registry todo = none ∧
    setup.config.defaultProvider ∈ staged.map Prod.fst

/-- The step leaves a service `close()` loop that began after commit number `epoch`,
with the providers `rest` not reached. -/
def LeavesServiceClose (c : Client) (l : Label) (epoch : ℕ) (rest : List ProviderId) : Prop :=
  ∃ i call firstError response, l = .providerCloseStep i response ∧ c.calls[i]? = some call ∧
    call.phase = .inServiceClose epoch rest firstError ∧
    ((response = .returns () ∧ rest = []) ∨
      ∃ e, response = .raises e ∧ (rest = [] ∨ e.isException = false))

/-- The step takes none of the branches that drop a provider: it cancels no `close()`
before its first step, commits only over an empty map, and leaves a service `close()`
loop only with every provider reached and no newer map registered. -/
structure DropsNoProvider (setup : Setup) (c : Client) (l : Label) : Prop where
  cancel : ¬ CancelsScheduledClose c l
  commit : Commits setup c l → c.providers = []
  close : ∀ epoch rest, LeavesServiceClose c l epoch rest →
    rest = [] ∧ (c.providers = [] ∨ epoch = c.commits)

def Client.Accounted (c : Client) (p : ProviderId) : Prop :=
  p ∈ c.closeStarted ∨ p ∈ c.registered ∨
    ∃ (r : RunId) (run : Run), c.runs[r]? = some run ∧ p ∈ run.stage.held

/-- A service `close()` loop over the current map has started or will reach every
provider in it. -/
def Client.PhaseCovers (c : Client) (phase : Phase) : Prop :=
  ∀ epoch rest firstError, phase = .inServiceClose epoch rest firstError →
    epoch ≤ c.commits ∧
      (epoch = c.commits → ∀ p ∈ c.registered, p ∈ c.closeStarted ∨ p ∈ rest)

structure Ledger (c : Client) : Prop where
  initialized_iff : c.initialized = true ↔ c.providers ≠ []
  accounted : ∀ p ∈ c.created, c.Accounted p
  covers : ∀ (i : CallId) (call : Call), c.calls[i]? = some call → c.PhaseCovers call.phase

theorem ledger_new : Ledger .new where
  initialized_iff := by simp [Client.new]
  accounted := by simp [Client.new]
  covers := by simp [Client.new]

theorem phaseCovers_finished (c : Client) (outcome : Outcome) :
    c.PhaseCovers (.finished outcome) := fun _ _ _ h => nomatch h

theorem phaseCovers_awaitingRun (c : Client) (r : RunId) (outerDone : Bool) :
    c.PhaseCovers (.awaitingRun r outerDone) := fun _ _ _ h => nomatch h

theorem phaseCovers_awaitingCancelled (c : Client) (r : RunId) :
    c.PhaseCovers (.awaitingCancelled r) := fun _ _ _ h => nomatch h

/-- A change of run `r` keeps `p` accounted for when it does so for what `r` held. -/
theorem Client.Accounted.modify {c c' : Client} {p : ProviderId} {r : RunId} {run : Run}
    {f : Run → Run} (h : c.Accounted p) (hr : c.runs[r]? = some run)
    (hruns : c'.runs = c.runs.modify r f) (hclosed : c'.closeStarted = c.closeStarted)
    (hreg : p ∈ c.registered → p ∈ c'.registered)
    (hheld : p ∈ run.stage.held → p ∈ (f run).stage.held) : c'.Accounted p := by
  obtain h | h | ⟨q, run', hq, hp⟩ := h
  · exact .inl (hclosed ▸ h)
  · exact .inr (.inl (hreg h))
  · refine .inr (.inr ?_)
    by_cases hrq : r = q
    · subst hrq
      rw [hr] at hq
      cases hq
      exact ⟨r, f run, by rw [hruns, List.getElem?_modify_eq, hr]; rfl, hheld hp⟩
    · exact ⟨q, run', by rw [hruns, List.getElem?_modify_ne _ _ hrq, hq], hp⟩

theorem Ledger.suspendRun {c : Client} (hc : Ledger c) {r : RunId} {run : Run}
    (hr : c.runs[r]? = some run) {stage : Stage}
    (hheld : ∀ p ∈ run.stage.held, p ∈ stage.held) : Ledger (c.suspendRun r stage) where
  initialized_iff := hc.initialized_iff
  accounted := fun p hp => (hc.accounted p hp).modify hr rfl rfl id (hheld p)
  covers := hc.covers

theorem Ledger.endRaised {c : Client} (hc : Ledger c) {r : RunId} {run : Run}
    (hr : c.runs[r]? = some run) (hheld : run.stage.held = []) (e : PyError) :
    Ledger (c.endRun r (.raised e)) where
  initialized_iff := hc.initialized_iff
  accounted := fun p hp =>
    (hc.accounted p hp).modify hr rfl rfl id (by simp [hheld])
  covers := hc.covers

theorem held_teardown (staged : Staged) (e : PyError) :
    (Stage.inTeardown (staged.map fun x => (x.2.provider, .scheduled false)) e).held =
      stagedIds staged := by
  induction staged with
  | nil => rfl
  | cons x xs ih =>
    simp only [Stage.held, stagedIds, List.map_cons] at ih ⊢
    rw [List.filter_cons_of_pos (by simp), List.map_cons, ih]

theorem Ledger.failRun {c : Client} (hc : Ledger c) {r : RunId} {run : Run} {staged : Staged}
    (hr : c.runs[r]? = some run) (hheld : run.stage.held = stagedIds staged) (e : PyError) :
    Ledger (c.failRun r staged e) := by
  obtain ⟨rfl, h⟩ | ⟨-, h⟩ := failRun_cases c r staged e <;> rw [h]
  · exact hc.endRaised hr hheld e
  · exact hc.suspendRun hr (by simp [held_teardown, hheld])

theorem Ledger.commit {c : Client} (hc : Ledger c) {r : RunId} {run : Run} {staged : Staged}
    (hr : c.runs[r]? = some run) (hheld : run.stage.held = stagedIds staged)
    (hne : staged ≠ []) (hempty : c.providers = []) :
    Ledger ((c.commit staged).endRun r .returned) := by
  have hreg : ((c.commit staged).endRun r .returned).registered = stagedIds staged := by
    simp [Client.registered, Client.endRun, Client.suspendRun, Client.updateRun, Client.commit,
      stagedIds]
  constructor
  · have hp : staged.map (fun x => (x.1, x.2.provider)) ≠ [] := by simpa using hne
    exact ⟨fun _ => hp, fun _ => rfl⟩
  · intro p hp
    obtain h | h | ⟨q, run', hq, hq'⟩ := hc.accounted p hp
    · exact .inl h
    · simp [Client.registered, hempty] at h
    · by_cases hrq : r = q
      · subst hrq
        rw [hr] at hq
        cases hq
        exact .inr (.inl (by rw [hreg, ← hheld]; exact hq'))
      · exact .inr (.inr ⟨q, run', (List.getElem?_modify_ne _ _ hrq).trans hq, hq'⟩)
  · intro i call hi epoch rest firstError hphase
    obtain ⟨hle, -⟩ := hc.covers i call hi epoch rest firstError hphase
    have hcommits : ((c.commit staged).endRun r .returned).commits = c.commits + 1 := rfl
    rw [hcommits]
    exact ⟨Nat.le_succ_of_le hle, fun he => absurd he (by omega)⟩

theorem Ledger.factoryCalls {c : Client} (hc : Ledger c) (calls : List (RunId × String)) :
    Ledger { c with factoryCalls := calls } := ⟨hc.1, hc.2, hc.3⟩

theorem Ledger.continueLoop {setup : Setup} {c : Client} (hc : Ledger c) {r : RunId} {run : Run}
    {todo : List String} {staged : Staged} (hr : c.runs[r]? = some run)
    (hheld : run.stage.held = stagedIds staged)
    (hcommit : nextFactory run.registry todo = none →
      setup.config.defaultProvider ∈ staged.map Prod.fst → c.providers = []) :
    Ledger (c.continueLoop setup.config r run.registry todo staged) := by
  obtain ⟨name, rest, -, h⟩ | ⟨hnext, hd, h⟩ | ⟨-, -, h⟩ :=
    continueLoop_cases setup.config c r run.registry todo staged <;> rw [h]
  · have hstage : ∀ p ∈ run.stage.held, p ∈ (Stage.inFactory name rest staged).held := by
      rw [hheld]
      exact fun p hp => hp
    exact (hc.factoryCalls (c.factoryCalls ++ [(r, name)])).suspendRun hr hstage
  · refine hc.commit hr hheld ?_ (hcommit hnext hd)
    rintro rfl
    simp at hd
  · exact hc.failRun hr hheld _

theorem Ledger.stage {c : Client} (hc : Ledger c) {r : RunId} {run : Run} {name : String}
    {todo : List String} {staged : Staged} (hr : c.runs[r]? = some run)
    (hheld : run.stage.held = stagedIds staged) (registration : Registration) :
    Ledger ({ c with created := c.created ++ [registration.provider] }.suspendRun r
      (.inProviderInit todo (staged ++ [(name, registration)]))) where
  initialized_iff := hc.initialized_iff
  accounted := by
    intro p hp
    rcases List.mem_append.mp hp with hp | hp
    · exact (hc.accounted p hp).modify hr rfl rfl id
        fun h => by
          rw [hheld] at h
          simpa only [Stage.held, stagedIds, List.map_append] using List.mem_append_left _ h
    · obtain rfl := List.mem_singleton.mp hp
      refine .inr (.inr ⟨r, { run with
        stage := .inProviderInit todo (staged ++ [(name, registration)]), cancelled := false },
        ?_, ?_⟩)
      · rw [suspendRun_runs, List.getElem?_modify_eq, hr]
        rfl
      · simp [Stage.held, stagedIds]
  covers := hc.covers

theorem Ledger.startClose {c : Client} (hc : Ledger c) (p : ProviderId) :
    Ledger (c.startClose p) where
  initialized_iff := hc.initialized_iff
  accounted := fun q hq => (hc.accounted q hq).imp_left (List.mem_append_left _)
  covers := fun i call hi epoch rest firstError hphase =>
    (hc.covers i call hi epoch rest firstError hphase).imp_right fun h he q hq =>
      (h he q hq).imp_left (List.mem_append_left _)

theorem Ledger.setPhase {c : Client} (hc : Ledger c) (i : CallId) {phase : Phase}
    (hphase : c.PhaseCovers phase) : Ledger (c.setPhase i phase) where
  initialized_iff := hc.initialized_iff
  accounted := hc.accounted
  covers := by
    intro j call hj
    simp only [Client.setPhase, List.getElem?_modify, Option.map_eq_map,
      Option.map_eq_some_iff] at hj
    obtain ⟨call', hj, rfl⟩ := hj
    split
    · exact hphase
    · exact hc.covers j call' hj

theorem Ledger.addCall {x : Client × Phase} (hc : Ledger x.1) (method : Method)
    (hphase : x.1.PhaseCovers x.2) : Ledger (addCall method x) where
  initialized_iff := hc.initialized_iff
  accounted := hc.accounted
  covers := by
    intro j call hj
    simp only [AsyncClient.addCall, List.getElem?_append, List.getElem?_singleton] at hj
    split at hj
    · exact hc.covers j call hj
    · split at hj
      · cases hj
        exact hphase
      · cases hj

theorem Ledger.initTask {c : Client} (hc : Ledger c) (task : Option RunId) :
    Ledger { c with initTask := task } := ⟨hc.1, hc.2, hc.3⟩

theorem Ledger.clearIfDone {c : Client} (hc : Ledger c) (r : RunId) : Ledger (c.clearIfDone r) := by
  unfold Client.clearIfDone
  split
  · exact hc.initTask none
  · exact hc

theorem Ledger.endClose {c : Client} (hc : Ledger c) (error : Option PyError)
    (hclosed : ∀ p ∈ c.registered, p ∈ c.closeStarted) : Ledger (c.endClose error).1 where
  initialized_iff := by simp [Client.endClose]
  accounted := by
    intro p hp
    obtain h | h | h := hc.accounted p hp
    · exact .inl h
    · exact .inl (hclosed p h)
    · exact .inr (.inr h)
  covers := by
    intro i call hi epoch rest firstError hphase
    refine ⟨(hc.covers i call hi epoch rest firstError hphase).1, fun _ p hp => ?_⟩
    simp [Client.endClose, Client.registered] at hp

theorem Ledger.closeNext {c : Client} (hc : Ledger c) {epoch : ℕ} {rest : List ProviderId}
    (error : Option PyError) (hle : epoch ≤ c.commits)
    (hcover : epoch = c.commits → ∀ p ∈ c.registered, p ∈ c.closeStarted ∨ p ∈ rest)
    (hend : rest = [] → c.providers = [] ∨ epoch = c.commits) :
    Ledger (c.closeNext epoch error rest).1 ∧
      (c.closeNext epoch error rest).1.PhaseCovers (c.closeNext epoch error rest).2 := by
  obtain ⟨rfl, h⟩ | ⟨p, ps, rfl, h⟩ := closeNext_cases c epoch error rest <;> rw [h]
  · refine ⟨hc.endClose error ?_, phaseCovers_finished _ _⟩
    intro p hp
    rcases hend rfl with hnil | he
    · simp [Client.registered, hnil] at hp
    · exact (hcover he p hp).resolve_right List.not_mem_nil
  · refine ⟨hc.startClose p, ?_⟩
    rintro epoch' rest' firstError' ⟨⟩
    refine ⟨hle, fun he q hq => ?_⟩
    rcases hcover he q hq with h | h
    · exact .inl (List.mem_append_left _ h)
    · rcases List.mem_cons.mp h with rfl | h
      · exact .inl (List.mem_append_right _ (List.mem_singleton.mpr rfl))
      · exact .inr h

theorem Ledger.closeService {c : Client} (hc : Ledger c) :
    Ledger c.closeService.1 ∧ c.closeService.1.PhaseCovers c.closeService.2 := by
  obtain ⟨-, h⟩ | ⟨-, h⟩ := closeService_cases c <;> rw [h]
  · exact ⟨hc, phaseCovers_finished _ _⟩
  · exact hc.closeNext none (Nat.le_refl _) (fun _ p hp => .inr hp) fun _ => .inr rfl

theorem Ledger.closeTask {c : Client} (hc : Ledger c) {r : RunId} {run : Run} {j : ℕ}
    {closes : List (ProviderId × CloseTask)} {error : PyError} {p : ProviderId}
    {old new : CloseTask} (hr : c.runs[r]? = some run) (hs : run.stage = .inTeardown closes error)
    (hj : closes[j]? = some (p, old)) (hp : old = .scheduled false → p ∈ c.closeStarted) :
    Ledger (c.updateRun r (setCloseTask closes error j new)) where
  initialized_iff := hc.initialized_iff
  accounted := by
    intro q hq
    by_cases hpq : q = p ∧ old = .scheduled false
    · obtain ⟨rfl, hold⟩ := hpq
      exact .inl (hp hold)
    · refine (hc.accounted q hq).modify hr rfl rfl id fun hheld => ?_
      -- the entry of `q` is not the one that changed
      simp only [hs, setCloseTask, Stage.held, List.mem_map, List.mem_filter,
        decide_eq_true_eq] at hheld ⊢
      obtain ⟨⟨q', task⟩, ⟨hmem, htask⟩, hq'⟩ := hheld
      dsimp only at htask hq'
      subst htask hq'
      obtain ⟨k, hk⟩ := List.mem_iff_getElem?.mp hmem
      refine ⟨(q', .scheduled false), ⟨List.mem_iff_getElem?.mpr ⟨k, ?_⟩, rfl⟩, rfl⟩
      have hjk : j ≠ k := by
        rintro rfl
        rw [hj] at hk
        cases hk
        exact hpq ⟨rfl, rfl⟩
      rw [List.getElem?_modify_ne _ _ hjk, hk]
  covers := hc.covers

theorem cancelRun_held {run : Run}
    (h : ∀ closes error, run.stage = .inTeardown closes error →
      ∀ p cancelled, (p, CloseTask.scheduled cancelled) ∉ closes) :
    ∀ p ∈ run.stage.held, p ∈ (cancelRun run).stage.held := by
  intro p hp
  unfold cancelRun
  split
  · exact hp
  · rename_i closes error hs
    simp only [hs, Stage.held, List.mem_map, List.mem_filter, decide_eq_true_eq] at hp
    obtain ⟨⟨q, task⟩, ⟨hmem, htask⟩, -⟩ := hp
    dsimp only at htask
    subst htask
    exact absurd hmem (h closes error hs q false)
  · exact hp

theorem Ledger.cancelRun {c : Client} (hc : Ledger c) {r : RunId}
    (h : ∀ run, c.runs[r]? = some run → ∀ closes error, run.stage = .inTeardown closes error →
      ∀ p cancelled, (p, CloseTask.scheduled cancelled) ∉ closes) :
    Ledger (c.updateRun r cancelRun) := by
  cases hr : c.runs[r]? with
  | none =>
    have hsame : c.updateRun r AsyncClient.cancelRun = c := by
      rw [Client.updateRun, List.modify_eq_self (by simpa using hr)]
    rw [hsame]
    exact hc
  | some run =>
    exact ⟨hc.1, fun p hp => (hc.accounted p hp).modify hr rfl rfl id
      (cancelRun_held (h run hr) p), hc.3⟩

theorem ledger_step {setup : Setup} {c c' : Client} {l : Label} (hc : Ledger c)
    (hg : DropsNoProvider setup c l) (h : step setup c l = some c') : Ledger c' := by
  cases l with
  | callInitialize registry =>
    cases h
    obtain ⟨-, h⟩ | ⟨-, e, -, h⟩ | ⟨-, -, ht, h⟩ | ⟨-, -, r, outcome, ht, ho, h⟩ |
      ⟨-, -, r, -, -, h⟩ := beginInitialize_cases setup c registry <;> rw [h]
    · exact hc.addCall _ (phaseCovers_finished _ _)
    · exact hc.addCall _ (phaseCovers_finished _ _)
    · refine Ledger.addCall ⟨hc.initialized_iff, ?_, hc.covers⟩ _ (phaseCovers_awaitingRun _ _ _)
      intro p hp
      obtain h | h | ⟨q, run, hq, hp⟩ := hc.accounted p hp
      · exact .inl h
      · exact .inr (.inl h)
      · refine .inr (.inr ⟨q, run, ?_, hp⟩)
        rw [List.getElem?_append_left (List.getElem?_eq_some_iff.mp hq).1, hq]
    · exact (hc.initTask none).addCall _ (phaseCovers_finished _ _)
    · exact hc.addCall _ (phaseCovers_awaitingRun _ _ _)
  | callClose =>
    cases h
    obtain ⟨-, h⟩ | ⟨r, outcome, -, -, h⟩ | ⟨r, ht, -, h⟩ := beginClose_cases c <;> rw [h]
    · exact hc.closeService.1.addCall _ hc.closeService.2
    · exact (hc.initTask none).closeService.1.addCall _ (hc.initTask none).closeService.2
    · refine (hc.cancelRun ?_).addCall _ (phaseCovers_awaitingCancelled _ _)
      intro run hr closes error hs p cancelled hmem
      exact hg.cancel ⟨rfl, r, run, closes, error, cancelled, p, ht, hr, hs, hmem⟩
  | cancelCaller i =>
    obtain ⟨call, r, outerDone, -, -, rfl⟩ := cancelCaller_cases h
    refine ⟨hc.initialized_iff, hc.accounted, fun j call hj => ?_⟩
    simp only [List.getElem?_modify, Option.map_eq_map, Option.map_eq_some_iff] at hj
    obtain ⟨call', hj, rfl⟩ := hj
    split <;> exact hc.covers j call' hj
  | startRun r =>
    obtain ⟨run, hr, hs, ⟨-, rfl⟩ | ⟨-, rfl⟩⟩ := startRun_cases h
    · exact hc.endRaised hr (by simp [hs, Stage.held]) _
    · exact hc.continueLoop hr (by simp [hs, Stage.held, stagedIds]) (by simp)
  | factoryStep r response =>
    obtain ⟨run, name, todo, staged, hr, hs, ⟨-, rfl⟩ | ⟨registration, -, rfl⟩ | ⟨e, -, rfl⟩⟩ :=
      factoryStep_cases h
    · exact hc.suspendRun hr (by simp [hs, Stage.held])
    · exact hc.stage hr (by simp [hs, Stage.held]) registration
    · exact hc.failRun hr (by simp [hs, Stage.held]) e
  | providerInitStep r response =>
    obtain ⟨run, todo, staged, hr, hs, ⟨-, rfl⟩ | ⟨rfl, rfl⟩ | ⟨e, -, rfl⟩⟩ :=
      providerInitStep_cases h
    · exact hc.suspendRun hr (by simp [hs, Stage.held])
    · -- a commit replaces the map, which is empty under the condition
      refine hc.continueLoop hr (by simp [hs, Stage.held]) fun hnext hd => ?_
      exact hg.commit ⟨r, run, todo, staged, rfl, hr, hs, hnext, hd⟩
    · exact hc.failRun hr (by simp [hs, Stage.held]) e
  | closeTaskStep r j =>
    obtain ⟨run, closes, error, p, task, hr, hs, hj, ⟨-, rfl⟩ | ⟨htask, rfl⟩⟩ :=
      closeTaskStep_cases h
    · exact (hc.startClose p).closeTask hr hs hj fun _ =>
        List.mem_append_right _ (List.mem_singleton.mpr rfl)
    · refine hc.closeTask hr hs hj fun hold => ?_
      rcases htask with h | h <;> rw [hold] at h <;> cases h
  | teardownDone r =>
    obtain ⟨run, closes, error, hr, hs, hall, rfl⟩ := teardownDone_cases h
    refine hc.endRaised hr ?_ _
    -- every task has ended, so the run holds no provider any more
    rw [hs, Stage.held, List.map_eq_nil_iff, List.filter_eq_nil_iff]
    intro x hx
    simp [hall x hx]
  | shieldCallback i =>
    obtain ⟨call, r, outcome, -, -, -, rfl⟩ := shieldCallback_cases h
    exact hc.setPhase i (phaseCovers_awaitingRun _ _ _)
  | resumeInitialize i =>
    obtain ⟨call, r, outerDone, -, -, ⟨-, rfl⟩ | ⟨outcome, -, -, -, rfl⟩⟩ :=
      resumeInitialize_cases h
    · exact (hc.clearIfDone r).setPhase i (phaseCovers_finished _ _)
    · exact (hc.clearIfDone r).setPhase i (phaseCovers_finished _ _)
  | resumeClose i =>
    obtain ⟨call, r, outcome, -, -, -, ⟨-, rfl⟩ | ⟨-, rfl⟩⟩ := resumeClose_cases h
    · exact (hc.initTask none).closeService.1.setPhase i (hc.initTask none).closeService.2
    · exact hc.setPhase i (phaseCovers_finished _ _)
  | providerCloseStep i response =>
    obtain ⟨call, epoch, rest, firstError, hi, hp, hcase⟩ := providerCloseStep_cases h
    obtain ⟨hle, hcover⟩ := hc.covers i call hi epoch rest firstError hp
    obtain rfl | ⟨error, hresp, rfl⟩ | ⟨e, rfl, he, rfl⟩ := hcase
    · exact hc
    · have hnext := hc.closeNext error hle hcover fun hnil => by
        refine (hg.close epoch rest ⟨i, call, firstError, response, rfl, hi, hp, ?_⟩).2
        exact hresp.imp (fun h => ⟨h, hnil⟩) fun ⟨e, h, _⟩ => ⟨e, h, .inl hnil⟩
      exact hnext.1.setPhase i hnext.2
    · -- the loop is left early, with nothing after the provider that raised
      obtain ⟨rfl, hmap⟩ := hg.close epoch rest
        ⟨i, call, firstError, _, rfl, hi, hp, .inr ⟨e, rfl, .inr he⟩⟩
      refine (hc.endClose (some e) fun p hpr => ?_).setPhase i (phaseCovers_finished _ _)
      rcases hmap with hnil | heq
      · simp [Client.registered, hnil] at hpr
      · exact (hcover heq p hpr).resolve_right List.not_mem_nil

theorem Ledger.noLeak {c : Client} (hc : Ledger c) (hq : Quiescent c) : NoLeak c := by
  intro p hp
  obtain h | h | ⟨r, run, hr, hheld⟩ := hc.accounted p hp
  · exact .inl h
  · refine .inr ⟨h, hc.initialized_iff.mpr ?_⟩
    rintro hnil
    simp [Client.registered, hnil] at h
  · obtain ⟨outcome, ho⟩ := hq.2 run (List.mem_of_getElem? hr)
    rw [ho] at hheld
    cases hheld

/-- Two `close()` calls overlap. The first ends, a fresh `initialize()` commits provider
2, and then the second one clears the maps. -/
def droppedRunLabels : List Label :=
  [.callInitialize none, .startRun 0, .factoryStep 0 (.returns ⟨1, 0⟩),
    .providerInitStep 0 (.returns ()), .shieldCallback 0, .resumeInitialize 0,
    .callClose, .callClose, .providerCloseStep 1 (.returns ()),
    .callInitialize none, .startRun 1, .factoryStep 1 (.returns ⟨2, 0⟩),
    .providerInitStep 1 (.returns ()), .shieldCallback 3, .resumeInitialize 3,
    .providerCloseStep 2 (.returns ())]

def droppedRun : Client := ((machine soloSetup).exec droppedRunLabels).getD .new

theorem droppedRun_reachable : (machine soloSetup).Reachable droppedRun :=
  Machine.reachable_exec droppedRunLabels rfl

theorem quiescent_of_all {c : Client}
    (hcalls : ∀ call ∈ c.calls, call.phase = .finished .returned)
    (hruns : ∀ run ∈ c.runs, run.stage = .finished .returned) : Quiescent c :=
  ⟨fun call h => ⟨_, hcalls call h⟩, fun run h => ⟨_, hruns run h⟩⟩

theorem not_always_no_leak :
    ¬ ∀ setup c, (machine setup).Reachable c → Quiescent c → NoLeak c := by
  intro h
  have hq : Quiescent droppedRun := quiescent_of_all (by decide) (by decide)
  rcases h soloSetup droppedRun droppedRun_reachable hq 2 (by decide) with hclosed | ⟨hreg, -⟩
  · exact absurd hclosed (by decide)
  · exact absurd hreg (by decide)

/-- A run of the client none of whose steps drops a provider leaks none. -/
theorem no_leak_of_dropsNoProvider (setup : Setup) {h : List (Client × Label)} {c : Client}
    (hex : (machine setup).Execution h c) (hg : ∀ p ∈ h, DropsNoProvider setup p.1 p.2) :
    Machine.Always (fun c => Quiescent c → NoLeak c) h c := by
  have hledger : Machine.Always Ledger h c :=
    Machine.Execution.always (DropsNoProvider setup) ledger_new
      (fun s l s' hs hl hstep => ledger_step hs hl hstep) hex hg
  exact ⟨hledger.1.noLeak, fun p hp => (hledger.2 p hp).noLeak⟩

/-- A run of `_run_initialize` that fails after its only factory returned a provider. -/
def tornDownLabels : List Label :=
  [.callInitialize none, .startRun 0, .factoryStep 0 (.returns ⟨1, 0⟩),
    .providerInitStep 0 (.raises (.exception 7)), .closeTaskStep 0 0, .closeTaskStep 0 0,
    .teardownDone 0, .shieldCallback 0, .resumeInitialize 0]

def tornDown : Client := ((machine soloSetup).exec tornDownLabels).getD .new

theorem dropsNoProvider_of_label {setup : Setup} (c : Client) {l : Label} (hclose : l ≠ .callClose)
    (hinit : ∀ r, l ≠ .providerInitStep r (.returns ()))
    (hstep : ∀ i response, l ≠ .providerCloseStep i response) : DropsNoProvider setup c l where
  cancel := fun h => hclose h.1
  commit := fun ⟨r, _, _, _, h, _⟩ => absurd h (hinit r)
  close := fun _ _ ⟨i, _, _, response, h, _⟩ => absurd h (hstep i response)

theorem no_leak_tornDown :
    ∃ h, (machine soloSetup).Execution h tornDown ∧
      Machine.Always (fun c => Quiescent c → NoLeak c) h tornDown := by
  have hby : (machine soloSetup).ReachableBy (DropsNoProvider soloSetup) tornDown := by
    refine Machine.reachableBy_exec _ tornDownLabels (fun c l hl => ?_) rfl
    simp only [tornDownLabels, List.mem_cons, List.not_mem_nil, or_false] at hl
    apply dropsNoProvider_of_label c <;> rcases hl with rfl | rfl | rfl | rfl | rfl | rfl | rfl |
      rfl | rfl <;> simp
  obtain ⟨h, hex, hg⟩ := hby
  exact ⟨h, hex, no_leak_of_dropsNoProvider soloSetup hex hg⟩

end AtomicMemory.AsyncClient
