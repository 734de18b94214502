import AtomicMemory.Client.AsyncSteps

-- Concurrent `initialize()` calls share the task in `_init_task`. Both `initialize`'s
-- `finally` and `close` clear that slot after an await; when another call has stored a
-- newer task meanwhile, the newer task is lost.

namespace AtomicMemory.AsyncClient

def SingleFlight (c : Client) : Prop :=
  (∀ r q, c.Unfinished r → c.Unfinished q → r = q) ∧ ∀ r, c.Unfinished r → c.initTask = some r

theorem singleFlight_iff {c : Client} :
    SingleFlight c ↔ ∀ r, c.Unfinished r → c.initTask = some r := by
  refine ⟨And.right, fun h => ⟨fun r q hr hq => ?_, h⟩⟩
  have := (h r hr).symm.trans (h q hq)
  exact Option.some.inj this

/-- The step resumes a call that awaited a run, and assigns `None` to the slot. -/
def ClearsAfterAwait (c : Client) : Label → Prop
  | .resumeInitialize i => ∃ call r outerDone outcome, c.calls[i]? = some call ∧
      call.phase = .awaitingRun r outerDone ∧ c.outcome? r = some outcome
  | .resumeClose i => ∃ call r outcome, c.calls[i]? = some call ∧
      call.phase = .awaitingCancelled r ∧ c.outcome? r = some outcome ∧ suppressed outcome = true
  | _ => False

def ClearsNoNewerRun (c : Client) (l : Label) : Prop :=
  ClearsAfterAwait c l → ∀ q, c.initTask = some q → ¬ c.Unfinished q

theorem clearsAfterAwait_effect {setup : Setup} {c c' : Client} {l : Label}
    (hl : ClearsAfterAwait c l) (h : step setup c l = some c') :
    c'.initTask = none ∧ c'.runs = c.runs := by
  cases l <;> simp only [ClearsAfterAwait] at hl
  case resumeInitialize i =>
    obtain ⟨call, r, outerDone, outcome, hi, hp, ho⟩ := hl
    obtain ⟨call', r', outerDone', hi', hp', hc⟩ := resumeInitialize_cases h
    rw [hi] at hi'
    cases hi'
    rw [hp] at hp'
    cases hp'
    have hclear : c.clearIfDone r = { c with initTask := none } := by
      simp [Client.clearIfDone, ho]
    obtain ⟨-, rfl⟩ | ⟨outcome', -, -, -, rfl⟩ := hc <;> rw [hclear] <;> exact ⟨rfl, rfl⟩
  case resumeClose i =>
    obtain ⟨call, r, outcome, hi, hp, ho, hs⟩ := hl
    obtain ⟨call', r', outcome', hi', hp', ho', hc⟩ := resumeClose_cases h
    rw [hi] at hi'
    cases hi'
    rw [hp] at hp'
    cases hp'
    rw [ho] at ho'
    cases ho'
    obtain ⟨-, rfl⟩ | ⟨hs', -⟩ := hc
    · simp
    · rw [hs] at hs'
      cases hs'

theorem unfinished_addRun {c d : Client} {run : Run} (hruns : d.runs = c.runs ++ [run]) {r : RunId}
    (hu : d.Unfinished r) : c.Unfinished r ∨ r = c.runs.length := by
  by_cases hr : r = c.runs.length
  · exact .inr hr
  · left
    obtain ⟨run, hget, hs⟩ := hu
    rw [hruns] at hget
    have hlt : r < c.runs.length := by
      have hlt := (List.getElem?_eq_some_iff.mp hget).1
      rw [List.length_append, List.length_singleton] at hlt
      exact Nat.lt_of_le_of_ne (Nat.le_of_lt_succ hlt) hr
    exact ⟨run, (List.getElem?_append_left hlt).symm.trans hget, hs⟩

theorem unfinished_cancelRun {c d : Client} {r q : RunId}
    (hruns : d.runs = c.runs.modify r cancelRun) (hu : d.Unfinished q) : c.Unfinished q := by
  obtain ⟨run, hget, hs⟩ := hu
  rw [hruns] at hget
  simp only [List.getElem?_modify, Option.map_eq_map, Option.map_eq_some_iff] at hget
  obtain ⟨run', hget, rfl⟩ := hget
  refine ⟨run', hget, fun outcome ho => hs outcome ?_⟩
  split
  · exact (cancelRun_stage outcome).mpr ho
  · exact ho

theorem step_slot {setup : Setup} {c c' : Client} {l : Label} (h : step setup c l = some c') :
    (c'.initTask = c.initTask ∧ ∀ r, c'.Unfinished r → c.Unfinished r) ∨
    (c.initTask = none ∧ c'.initTask = some c.runs.length ∧
      ∀ r, c'.Unfinished r → c.Unfinished r ∨ r = c.runs.length) ∨
    (c'.initTask = none ∧ c'.runs = c.runs ∧
      (ClearsAfterAwait c l ∨ ∃ r, c.initTask = some r ∧ ¬ c.Unfinished r)) := by
  have same (hruns : c'.runs = c.runs) : ∀ r, c'.Unfinished r → c.Unfinished r :=
    fun r => (unfinished_congr (by rw [hruns])).mp
  cases hrun : l.run? with
  | some r =>
    obtain ⟨hr, hstep⟩ := step_run h hrun
    exact .inl ⟨hstep.initTask, fun q => hstep.unfinished hr⟩
  | none =>
    cases l <;> simp only [Label.run?, reduceCtorEq] at hrun
    case callInitialize registry =>
      cases h
      obtain ⟨-, h⟩ | ⟨-, e, -, h⟩ | ⟨-, -, ht, h⟩ | ⟨-, -, r, outcome, ht, ho, h⟩ |
        ⟨-, -, r, -, -, h⟩ := beginInitialize_cases setup c registry <;> rw [h]
      · exact .inl ⟨rfl, fun r => id⟩
      · exact .inl ⟨rfl, fun r => id⟩
      · exact .inr (.inl ⟨ht, rfl, fun r hu => unfinished_addRun rfl hu⟩)
      · exact .inr (.inr ⟨rfl, rfl, .inr ⟨r, ht, not_unfinished_of_outcome ho⟩⟩)
      · exact .inl ⟨rfl, fun r => id⟩
    case callClose =>
      cases h
      obtain ⟨ht, h⟩ | ⟨r, outcome, ht, ho, h⟩ | ⟨r, ht, ho, h⟩ := beginClose_cases c
      · refine .inl ⟨?_, same ?_⟩ <;> simp [addCall, h]
      · refine .inr (.inr ⟨?_, ?_, .inr ⟨r, ht, not_unfinished_of_outcome ho⟩⟩) <;>
          simp [addCall, h]
      · refine .inl ⟨by simp [addCall, h, Client.updateRun], fun q hq => ?_⟩
        exact unfinished_cancelRun (r := r) (by simp [addCall, h, updateRun_runs]) hq
    case cancelCaller i =>
      obtain ⟨call, r, outerDone, -, -, rfl⟩ := cancelCaller_cases h
      exact .inl ⟨rfl, fun r => id⟩
    case shieldCallback i =>
      obtain ⟨call, r, outcome, -, -, -, rfl⟩ := shieldCallback_cases h
      exact .inl ⟨rfl, fun r => id⟩
    case resumeInitialize i =>
      obtain ⟨call, r, outerDone, hi, hp, hc⟩ := resumeInitialize_cases h
      cases ho : c.outcome? r with
      | some outcome =>
        -- the awaited run is done: the slot is cleared, whatever it holds
        have hl : ClearsAfterAwait c (.resumeInitialize i) :=
          ⟨call, r, outerDone, outcome, hi, hp, ho⟩
        have heff := clearsAfterAwait_effect hl h
        exact .inr (.inr ⟨heff.1, heff.2, .inl hl⟩)
      | none =>
        -- only a cancelled caller is resumed before its run is done
        have hclear : c.clearIfDone r = c := by simp [Client.clearIfDone, ho]
        obtain ⟨-, rfl⟩ | ⟨outcome, -, -, ho', -⟩ := hc
        · rw [hclear]
          exact .inl ⟨rfl, fun r => id⟩
        · rw [ho] at ho'
          cases ho'
    case resumeClose i =>
      obtain ⟨call, r, outcome, hi, hp, ho, ⟨hs, -⟩ | ⟨-, rfl⟩⟩ := resumeClose_cases h
      · have hl : ClearsAfterAwait c (.resumeClose i) := ⟨call, r, outcome, hi, hp, ho, hs⟩
        have heff := clearsAfterAwait_effect hl h
        exact .inr (.inr ⟨heff.1, heff.2, .inl hl⟩)
      · exact .inl ⟨rfl, fun r => id⟩
    case providerCloseStep i response =>
      obtain ⟨call, epoch, rest, firstError, -, -, rfl | ⟨error, -, rfl⟩ | ⟨e, -, -, rfl⟩⟩ :=
        providerCloseStep_cases h
      · exact .inl ⟨rfl, fun r => id⟩
      · refine .inl ⟨?_, same ?_⟩ <;> simp
      · exact .inl ⟨rfl, fun r => id⟩

theorem singleFlight_new : SingleFlight .new := by
  refine singleFlight_iff.mpr fun r hr => ?_
  obtain ⟨run, hget, -⟩ := hr
  simp [Client.new] at hget

theorem singleFlight_step {setup : Setup} {c c' : Client} {l : Label} (hc : SingleFlight c)
    (hg : ClearsNoNewerRun c l) (h : step setup c l = some c') : SingleFlight c' := by
  rw [singleFlight_iff] at hc ⊢
  intro r hr
  obtain ⟨ht, hu⟩ | ⟨hnone, ht, hu⟩ | ⟨-, hruns, hclear⟩ := step_slot h
  · rw [ht]
    exact hc r (hu r hr)
  · rcases hu r hr with hold | rfl
    · have := hc r hold
      rw [hnone] at this
      cases this
    · exact ht
  · -- the slot held no unfinished run, so there was none at all
    have hold : c.Unfinished r := (unfinished_congr (by rw [hruns])).mp hr
    exfalso
    rcases hclear with hl | ⟨q, hq, hnot⟩
    · exact hg hl r (hc r hold) hold
    · have := hq.symm.trans (hc r hold)
      cases this
      exact hnot hold

theorem not_singleFlight_step {setup : Setup} {c c' : Client} {l : Label}
    (hg : ¬ ClearsNoNewerRun c l) (h : step setup c l = some c') : ¬ SingleFlight c' := by
  simp only [ClearsNoNewerRun, not_forall, not_not] at hg
  obtain ⟨hl, q, -, hq⟩ := hg
  obtain ⟨ht, hruns⟩ := clearsAfterAwait_effect hl h
  intro hc
  have hq' : c'.Unfinished q := (unfinished_congr (by rw [hruns])).mpr hq
  have := hc.2 q hq'
  rw [ht] at this
  cases this

def soloSetup : Setup := ⟨⟨["p"], "p", by decide, by decide⟩, ⟨0, ["p"]⟩⟩

/-- A caller waits for run 0, `close()` cancels the run, and the closer calls
`initialize()` again, all before the waiter of run 0 is resumed. -/
def lostRunLabels : List Label :=
  [.callInitialize none, .startRun 0, .callClose, .factoryStep 0 (.raises .cancelledError),
    .shieldCallback 0, .resumeClose 1, .callInitialize none, .resumeInitialize 0,
    .callInitialize none]

def lostRun : Client := ((machine soloSetup).exec lostRunLabels).getD .new

theorem lostRun_reachable : (machine soloSetup).Reachable lostRun :=
  Machine.reachable_exec lostRunLabels rfl

theorem lostRun_not_singleFlight : ¬ SingleFlight lostRun := by
  intro h
  have h1 : lostRun.Unfinished 1 := by decide
  have h2 : lostRun.Unfinished 2 := by decide
  exact absurd (h.1 1 2 h1 h2) (by decide)

theorem not_always_single_flight :
    ¬ ∀ setup c, (machine setup).Reachable c → SingleFlight c := fun h =>
  lostRun_not_singleFlight (h soloSetup lostRun lostRun_reachable)

/-- Exactly the runs of the client in which no call clears a newer run are single
flight throughout. -/
theorem single_flight_iff (setup : Setup) {h : List (Client × Label)} {c : Client}
    (hex : (machine setup).Execution h c) :
    Machine.Always SingleFlight h c ↔ ∀ p ∈ h, ClearsNoNewerRun p.1 p.2 := by
  apply Machine.Execution.always_iff (M := machine setup) singleFlight_new _ _ hex
  · exact fun c l c' hc hg hs => singleFlight_step hc hg hs
  · exact fun c l c' _ hg hs => not_singleFlight_step hg hs

theorem single_flight_iff_lostRun :
    ∃ h, (machine soloSetup).Execution h lostRun ∧ ¬ ∀ p ∈ h, ClearsNoNewerRun p.1 p.2 := by
  obtain ⟨h, hex⟩ := lostRun_reachable
  exact ⟨h, hex, fun hg => lostRun_not_singleFlight ((single_flight_iff soloSetup hex).mpr hg).1⟩

end AtomicMemory.AsyncClient
