import AtomicMemory.Client.ProviderLeak

-- A caller may be told that the client is initialized while a `close()` closes the same
-- providers, or after one has. The invariant says who may still be told so, and that the
-- registered providers are untouched then.

namespace AtomicMemory.AsyncClient

/-- The epoch of the service `close()` loop a call is suspended in. -/
def Phase.epoch? : Phase → Option ℕ
  | .inServiceClose epoch _ _ => some epoch
  | _ => none

/-- The run a caller of `initialize()` that was not cancelled waits for. -/
def Call.waitsFor (call : Call) : Option RunId :=
  match call.phase with
  | .awaitingRun r _ => if call.cancelled then none else some r
  | _ => none

/-- Some `close()` is suspended in its loop over the map of commit `epoch`. -/
def Client.InLoop (c : Client) (epoch : ℕ) : Prop :=
  some epoch ∈ c.calls.map fun call => call.phase.epoch?

/-- Some `close()` is suspended in its loop over the current map. -/
def Client.Closing (c : Client) : Prop := c.InLoop c.commits

def Client.Awaited (c : Client) : Prop :=
  ∃ r : RunId, some r ∈ c.calls.map Call.waitsFor ∧ c.outcome? r = some .returned

def Client.SlotReturned (c : Client) : Prop :=
  ∃ r : RunId, c.initTask = some r ∧ c.outcome? r = some .returned

/-- The step ends an `initialize()` call, and it returns normally. -/
def ReturnsNormally (setup : Setup) (c : Client) (l : Label) : Prop :=
  (∃ registry, l = .callInitialize registry ∧
    (beginInitialize setup c registry).2 = .finished .returned) ∨
  ∃ (i : CallId) (call : Call) (r : RunId), l = .resumeInitialize i ∧ c.calls[i]? = some call ∧
    call.phase = .awaitingRun r true ∧ call.cancelled = false ∧ c.outcome? r = some .returned

/-- The client is initialized, with the default provider, and no registered provider has
had `close()` called on it since the commit. -/
structure Ready (setup : Setup) (c : Client) : Prop where
  initialized : c.initialized = true
  nonempty : c.providers ≠ []
  default_mem : setup.config.defaultProvider ∈ c.providers.map Prod.fst
  untouched : ∀ p ∈ c.registered, p ∉ c.closedSinceCommit

/-- The step begins the service's `close()`. -/
def EntersServiceClose (c : Client) (l : Label) : Prop :=
  c.initialized = true ∧
    ((l = .callClose ∧ ∀ r, c.initTask = some r → ∃ outcome, c.outcome? r = some outcome) ∨
      ∃ (i : CallId) (call : Call) (r : RunId) (outcome : Outcome), l = .resumeClose i ∧
        c.calls[i]? = some call ∧ call.phase = .awaitingCancelled r ∧
        c.outcome? r = some outcome ∧ suppressed outcome = true)

/-- The step starts `close()` on `p` in a teardown, or in a loop over an older map. -/
def ClosesElsewhere (c : Client) (l : Label) (p : ProviderId) : Prop :=
  (∃ (r : RunId) (j : ℕ) (run : Run) (closes : List (ProviderId × CloseTask)) (error : PyError),
    l = .closeTaskStep r j ∧ c.runs[r]? = some run ∧ run.stage = .inTeardown closes error ∧
    closes[j]? = some (p, .scheduled false)) ∨
  ∃ (i : CallId) (call : Call) (epoch : ℕ) (rest : List ProviderId)
    (firstError : Option PyError) (response : Response Unit), l = .providerCloseStep i response ∧
    c.calls[i]? = some call ∧ call.phase = .inServiceClose epoch (p :: rest) firstError ∧
    epoch ≠ c.commits ∧
    (response = .returns () ∨ ∃ e, response = .raises e ∧ e.isException = true)

/-- The step takes none of the branches after which a caller is told wrongly that the
client is initialized. -/
structure MisleadsNoCaller (c : Client) (l : Label) : Prop where
  /-- `initialize()` does not return early during a `close()` of the current map. -/
  early : ∀ registry, l = .callInitialize registry → c.initialized = true → ¬ c.Closing
  /-- No `close()` begins while a caller has yet to learn that its run succeeded. -/
  enters : EntersServiceClose c l → ¬ c.Awaited
  /-- No `close()` of an older map clears the current one while a caller has yet to learn
  of it, or may learn of it from the slot. -/
  leaves : ∀ epoch rest, LeavesServiceClose c l epoch rest →
    epoch = c.commits ∨ c.providers = [] ∨ ¬ (c.Awaited ∨ c.SlotReturned)
  /-- No registered instance is also one of an older map or of a failed run. -/
  closes : ∀ p, ClosesElsewhere c l p → p ∉ c.registered

structure MapInvariant (setup : Setup) (c : Client) : Prop where
  initialized_iff : c.initialized = true ↔ c.providers ≠ []
  default_mem : c.providers ≠ [] → setup.config.defaultProvider ∈ c.providers.map Prod.fst
  epochs : ∀ epoch, c.InLoop epoch → epoch ≤ c.commits
  awaited : c.Awaited ∨ c.SlotReturned → c.initialized = true ∧ ¬ c.Closing
  untouched : c.initialized = true → ¬ c.Closing →
    ∀ p ∈ c.registered, p ∉ c.closedSinceCommit

theorem mapInvariant_new (setup : Setup) : MapInvariant setup .new where
  initialized_iff := by simp [Client.new]
  default_mem := by simp [Client.new]
  epochs := by simp [Client.InLoop, Client.new]
  awaited := by simp [Client.Awaited, Client.SlotReturned, Client.new]
  untouched := by simp [Client.new]

theorem MapInvariant.ready {setup : Setup} {c : Client} (hc : MapInvariant setup c)
    (hi : c.initialized = true) (hclosing : ¬ c.Closing) : Ready setup c where
  initialized := hi
  nonempty := hc.initialized_iff.mp hi
  default_mem := hc.default_mem (hc.initialized_iff.mp hi)
  untouched := hc.untouched hi hclosing

/-- What a step that leaves the map, its epoch and the loops alone has to show. -/
theorem MapInvariant.of_same {setup : Setup} {c c' : Client} (hc : MapInvariant setup c)
    (hinit : c'.initialized = c.initialized) (hmap : c'.providers = c.providers)
    (hcommits : c'.commits = c.commits)
    (hin : ∀ epoch, c'.InLoop epoch ↔ c.InLoop epoch)
    (hwait : c'.Awaited ∨ c'.SlotReturned → c.Awaited ∨ c.SlotReturned)
    (hclosed : ¬ c.Closing →
      ∀ p ∈ c.registered, p ∈ c'.closedSinceCommit → p ∈ c.closedSinceCommit) :
    MapInvariant setup c' := by
  have hclosing : c'.Closing ↔ c.Closing := by
    unfold Client.Closing
    rw [hcommits]
    exact hin _
  have hreg : c'.registered = c.registered := by
    unfold Client.registered
    rw [hmap]
  constructor
  · rw [hinit, hmap]
    exact hc.initialized_iff
  · rw [hmap]
    exact hc.default_mem
  · intro epoch h
    rw [hcommits]
    exact hc.epochs epoch ((hin epoch).mp h)
  · intro h
    rw [hinit, hclosing]
    exact hc.awaited (hwait h)
  · intro hi hnot p hp hclosed'
    rw [hinit] at hi
    rw [hclosing] at hnot
    rw [hreg] at hp
    exact hc.untouched hi hnot p hp (hclosed hnot p hp hclosed')

theorem outcome?_returned_of_modify {c c' : Client} {r : RunId} {f : Run → Run}
    (hruns : c'.runs = c.runs.modify r f)
    (hf : ∀ run, c.runs[r]? = some run → (f run).stage ≠ .finished .returned) {q : RunId}
    (h : c'.outcome? q = some .returned) : c.outcome? q = some .returned := by
  obtain ⟨run', hq, hs⟩ := outcome?_eq_some.mp h
  rw [hruns, List.getElem?_modify, Option.map_eq_map, Option.map_eq_some_iff] at hq
  obtain ⟨run, hq, rfl⟩ := hq
  split at hs
  · rename_i hrq
    subst hrq
    exact absurd hs (hf run hq)
  · exact outcome?_eq_some.mpr ⟨run, hq, hs⟩

/-- The step leaves the map and what is known of its providers alone, and no run
succeeds in it. -/
structure KeepsMap (c c' : Client) : Prop where
  initialized : c'.initialized = c.initialized
  providers : c'.providers = c.providers
  commits : c'.commits = c.commits
  closedSinceCommit : c'.closedSinceCommit = c.closedSinceCommit
  returned : ∀ q, c'.outcome? q = some .returned → c.outcome? q = some .returned

theorem keepsMap_suspendRun (c : Client) (r : RunId) {stage : Stage}
    (hstage : stage ≠ .finished .returned) : KeepsMap c (c.suspendRun r stage) :=
  ⟨rfl, rfl, rfl, rfl, fun _ => outcome?_returned_of_modify rfl fun _ _ => hstage⟩

theorem keepsMap_endRaised (c : Client) (r : RunId) (e : PyError) :
    KeepsMap c (c.endRun r (.raised e)) :=
  ⟨rfl, rfl, rfl, rfl, fun _ => outcome?_returned_of_modify rfl fun _ _ => by simp⟩

theorem keepsMap_failRun (c : Client) (r : RunId) (staged : Staged) (e : PyError) :
    KeepsMap c (c.failRun r staged e) := by
  obtain ⟨-, h⟩ | ⟨-, h⟩ := failRun_cases c r staged e <;> rw [h]
  · exact keepsMap_endRaised c r e
  · exact keepsMap_suspendRun c r (by simp)

structure CommitsMap (setup : Setup) (c c' : Client) : Prop where
  initialized : c'.initialized = true
  default_mem : setup.config.defaultProvider ∈ c'.providers.map Prod.fst
  commits : c'.commits = c.commits + 1
  closedSinceCommit : c'.closedSinceCommit = []

theorem continueLoop_map (setup : Setup) (c : Client) (r : RunId) (registry : Registry)
    (todo : List String) (staged : Staged) :
    KeepsMap c (c.continueLoop setup.config r registry todo staged) ∨
      CommitsMap setup c (c.continueLoop setup.config r registry todo staged) := by
  obtain ⟨name, rest, -, h⟩ | ⟨-, hd, h⟩ | ⟨-, -, h⟩ :=
    continueLoop_cases setup.config c r registry todo staged <;> rw [h]
  · exact .inl ⟨rfl, rfl, rfl, rfl, fun _ => outcome?_returned_of_modify rfl fun _ _ => by simp⟩
  · have hkeys : ((c.commit staged).endRun r .returned).providers.map Prod.fst =
        staged.map Prod.fst := by
      simp [Client.endRun, Client.suspendRun, Client.updateRun, Client.commit]
    exact .inr ⟨rfl, hkeys ▸ hd, rfl, rfl⟩
  · exact .inl (keepsMap_failRun c r staged _)

/-- A run's step keeps the map, or commits one, or starts a `close()` of its teardown. -/
theorem step_run_map {setup : Setup} {c c' : Client} {l : Label} {r : RunId}
    (h : step setup c l = some c') (hl : l.run? = some r) :
    KeepsMap c c' ∨ CommitsMap setup c c' ∨
      ∃ p, ClosesElsewhere c l p ∧ KeepsMap (c.startClose p) c' := by
  cases l <;> simp only [Label.run?, reduceCtorEq, Option.some.injEq] at hl <;> subst hl
  -- only a run at the end of its names replaces the map
  case startRun r =>
    obtain ⟨run, hr, hs, ⟨-, rfl⟩ | ⟨-, rfl⟩⟩ := startRun_cases h
    · exact .inl (keepsMap_endRaised c r _)
    · exact (continueLoop_map setup c r _ _ _).imp_right .inl
  case factoryStep r response =>
    obtain ⟨run, name, todo, staged, hr, hs, ⟨-, rfl⟩ | ⟨registration, -, rfl⟩ | ⟨e, -, rfl⟩⟩ :=
      factoryStep_cases h
    · exact .inl (keepsMap_suspendRun c r (by simp))
    · exact .inl ⟨rfl, rfl, rfl, rfl,
        fun _ => outcome?_returned_of_modify rfl fun _ _ => by simp⟩
    · exact .inl (keepsMap_failRun c r staged e)
  case providerInitStep r response =>
    obtain ⟨run, todo, staged, hr, hs, ⟨-, rfl⟩ | ⟨-, rfl⟩ | ⟨e, -, rfl⟩⟩ :=
      providerInitStep_cases h
    · exact .inl (keepsMap_suspendRun c r (by simp))
    · exact (continueLoop_map setup c r _ _ _).imp_right .inl
    · exact .inl (keepsMap_failRun c r staged e)
  -- the teardown of a failed run may start the close of a provider
  case closeTaskStep r j =>
    have hstage (run : Run) (closes : List (ProviderId × CloseTask)) (error : PyError)
        (task : CloseTask) : (setCloseTask closes error j task run).stage ≠
          .finished .returned := by simp [setCloseTask]
    obtain ⟨run, closes, error, p, task, hr, hs, hj, ⟨rfl, rfl⟩ | ⟨-, rfl⟩⟩ :=
      closeTaskStep_cases h
    · refine .inr (.inr ⟨p, .inl ⟨r, j, run, closes, error, rfl, hr, hs, hj⟩, ?_⟩)
      exact ⟨rfl, rfl, rfl, rfl,
        fun _ => outcome?_returned_of_modify rfl fun run _ => hstage run _ _ _⟩
    · exact .inl ⟨rfl, rfl, rfl, rfl,
        fun _ => outcome?_returned_of_modify rfl fun run _ => hstage run _ _ _⟩
  case teardownDone r =>
    obtain ⟨run, closes, error, hr, hs, -, rfl⟩ := teardownDone_cases h
    exact .inl (keepsMap_endRaised c r _)

theorem inLoop_congr {c c' : Client} (hcalls : c'.calls = c.calls) (epoch : ℕ) :
    c'.InLoop epoch ↔ c.InLoop epoch := by
  unfold Client.InLoop
  rw [hcalls]

theorem awaited_of_returned {c c' : Client} (hcalls : c'.calls = c.calls)
    (htask : c'.initTask = c.initTask)
    (hret : ∀ q, c'.outcome? q = some .returned → c.outcome? q = some .returned)
    (h : c'.Awaited ∨ c'.SlotReturned) : c.Awaited ∨ c.SlotReturned := by
  obtain ⟨r, hr, ho⟩ | ⟨r, hr, ho⟩ := h
  · exact .inl ⟨r, hcalls ▸ hr, hret r ho⟩
  · exact .inr ⟨r, htask ▸ hr, hret r ho⟩

theorem MapInvariant.run {setup : Setup} {c c' : Client} {l : Label} {r : RunId}
    (hc : MapInvariant setup c) (hg : MisleadsNoCaller c l) (h : step setup c l = some c')
    (hl : l.run? = some r) : MapInvariant setup c' := by
  obtain ⟨-, -, htask, hcalls⟩ := step_run h hl
  obtain hk | hcommit | ⟨p, hp, hk⟩ := step_run_map h hl
  · refine hc.of_same hk.initialized hk.providers hk.commits
      (inLoop_congr hcalls) (awaited_of_returned hcalls htask hk.returned) fun _ p _ hclosed => ?_
    rwa [hk.closedSinceCommit] at hclosed
  · -- every loop is now over an older map
    have hin (epoch : ℕ) (h : c'.InLoop epoch) : epoch ≤ c.commits :=
      hc.epochs epoch ((inLoop_congr hcalls epoch).mp h)
    have hnot : ¬ c'.Closing := fun h => by
      have := hin _ h
      rw [hcommit.commits] at this
      omega
    have hne : c'.providers ≠ [] := fun h => by
      have := hcommit.default_mem
      simp [h] at this
    constructor
    · exact ⟨fun _ => hne, fun _ => hcommit.initialized⟩
    · exact fun _ => hcommit.default_mem
    · intro epoch h
      rw [hcommit.commits]
      exact Nat.le_succ_of_le (hin epoch h)
    · exact fun _ => ⟨hcommit.initialized, hnot⟩
    · intro _ _ p _
      simp [hcommit.closedSinceCommit]
  · -- by the guard the provider that is closed is not in the map
    refine hc.of_same hk.initialized hk.providers hk.commits
      (inLoop_congr hcalls) (awaited_of_returned hcalls htask hk.returned) fun _ q hq hclosed => ?_
    rw [hk.closedSinceCommit] at hclosed
    rcases List.mem_append.mp hclosed with h | h
    · exact h
    · obtain rfl := List.mem_singleton.mp h
      exact absurd hq (hg.closes q hp)

section Calls

variable {β : Type} {c : Client} {i : CallId} {call : Call} {phase : Phase}

theorem map_modify_of_eq (calls : List Call) (i : CallId) {f : Call → Call} (g : Call → β)
    (hg : ∀ call, calls[i]? = some call → g (f call) = g call) :
    (calls.modify i f).map g = calls.map g := by
  apply List.ext_getElem?
  intro j
  simp only [List.getElem?_map, List.getElem?_modify]
  by_cases hij : i = j
  · subst hij
    cases hi : calls[i]? with
    | none => rfl
    | some call => simp [hg call hi]
  · simp [hij]

theorem map_setPhase_of_eq (g : Call → β) (hi : c.calls[i]? = some call)
    (hg : g { call with phase } = g call) :
    (c.setPhase i phase).calls.map g = c.calls.map g := by
  refine map_modify_of_eq c.calls i g fun call' hi' => ?_
  rw [hi] at hi'
  cases hi'
  exact hg

theorem mem_map_setPhase (g : Call → β) (hi : c.calls[i]? = some call) {x : β}
    (h : x ∈ (c.setPhase i phase).calls.map g) :
    x = g { call with phase } ∨ x ∈ c.calls.map g := by
  obtain ⟨call', hmem, rfl⟩ := List.mem_map.mp h
  obtain ⟨j, hj⟩ := List.mem_iff_getElem?.mp hmem
  simp only [Client.setPhase, List.getElem?_modify, Option.map_eq_map,
    Option.map_eq_some_iff] at hj
  obtain ⟨call'', hj, rfl⟩ := hj
  split
  · rename_i hij
    subst hij
    rw [hi] at hj
    cases hj
    exact .inl rfl
  · exact .inr (List.mem_map_of_mem (List.mem_of_getElem? hj))

theorem mem_map_setPhase_self (g : Call → β) (hi : c.calls[i]? = some call) :
    g { call with phase } ∈ (c.setPhase i phase).calls.map g := by
  refine List.mem_map_of_mem (List.mem_of_getElem? (i := i) ?_)
  simp [Client.setPhase, hi]

theorem inLoop_setPhase (hi : c.calls[i]? = some call) (he : phase.epoch? = call.phase.epoch?)
    (epoch : ℕ) : (c.setPhase i phase).InLoop epoch ↔ c.InLoop epoch := by
  unfold Client.InLoop
  rw [map_setPhase_of_eq _ hi he]

theorem inLoop_addCall (method : Method) (x : Client × Phase) (epoch : ℕ) :
    (addCall method x).InLoop epoch ↔ x.1.InLoop epoch ∨ x.2.epoch? = some epoch := by
  simp [Client.InLoop, addCall, eq_comm]

theorem awaited_addCall (method : Method) (x : Client × Phase) (h : (addCall method x).Awaited) :
    x.1.Awaited ∨
      ∃ r outerDone, x.2 = .awaitingRun r outerDone ∧ x.1.outcome? r = some .returned := by
  obtain ⟨r, hr, ho⟩ := h
  simp only [addCall, List.map_append, List.mem_append, List.map_cons, List.map_nil,
    List.mem_singleton] at hr
  obtain hr | hr := hr
  · exact .inl ⟨r, hr, ho⟩
  · cases hx : x.2 <;> simp only [hx, Call.waitsFor, reduceCtorEq, Bool.false_eq_true, if_false,
      Option.some.injEq] at hr
    subst hr
    exact .inr ⟨_, _, rfl, ho⟩

theorem awaited_setPhase (hi : c.calls[i]? = some call)
    (hp : ∀ r, Call.waitsFor { call with phase } = some r → call.waitsFor = some r)
    (h : (c.setPhase i phase).Awaited) : c.Awaited := by
  obtain ⟨r, hr, ho⟩ := h
  refine ⟨r, ?_, ho⟩
  obtain hr | hr := mem_map_setPhase _ hi hr
  · exact List.mem_map.mpr ⟨call, List.mem_of_getElem? hi, hp r hr.symm⟩
  · exact hr

theorem awaited_setPhase_of_none (hi : c.calls[i]? = some call)
    (hp : Call.waitsFor { call with phase } = none) (h : (c.setPhase i phase).Awaited) :
    c.Awaited := by
  refine awaited_setPhase hi (fun r hr => ?_) h
  rw [hp] at hr
  cases hr

end Calls

/-- A `close()` that leaves its loop, when nobody is left to learn of a success. -/
theorem MapInvariant.leave {setup : Setup} {c c' : Client} (hc : MapInvariant setup c)
    (hinit : c'.initialized = false) (hmap : c'.providers = []) (hcommits : c'.commits = c.commits)
    (hin : ∀ epoch, c'.InLoop epoch → c.InLoop epoch)
    (hwait : ¬ (c'.Awaited ∨ c'.SlotReturned)) : MapInvariant setup c' where
  initialized_iff := by simp [hinit, hmap]
  default_mem := by simp [hmap]
  epochs := fun epoch h => hcommits ▸ hc.epochs epoch (hin epoch h)
  awaited := fun h => absurd h hwait
  untouched := by simp [hinit]

/-- A `close()` that begins its loop over the current map. -/
theorem MapInvariant.enter {setup : Setup} {c c' : Client} (hc : MapInvariant setup c)
    (hinit : c'.initialized = c.initialized) (hmap : c'.providers = c.providers)
    (hcommits : c'.commits = c.commits)
    (hin : ∀ epoch, c'.InLoop epoch → c.InLoop epoch ∨ epoch = c.commits)
    (hclosing : c'.Closing) (hwait : ¬ (c'.Awaited ∨ c'.SlotReturned)) : MapInvariant setup c' where
  initialized_iff := by rw [hinit, hmap]; exact hc.initialized_iff
  default_mem := by rw [hmap]; exact hc.default_mem
  epochs := by
    intro epoch h
    rw [hcommits]
    obtain h | rfl := hin epoch h
    · exact hc.epochs epoch h
    · exact Nat.le_refl _
  awaited := fun h => absurd h hwait
  untouched := fun _ h => absurd hclosing h

theorem MapInvariant.clearTask {setup : Setup} {c : Client} (hc : MapInvariant setup c) :
    MapInvariant setup { c with initTask := none } := by
  refine hc.of_same rfl rfl rfl (inLoop_congr rfl) ?_ fun _ _ _ h => h
  rintro (h | ⟨r, hr, -⟩)
  · exact .inl h
  · cases hr

theorem MapInvariant.clearIfDone {setup : Setup} {c : Client} (hc : MapInvariant setup c)
    (r : RunId) : MapInvariant setup (c.clearIfDone r) := by
  unfold Client.clearIfDone
  split
  · exact hc.clearTask
  · exact hc

/-- The map of an initialized client is not empty, so `close()` awaits a provider. -/
theorem MapInvariant.closeService {setup : Setup} {c : Client} (hc : MapInvariant setup c) :
    (c.initialized = false ∧ c.closeService = (c, .finished .returned)) ∨
    (c.initialized = true ∧ ∃ p ps,
      c.closeService = (c.startClose p, .inServiceClose c.commits ps none)) := by
  obtain ⟨hi, h⟩ | ⟨hi, h⟩ := closeService_cases c
  · exact .inl ⟨hi, h⟩
  · obtain ⟨hnil, -⟩ | ⟨p, ps, -, hnext⟩ :=
      closeNext_cases c c.commits none (c.providers.map Prod.snd)
    · exact absurd (List.map_eq_nil_iff.mp hnil) (hc.initialized_iff.mp hi)
    · exact .inr ⟨hi, p, ps, h.trans hnext⟩

theorem slotReturned_of_initTask {c : Client} (ht : c.initTask = none) : ¬ c.SlotReturned := by
  rintro ⟨r, hr, -⟩
  rw [ht] at hr
  cases hr

theorem MapInvariant.addFinished {setup : Setup} {c : Client} (hc : MapInvariant setup c)
    (method : Method) (outcome : Outcome) :
    MapInvariant setup (addCall method (c, .finished outcome)) := by
  refine hc.of_same rfl rfl rfl (fun epoch => ?_) ?_ fun _ _ _ h => h
  · simp [inLoop_addCall, Phase.epoch?]
  · rintro (h | h)
    · obtain h | ⟨r, outerDone, hp, -⟩ := awaited_addCall _ _ h
      · exact .inl h
      · cases hp
    · exact .inr h

theorem MapInvariant.addClose {setup : Setup} {c : Client} (hc : MapInvariant setup c)
    (ht : c.initTask = none) (hw : c.initialized = true → ¬ c.Awaited) :
    MapInvariant setup (addCall .closeCall c.closeService) := by
  obtain ⟨-, h⟩ | ⟨hi, p, ps, h⟩ := hc.closeService <;> rw [h]
  · exact hc.addFinished _ _
  · refine hc.enter rfl rfl rfl (fun epoch hin => ?_) ?_ ?_
    · rw [inLoop_addCall] at hin
      exact hin.imp_right fun he => (Option.some.inj he).symm
    · exact (inLoop_addCall _ _ _).mpr (.inr rfl)
    · rintro (h | h)
      · obtain h | ⟨r, outerDone, hp, -⟩ := awaited_addCall _ _ h
        · exact hw hi h
        · cases hp
      · exact slotReturned_of_initTask ht h

theorem MapInvariant.resumedClose {setup : Setup} {c : Client} {i : CallId} {call : Call}
    {r : RunId} (hc : MapInvariant setup c) (hi : c.calls[i]? = some call)
    (hp : call.phase = .awaitingCancelled r) (ht : c.initTask = none)
    (hw : c.initialized = true → ¬ c.Awaited) :
    MapInvariant setup (c.closeService.1.setPhase i c.closeService.2) := by
  obtain ⟨-, h⟩ | ⟨hinit, p, ps, h⟩ := hc.closeService <;> rw [h]
  · refine hc.of_same rfl rfl rfl (inLoop_setPhase hi (by rw [hp]; rfl)) ?_ fun _ _ _ h => h
    exact Or.imp_left fun h => awaited_setPhase_of_none hi rfl h
  · have hi' : (c.startClose p).calls[i]? = some call := hi
    refine hc.enter rfl rfl rfl (fun epoch hin => ?_) ?_ ?_
    · obtain h | h := mem_map_setPhase _ hi' hin
      · exact .inr (Option.some.inj h)
      · exact .inl h
    · exact mem_map_setPhase_self (fun call => call.phase.epoch?) hi'
    · rintro (h | h)
      · exact hw hinit (awaited_setPhase_of_none hi' rfl h)
      · exact slotReturned_of_initTask ht h

theorem outcome?_append {c c' : Client} {run : Run} (hruns : c'.runs = c.runs ++ [run])
    (hs : run.stage = .created) {q : RunId} {outcome : Outcome}
    (h : c'.outcome? q = some outcome) : c.outcome? q = some outcome := by
  obtain ⟨run', hq, hs'⟩ := outcome?_eq_some.mp h
  rw [hruns, List.getElem?_append] at hq
  split at hq
  · exact outcome?_eq_some.mpr ⟨run', hq, hs'⟩
  · rw [List.getElem?_singleton] at hq
    split at hq
    · cases hq
      rw [hs] at hs'
      cases hs'
    · cases hq

theorem MapInvariant.callInitialize {setup : Setup} {c : Client} (hc : MapInvariant setup c)
    (registry : Option Registry) :
    MapInvariant setup
      (addCall (.initializeCall registry) (beginInitialize setup c registry)) := by
  obtain ⟨-, h⟩ | ⟨-, e, -, h⟩ | ⟨-, -, ht, h⟩ | ⟨-, -, r, outcome, ht, ho, h⟩ |
    ⟨-, -, r, -, ho, h⟩ := beginInitialize_cases setup c registry <;> rw [h]
  · exact hc.addFinished _ _
  · exact hc.addFinished _ _
  · -- the new run has not succeeded yet
    refine hc.of_same rfl rfl rfl (fun epoch => ?_) ?_ fun _ _ _ h => h
    · rw [inLoop_addCall]
      exact ⟨fun h => h.resolve_right nofun, .inl⟩
    · have hret {q : RunId} {c' : Client} (hruns : c'.runs = c.runs ++
          [⟨registry.getD setup.defaultAsyncRegistry, .created, false⟩])
          (hq : c'.outcome? q = some .returned) : c.outcome? q = some .returned :=
        outcome?_append hruns rfl hq
      have hnew : c.outcome? c.runs.length = none := by simp [Client.outcome?]
      rintro (h | ⟨q, hq, ho⟩)
      · obtain ⟨q, hq, ho⟩ | ⟨q, outerDone, hp, ho⟩ := awaited_addCall _ _ h
        · exact .inl ⟨q, hq, hret rfl ho⟩
        · cases hp
          have := hret rfl ho
          rw [hnew] at this
          cases this
      · cases hq
        have := hret rfl ho
        rw [hnew] at this
        cases this
  · exact hc.clearTask.addFinished _ _
  · refine hc.of_same rfl rfl rfl (fun epoch => ?_) ?_ fun _ _ _ h => h
    · rw [inLoop_addCall]
      exact ⟨fun h => h.resolve_right nofun, .inl⟩
    · rintro (h | h)
      · obtain h | ⟨q, outerDone, hp, ho'⟩ := awaited_addCall _ _ h
        · exact .inl h
        · cases hp
          rw [ho] at ho'
          cases ho'
      · exact .inr h

/-- A `close()` leaves its loop: nobody is told of a success any more. -/
theorem MapInvariant.endClose {setup : Setup} {c : Client} {i : CallId} {call : Call}
    {epoch : ℕ} {rest : List ProviderId} {firstError : Option PyError}
    (hc : MapInvariant setup c) (hi : c.calls[i]? = some call)
    (hp : call.phase = .inServiceClose epoch rest firstError) (error : Option PyError)
    (hleave : epoch = c.commits ∨ c.providers = [] ∨ ¬ (c.Awaited ∨ c.SlotReturned)) :
    MapInvariant setup ((c.endClose error).1.setPhase i (c.endClose error).2) := by
  have hi' : (c.endClose error).1.calls[i]? = some call := hi
  refine hc.leave rfl rfl rfl (fun epoch hin => ?_) fun hwait => ?_
  · obtain h | h := mem_map_setPhase _ hi' hin
    · cases h
    · exact h
  · have hwait' : c.Awaited ∨ c.SlotReturned :=
      hwait.imp_left fun h => awaited_setPhase_of_none hi' rfl h
    obtain ⟨hinit, hclosing⟩ := hc.awaited hwait'
    obtain rfl | hnil | hnot := hleave
    · refine hclosing (List.mem_map.mpr ⟨call, List.mem_of_getElem? hi, ?_⟩)
      rw [hp]
      rfl
    · exact hc.initialized_iff.mp hinit hnil
    · exact hnot hwait'

/-- One turn of a service `close()` loop. -/
theorem MapInvariant.closeNext {setup : Setup} {c : Client} {i : CallId} {call : Call}
    {epoch : ℕ} {rest : List ProviderId} {firstError : Option PyError}
    (hc : MapInvariant setup c) (hi : c.calls[i]? = some call)
    (hp : call.phase = .inServiceClose epoch rest firstError) (error : Option PyError)
    (hleave : rest = [] → epoch = c.commits ∨ c.providers = [] ∨ ¬ (c.Awaited ∨ c.SlotReturned))
    (hnext : ∀ p ps, rest = p :: ps → epoch ≠ c.commits → p ∉ c.registered) :
    MapInvariant setup
      ((c.closeNext epoch error rest).1.setPhase i (c.closeNext epoch error rest).2) := by
  obtain ⟨hnil, h⟩ | ⟨p, ps, hrest, h⟩ := closeNext_cases c epoch error rest <;> rw [h]
  · exact hc.endClose hi hp error (hleave hnil)
  · have hi' : (c.startClose p).calls[i]? = some call := hi
    have hepoch : (Phase.inServiceClose epoch ps error).epoch? = call.phase.epoch? := by
      rw [hp]
      rfl
    have hsame := inLoop_setPhase hi' hepoch
    refine hc.of_same rfl rfl rfl hsame ?_ fun hclosing q hq hclosed => ?_
    · exact Or.imp_left fun h => awaited_setPhase_of_none hi' rfl h
    · rcases List.mem_append.mp hclosed with h | h
      · exact h
      · obtain rfl := List.mem_singleton.mp h
        -- the loop is not over the current map, since no loop is
        refine absurd hq (hnext q ps hrest ?_)
        rintro rfl
        refine hclosing (List.mem_map.mpr ⟨call, List.mem_of_getElem? hi, ?_⟩)
        rw [hp]
        rfl

/-- A `close()` that cancels the run in the slot: no new caller waits, and no run succeeds. -/
theorem MapInvariant.cancelSlot {setup : Setup} {c : Client} (hc : MapInvariant setup c)
    {r : RunId} (ho : c.outcome? r = none) :
    MapInvariant setup (addCall .closeCall (c.updateRun r cancelRun, .awaitingCancelled r)) := by
  refine hc.of_same rfl rfl rfl (fun epoch => ?_) ?_ fun _ _ _ h => h
  · rw [inLoop_addCall]
    exact ⟨fun h => h.resolve_right (by simp [Phase.epoch?]), .inl⟩
  · have hret {q : RunId} {d : Client} (hruns : d.runs = c.runs.modify r cancelRun)
        (hq : d.outcome? q = some .returned) : c.outcome? q = some .returned := by
      refine outcome?_returned_of_modify hruns (fun run hr hs => ?_) hq
      -- the cancelled run had not finished, so it is not the one that succeeded
      rw [cancelRun_stage] at hs
      rw [outcome?_eq_some.mpr ⟨run, hr, hs⟩] at ho
      cases ho
    rintro (h | ⟨q, hq, ho⟩)
    · obtain ⟨q, hq, ho⟩ | ⟨q, outerDone, hp, -⟩ := awaited_addCall _ _ h
      · exact .inl ⟨q, hq, hret rfl ho⟩
      · cases hp
    · exact .inr ⟨q, hq, hret rfl ho⟩

/-- A cancelled caller leaves the loops as they are and is not told of its run any more. -/
theorem MapInvariant.cancelCall {setup : Setup} {c : Client} (hc : MapInvariant setup c)
    (i : CallId) : MapInvariant setup
      { c with calls := c.calls.modify i fun call => { call with cancelled := true } } := by
  refine hc.of_same rfl rfl rfl (fun epoch => ?_) ?_ fun _ _ _ h => h
  · have hsame := map_modify_of_eq c.calls i (f := fun call => { call with cancelled := true })
      (fun call => call.phase.epoch?) fun _ _ => rfl
    exact iff_of_eq (congrArg (some epoch ∈ ·) hsame)
  · refine Or.imp_left ?_
    rintro ⟨q, hq, ho⟩
    refine ⟨q, ?_, ho⟩
    obtain ⟨call', hmem, hw⟩ := List.mem_map.mp hq
    obtain ⟨j, hj⟩ := List.mem_iff_getElem?.mp hmem
    simp only [List.getElem?_modify, Option.map_eq_map, Option.map_eq_some_iff] at hj
    obtain ⟨call'', hj, rfl⟩ := hj
    refine List.mem_map.mpr ⟨call'', List.mem_of_getElem? hj, ?_⟩
    split at hw
    · -- a cancelled caller does not wait
      unfold Call.waitsFor at hw
      dsimp only at hw
      split at hw <;> cases hw
    · exact hw

theorem MapInvariant.resumeInitialize {setup : Setup} {c : Client} (hc : MapInvariant setup c)
    {i : CallId} {call : Call} {r : RunId} {outerDone : Bool} (hi : c.calls[i]? = some call)
    (hp : call.phase = .awaitingRun r outerDone) (outcome : Outcome) :
    MapInvariant setup ((c.clearIfDone r).setPhase i (.finished outcome)) := by
  have hi' : (c.clearIfDone r).calls[i]? = some call := by
    unfold Client.clearIfDone
    split <;> exact hi
  refine (hc.clearIfDone r).of_same rfl rfl rfl (inLoop_setPhase hi' (by rw [hp]; rfl)) ?_
    fun _ _ _ h => h
  exact Or.imp_left fun h => awaited_setPhase_of_none hi' rfl h

theorem mapInvariant_step {setup : Setup} {c c' : Client} {l : Label}
    (hc : MapInvariant setup c) (hg : MisleadsNoCaller c l) (h : step setup c l = some c') :
    MapInvariant setup c' := by
  cases hrun : l.run? with
  | some r => exact hc.run hg h hrun
  | none =>
    cases l <;> simp only [Label.run?, reduceCtorEq] at hrun
    case callInitialize registry =>
      cases h
      exact hc.callInitialize registry
    case callClose =>
      cases h
      -- the service's `close()` begins at once unless the slot holds an unfinished run
      obtain ⟨ht, h⟩ | ⟨r, outcome, ht, ho, h⟩ | ⟨r, ht, ho, h⟩ := beginClose_cases c <;> rw [h]
      · refine hc.addClose ht fun hinit => hg.enters ⟨hinit, .inl ⟨rfl, fun q hq => ?_⟩⟩
        rw [ht] at hq
        cases hq
      · refine hc.clearTask.addClose rfl fun hinit => hg.enters ⟨hinit, .inl ⟨rfl, fun q hq => ?_⟩⟩
        rw [ht] at hq
        cases hq
        exact ⟨outcome, ho⟩
      · exact hc.cancelSlot ho
    case cancelCaller i =>
      obtain ⟨call, r, outerDone, hi, hp, rfl⟩ := cancelCaller_cases h
      exact hc.cancelCall i
    case shieldCallback i =>
      obtain ⟨call, r, outcome, hi, hp, -, rfl⟩ := shieldCallback_cases h
      refine hc.of_same rfl rfl rfl (inLoop_setPhase hi (by rw [hp]; rfl)) ?_ fun _ _ _ h => h
      refine Or.imp_left fun h => awaited_setPhase hi (fun q hq => ?_) h
      simpa only [Call.waitsFor, hp] using hq
    case resumeInitialize i =>
      obtain ⟨call, r, outerDone, hi, hp, hcase⟩ := resumeInitialize_cases h
      obtain ⟨-, rfl⟩ | ⟨outcome, -, -, -, rfl⟩ := hcase
      · exact hc.resumeInitialize hi hp _
      · exact hc.resumeInitialize hi hp outcome
    case resumeClose i =>
      obtain ⟨call, r, outcome, hi, hp, ho, ⟨hs, rfl⟩ | ⟨-, rfl⟩⟩ := resumeClose_cases h
      · refine hc.clearTask.resumedClose hi hp rfl fun hinit => hg.enters ⟨hinit, .inr ?_⟩
        exact ⟨i, call, r, outcome, rfl, hi, hp, ho, hs⟩
      · refine hc.of_same rfl rfl rfl (inLoop_setPhase hi (by rw [hp]; rfl)) ?_ fun _ _ _ h => h
        exact Or.imp_left fun h => awaited_setPhase_of_none hi rfl h
    case providerCloseStep i response =>
      obtain ⟨call, epoch, rest, firstError, hi, hp, hcase⟩ := providerCloseStep_cases h
      obtain rfl | ⟨error, hresp, rfl⟩ | ⟨e, rfl, he, rfl⟩ := hcase
      · exact hc
      · refine hc.closeNext hi hp error (fun hnil => hg.leaves epoch rest ?_)
          fun p ps hrest hne => hg.closes p (.inr ?_)
        · refine ⟨i, call, firstError, response, rfl, hi, hp, ?_⟩
          obtain h | ⟨e, h, -⟩ := hresp
          · exact .inl ⟨h, hnil⟩
          · exact .inr ⟨e, h, .inl hnil⟩
        · exact ⟨i, call, epoch, ps, firstError, response, rfl, hi, hrest ▸ hp, hne, hresp⟩
      · exact hc.endClose hi hp (some e)
          (hg.leaves epoch rest ⟨i, call, firstError, _, rfl, hi, hp, .inr ⟨e, rfl, .inr he⟩⟩)

theorem MapInvariant.ready_of_returns {setup : Setup} {c c' : Client} {l : Label}
    (hc : MapInvariant setup c) (hg : MisleadsNoCaller c l) (h : step setup c l = some c')
    (hret : ReturnsNormally setup c l) : Ready setup c' := by
  obtain ⟨registry, rfl, hphase⟩ | ⟨i, call, r, rfl, hi, hp, hcancel, ho⟩ := hret
  · cases h
    obtain ⟨hinit, h⟩ | ⟨-, e, -, h⟩ | ⟨-, -, ht, h⟩ | ⟨hinit, -, r, outcome, ht, ho, h⟩ |
      ⟨-, -, r, -, ho, h⟩ := beginInitialize_cases setup c registry <;> rw [h] at hphase <;>
      cases hphase <;> rw [h]
    · have hready := hc.ready hinit (hg.early registry rfl hinit)
      exact ⟨hready.1, hready.2, hready.3, hready.4⟩
    · -- the slot holds a successful run only while the client is initialized
      have hslot := (hc.awaited (.inr ⟨r, ht, ho⟩)).1
      rw [hinit] at hslot
      cases hslot
  · -- the caller awaits a run that has succeeded, so the invariant speaks of it
    have hwait : c.Awaited := by
      refine ⟨r, List.mem_map.mpr ⟨call, List.mem_of_getElem? hi, ?_⟩, ho⟩
      simp [Call.waitsFor, hp, hcancel]
    obtain ⟨hinit, hclosing⟩ := hc.awaited (.inl hwait)
    have hready := hc.ready hinit hclosing
    obtain ⟨call', r', outerDone', hi', hp', hcase⟩ := resumeInitialize_cases h
    rw [hi] at hi'
    cases hi'
    have hfin (outcome : Outcome) :
        Ready setup ((c.clearIfDone r').setPhase i (.finished outcome)) := by
      unfold Client.clearIfDone
      split <;> exact ⟨hready.1, hready.2, hready.3, hready.4⟩
    obtain ⟨-, rfl⟩ | ⟨outcome, -, -, -, rfl⟩ := hcase
    · exact hfin _
    · exact hfin _

/-- In a run of the client that misleads no caller, whoever is told that the client is
initialized finds it so. -/
theorem ready_of_misleadsNoCaller (setup : Setup) {h : List (Client × Label)} {c : Client}
    (hex : (machine setup).Execution h c) (hg : ∀ p ∈ h, MisleadsNoCaller p.1 p.2)
    {l : Label} {c' : Client} (hl : MisleadsNoCaller c l) (hstep : step setup c l = some c')
    (hret : ReturnsNormally setup c l) : Ready setup c' := by
  have hinv : Machine.Always (MapInvariant setup) h c :=
    Machine.Execution.always MisleadsNoCaller (mapInvariant_new setup)
      (fun s l s' hs hl hstep => mapInvariant_step hs hl hstep) hex hg
  exact hinv.1.ready_of_returns hl hstep hret

def openedLabels : List Label :=
  [.startRun 0, .factoryStep 0 (.returns ⟨1, 0⟩), .providerInitStep 0 (.returns ()),
    .shieldCallback 0]

/-- Provider 1 is registered, and `close()` is suspended in its `close()`. -/
def closingRunLabels : List Label :=
  .callInitialize none :: openedLabels ++ [.resumeInitialize 0, .callClose]

def closingRun : Client := ((machine soloSetup).exec closingRunLabels).getD .new

theorem closingRun_reachable : (machine soloSetup).Reachable closingRun :=
  Machine.reachable_exec closingRunLabels rfl

theorem not_always_ready :
    ¬ ∀ setup c l c', (machine setup).Reachable c → step setup c l = some c' →
      ReturnsNormally setup c l → Ready setup c' := by
  intro h
  have hready := h soloSetup closingRun (.callInitialize none) _ closingRun_reachable rfl
    (.inl ⟨none, rfl, rfl⟩)
  exact hready.untouched 1 (by decide) (by decide)

theorem misleadsNoCaller_of_label (c : Client) {l : Label}
    (hinit : ∀ registry, l = .callInitialize registry → c.initialized = false)
    (hclose : l ≠ .callClose) (hresume : ∀ i, l ≠ .resumeClose i)
    (htask : ∀ r j, l ≠ .closeTaskStep r j)
    (hstep : ∀ i response, l ≠ .providerCloseStep i response) : MisleadsNoCaller c l where
  early := fun registry hl hi => by
    rw [hinit registry hl] at hi
    cases hi
  enters := fun ⟨_, h⟩ => by
    obtain ⟨h, -⟩ | ⟨i, call, r, outcome, h, -⟩ := h
    · exact absurd h hclose
    · exact absurd h (hresume i)
  leaves := fun _ _ ⟨i, _, _, response, h, _⟩ => absurd h (hstep i response)
  closes := fun p h => by
    obtain ⟨r, j, run, closes, error, h, -⟩ |
      ⟨i, call, epoch, rest, firstError, response, h, -⟩ := h
    · exact absurd h (htask r j)
    · exact absurd h (hstep i response)

/-- The first caller of a run that succeeded, one step before it is resumed. -/
def openedRun : Client := ((machine soloSetup).exec (.callInitialize none :: openedLabels)).getD .new

theorem openedRun_reachableBy : (machine soloSetup).ReachableBy MisleadsNoCaller openedRun := by
  have hfirst : MisleadsNoCaller .new (.callInitialize none) :=
    misleadsNoCaller_of_label .new (fun _ _ => rfl) nofun nofun nofun nofun
  refine Machine.foldlM_reachableBy openedLabels (fun c l hl => ?_)
    (Machine.ReachableBy.next (.start _) hfirst rfl) rfl
  simp only [openedLabels, List.mem_cons, List.not_mem_nil, or_false] at hl
  rcases hl with rfl | rfl | rfl | rfl <;>
    exact misleadsNoCaller_of_label c nofun nofun nofun nofun nofun

theorem ready_openedRun : ∃ c', step soloSetup openedRun (.resumeInitialize 0) = some c' ∧
    Ready soloSetup c' := by
  obtain ⟨h, hex, hg⟩ := openedRun_reachableBy
  have hstep : step soloSetup openedRun (.resumeInitialize 0) =
      some ((openedRun.clearIfDone 0).setPhase 0 (.finished .returned)) := rfl
  refine ⟨_, hstep, ready_of_misleadsNoCaller soloSetup hex hg ?_ hstep ?_⟩
  · exact misleadsNoCaller_of_label openedRun nofun nofun nofun nofun nofun
  · exact .inr ⟨0, ⟨.initializeCall none, .awaitingRun 0 true, false⟩, 0, rfl, rfl, rfl, rfl, rfl⟩

end AtomicMemory.AsyncClient
