import AtomicMemory.Client.Operations
import AtomicMemory.Lib.Monitor

-- `MemoryClient.initialize` and `close` step by step, called from any number of threads that share
-- `_init_lock`, and the operations, which read the client without the lock. In every interleaving
-- the calls are those of a run of complete calls, and so is an operation that no `close()` cuts
-- into.

namespace AtomicMemory.ThreadedClient
open SyncService SyncClient ServiceOperations

inductive Body
  | entered (call : SyncClient.Call)
  /-- `MemoryService.initialize`: the loop over the configured names that are left. -/
  | staging (registry : ProviderRegistry) (names : List String) (staged : Staged)
  /-- The provider staged last is about to be initialized. -/
  | starting (registry : ProviderRegistry) (names : List String) (staged : Staged)
    (onInitialize : Option PyError)
  | tearing (providers : List Provider) (error : PyError)
  /-- `MemoryClient.initialize` has caught the error. -/
  | failing (error : PyError)
  | committingProviders (staged : Staged)
  | committingPipelines (staged : Staged)
  | succeeding
  /-- `MemoryService.close`: the loop over the providers that are left. -/
  | closing (providers : List Provider) (firstError : Option PyError)
  | clearingProviders (error : Option PyError)
  | clearingPipelines (error : Option PyError)
  | uninitializing (error : Option PyError)
  | leaving (outcome : Outcome)

/-- One step: at most one call of the caller's code, or one assignment that other threads see. -/
def bodyStep (config : MemoryServiceConfig) (c : MemoryClient) :
    Body → MemoryClient × (Body ⊕ Outcome)
  | .entered (.initializeClient registry) =>
    if c.initialized then (c, .inl (.leaving .returned))
    else match c.initError with
      | some e => (c, .inl (.leaving (.raised e)))
      | none => (c, .inl (.staging registry config.providerConfigs []))
  | .entered .closeClient =>
    if c.initialized then (c, .inl (.closing c.registered none))
    else (c, .inl (.leaving .returned))
  | .staging _ [] staged =>
    match missingDefaultError config staged with
    | none => (c, .inl (.committingProviders staged))
    | some e => (c, .inl (.tearing (stagedList staged) e))
  | .staging registry (name :: names) staged =>
    match registry name with
    | none => (c, .inl (.staging registry names staged))
    | some (.raises e) =>
      ({ c with world := c.world.failFactory name }, .inl (.tearing (stagedList staged) e))
    | some (.returns b) =>
      let staged := staged ++ [(name, ⟨⟨c.world.created, b.onClose⟩, b.pipeline⟩)]
      ({ c with world := c.world.construct name },
        .inl (.starting registry names staged b.onInitialize))
  | .starting registry names staged none => (c, .inl (.staging registry names staged))
  | .starting _ _ staged (some e) => (c, .inl (.tearing (stagedList staged) e))
  | .tearing [] e => (c, .inl (.failing e))
  | .tearing (p :: ps) e =>
    let c := { c with world := c.world.closeCall p }
    match p.onClose with
    | none => (c, .inl (.tearing ps e))
    | some e' => (c, .inl (if e'.isException then .tearing ps e else .failing e'))
  | .failing e =>
    ({ c with initError := if e.isException then some e else none }, .inl (.leaving (.raised e)))
  | .committingProviders staged =>
    ({ c with service.providers := stagedProviders staged }, .inl (.committingPipelines staged))
  | .committingPipelines staged =>
    ({ c with service.pipelines := stagedPipelines staged }, .inl .succeeding)
  | .succeeding => ({ c with initialized := true }, .inl (.leaving .returned))
  | .closing [] firstError => (c, .inl (.clearingProviders firstError))
  | .closing (p :: ps) firstError =>
    let c := { c with world := c.world.closeCall p }
    match p.onClose with
    | none => (c, .inl (.closing ps firstError))
    | some e =>
      (c, .inl (if e.isException then .closing ps (firstError <|> some e)
        else .clearingProviders (some e)))
  | .clearingProviders error =>
    ({ c with service.providers := [] }, .inl (.clearingPipelines error))
  | .clearingPipelines error =>
    ({ c with service.pipelines := [] }, .inl (.uninitializing error))
  | .uninitializing error =>
    ({ c with initialized := false }, .inl (.leaving (outcomeOf error)))
  | .leaving outcome => (c, .inr outcome)

def monitor (config : MemoryServiceConfig) : Monitor MemoryClient SyncClient.Call Body Outcome :=
  ⟨.new, .entered, bodyStep config⟩

def complete (config : MemoryServiceConfig) (c : MemoryClient) :
    SyncClient.Call → MemoryClient × Outcome
  | .initializeClient registry => initializeClient config c registry
  | .closeClient => closeClient c

section

variable {config : MemoryServiceConfig}

theorem ends_leaving (c : MemoryClient) (outcome : Outcome) :
    (monitor config).Ends (c, .leaving outcome) c outcome := ⟨_, .refl, rfl⟩

/-- The client once `initialize` has raised the error. -/
def failed (c : MemoryClient) (w : World) (e : PyError) : MemoryClient :=
  { c with initError := if e.isException then some e else none, world := w }

/-- What is left of `initialize` when the loop has staged the providers. -/
def settle (config : MemoryServiceConfig) (c : MemoryClient)
    (r : Staged × World × Option PyError) : MemoryClient × Outcome :=
  match r.2.2 <|> missingDefaultError config r.1 with
  | none =>
    ({ c with
        initialized := true
        service := ⟨stagedProviders r.1, stagedPipelines r.1⟩
        world := r.2.1 }, .returned)
  | some e =>
    let (w, escaped) := teardown (stagedList r.1) r.2.1
    (failed c w (escaped.getD e), .raised (escaped.getD e))

/-- The client once `close` is done with the providers. -/
def closed (c : MemoryClient) (w : World) : MemoryClient :=
  { c with initialized := false, service := .empty, world := w }

theorem ends_failing (c : MemoryClient) (e : PyError) :
    (monitor config).Ends (c, .failing e) (failed c c.world e) (.raised e) :=
  Monitor.Ends.step rfl (ends_leaving _ _)

theorem ends_tearing {ps : List Provider} {e : PyError} {c : MemoryClient} {w : World}
    {escaped : Option PyError} (h : teardown ps c.world = (w, escaped)) :
    (monitor config).Ends (c, .tearing ps e) (failed c w (escaped.getD e))
      (.raised (escaped.getD e)) := by
  induction ps generalizing c with
  | nil =>
    cases h
    exact Monitor.Ends.step rfl (ends_failing c e)
  | cons p ps ih =>
    unfold teardown at h
    let c' : MemoryClient := { c with world := c.world.closeCall p }
    cases hclose : p.onClose with
    | none =>
      simp only [hclose] at h
      have hstep : (monitor config).step c (.tearing (p :: ps) e) =
          (c', .inl (.tearing ps e)) := by
        unfold monitor bodyStep
        simp only [hclose]
        rfl
      have hrest : (monitor config).Ends (c', .tearing ps e) (failed c' w (escaped.getD e))
          (.raised (escaped.getD e)) := ih h
      exact Monitor.Ends.step hstep hrest
    | some e' =>
      simp only [hclose] at h
      have hstep : (monitor config).step c (.tearing (p :: ps) e) =
          (c', .inl (if e'.isException then .tearing ps e else .failing e')) := by
        unfold monitor bodyStep
        simp only [hclose]
        rfl
      split at h
      · rename_i hex
        rw [if_pos hex] at hstep
        have hrest : (monitor config).Ends (c', .tearing ps e) (failed c' w (escaped.getD e))
            (.raised (escaped.getD e)) := ih h
        exact Monitor.Ends.step hstep hrest
      · rename_i hex
        rw [if_neg hex] at hstep
        cases h
        exact Monitor.Ends.step hstep (ends_failing c' e')

theorem ends_failed (staged : Staged) (e : PyError) (c : MemoryClient) :
    (monitor config).Ends (c, .tearing (stagedList staged) e)
      (settle config c (staged, c.world, some e)).1
      (settle config c (staged, c.world, some e)).2 := ends_tearing rfl

theorem ends_committing (staged : Staged) (c : MemoryClient) :
    (monitor config).Ends (c, .committingProviders staged)
      { c with
        initialized := true
        service := ⟨stagedProviders staged, stagedPipelines staged⟩ } .returned := by
  refine Monitor.Ends.step rfl (Monitor.Ends.step rfl (Monitor.Ends.step rfl ?_))
  exact ends_leaving _ _

theorem ends_staging {registry : ProviderRegistry} {names : List String} {staged : Staged}
    {c : MemoryClient} {r : Staged × World × Option PyError}
    (h : stageProviders registry names staged c.world = r) :
    (monitor config).Ends (c, .staging registry names staged) (settle config c r).1
      (settle config c r).2 := by
  induction names generalizing staged c with
  | nil =>
    have hr : r = (staged, c.world, none) := h.symm
    rw [hr]
    cases hdefault : missingDefaultError config staged with
    | none =>
      have hstep : (monitor config).step c (.staging registry [] staged) =
          (c, .inl (.committingProviders staged)) := by
        unfold monitor bodyStep
        simp only [hdefault]
      have hsettle : settle config c (staged, c.world, none) =
          ({ c with
              initialized := true
              service := ⟨stagedProviders staged, stagedPipelines staged⟩ }, .returned) := by
        unfold settle
        simp only [hdefault]
        rfl
      rw [hsettle]
      exact Monitor.Ends.step hstep (ends_committing staged c)
    | some e =>
      have hstep : (monitor config).step c (.staging registry [] staged) =
          (c, .inl (.tearing (stagedList staged) e)) := by
        unfold monitor bodyStep
        simp only [hdefault]
      have hsettle : settle config c (staged, c.world, none) =
          settle config c (staged, c.world, some e) := by
        unfold settle
        simp only [hdefault]
        rfl
      rw [hsettle]
      exact Monitor.Ends.step hstep (ends_failed staged e c)
  | cons name names ih =>
    unfold stageProviders at h
    cases hfactory : registry name with
    | none =>
      simp only [hfactory] at h
      have hstep : (monitor config).step c (.staging registry (name :: names) staged) =
          (c, .inl (.staging registry names staged)) := by
        unfold monitor bodyStep
        simp only [hfactory]
      exact Monitor.Ends.step hstep (ih h)
    | some factory =>
      cases factory with
      | raises e =>
        simp only [hfactory] at h
        cases h
        let c' : MemoryClient := { c with world := c.world.failFactory name }
        have hstep : (monitor config).step c (.staging registry (name :: names) staged) =
            (c', .inl (.tearing (stagedList staged) e)) := by
          unfold monitor bodyStep
          simp only [hfactory]
          rfl
        exact Monitor.Ends.step hstep (ends_failed staged e c')
      | returns b =>
        simp only [hfactory] at h
        let c' : MemoryClient := { c with world := c.world.construct name }
        let staged' := staged ++ [(name, ⟨⟨c.world.created, b.onClose⟩, b.pipeline⟩)]
        have hstep : (monitor config).step c (.staging registry (name :: names) staged) =
            (c', .inl (.starting registry names staged' b.onInitialize)) := by
          unfold monitor bodyStep
          simp only [hfactory]
          rfl
        refine Monitor.Ends.step hstep ?_
        cases hinit : b.onInitialize with
        | none =>
          simp only [hinit] at h
          have hrest : (monitor config).Ends (c', .staging registry names staged')
              (settle config c' r).1 (settle config c' r).2 := ih h
          exact Monitor.Ends.step rfl hrest
        | some e =>
          simp only [hinit] at h
          cases h
          exact Monitor.Ends.step rfl (ends_failed staged' e c')

theorem ends_clearing (c : MemoryClient) (error : Option PyError) :
    (monitor config).Ends (c, .clearingProviders error) (closed c c.world)
      (outcomeOf error) := by
  refine Monitor.Ends.step rfl (Monitor.Ends.step rfl (Monitor.Ends.step rfl ?_))
  exact ends_leaving _ _

theorem ends_closing {ps : List Provider} {first : Option PyError} {c : MemoryClient} {w : World}
    {error : Option PyError} (h : closeProviders ps first c.world = (w, error)) :
    (monitor config).Ends (c, .closing ps first) (closed c w) (outcomeOf error) := by
  induction ps generalizing first c with
  | nil =>
    cases h
    exact Monitor.Ends.step rfl (ends_clearing c error)
  | cons p ps ih =>
    unfold closeProviders at h
    let c' : MemoryClient := { c with world := c.world.closeCall p }
    cases hclose : p.onClose with
    | none =>
      simp only [hclose] at h
      have hstep : (monitor config).step c (.closing (p :: ps) first) =
          (c', .inl (.closing ps first)) := by
        unfold monitor bodyStep
        simp only [hclose]
        rfl
      have hrest : (monitor config).Ends (c', .closing ps first) (closed c' w)
          (outcomeOf error) := ih h
      exact Monitor.Ends.step hstep hrest
    | some e =>
      simp only [hclose] at h
      have hstep : (monitor config).step c (.closing (p :: ps) first) =
          (c', .inl (if e.isException then .closing ps (first <|> some e)
            else .clearingProviders (some e))) := by
        unfold monitor bodyStep
        simp only [hclose]
        rfl
      split at h
      · rename_i hex
        rw [if_pos hex] at hstep
        have hrest : (monitor config).Ends (c', .closing ps (first <|> some e)) (closed c' w)
            (outcomeOf error) := ih h
        exact Monitor.Ends.step hstep hrest
      · rename_i hex
        rw [if_neg hex] at hstep
        cases h
        exact Monitor.Ends.step hstep (ends_clearing c' (some e))

theorem initializeClient_eq {c : MemoryClient} (registry : ProviderRegistry)
    (hi : c.initialized = false) (herr : c.initError = none) :
    initializeClient config c registry =
      settle config c (stageProviders registry config.providerConfigs [] c.world) := by
  unfold initializeClient MemoryService.initializeProviders settle
  simp only [hi, herr, Bool.false_eq_true, if_false]
  generalize stageProviders registry config.providerConfigs [] c.world = r
  obtain ⟨staged, w, error⟩ := r
  dsimp only
  cases error <|> missingDefaultError config staged with
  | none => rfl
  | some e =>
    dsimp only
    generalize teardown (stagedList staged) w = t
    obtain ⟨w', escaped⟩ := t
    rw [failed, hi]

theorem implements (config : MemoryServiceConfig) :
    (monitor config).Implements (complete config) := by
  intro c call
  cases call with
  | initializeClient registry =>
    change (monitor config).Ends (c, .entered (.initializeClient registry))
      (initializeClient config c registry).1 (initializeClient config c registry).2
    cases hi : c.initialized with
    | true =>
      have hstep : (monitor config).step c (.entered (.initializeClient registry)) =
          (c, .inl (.leaving .returned)) := by
        unfold monitor bodyStep
        simp only [hi, if_true]
      have hcall : initializeClient config c registry = (c, .returned) := by
        unfold initializeClient
        rw [if_pos hi]
      rw [hcall]
      exact Monitor.Ends.step hstep (ends_leaving c .returned)
    | false =>
      cases herr : c.initError with
      | some e =>
        have hstep : (monitor config).step c (.entered (.initializeClient registry)) =
            (c, .inl (.leaving (.raised e))) := by
          unfold monitor bodyStep
          simp only [hi, herr, Bool.false_eq_true, if_false]
        have hcall : initializeClient config c registry = (c, .raised e) := by
          unfold initializeClient
          simp only [hi, herr, Bool.false_eq_true, if_false]
        rw [hcall]
        exact Monitor.Ends.step hstep (ends_leaving c (.raised e))
      | none =>
        have hstep : (monitor config).step c (.entered (.initializeClient registry)) =
            (c, .inl (.staging registry config.providerConfigs [])) := by
          unfold monitor bodyStep
          simp only [hi, herr, Bool.false_eq_true, if_false]
        rw [initializeClient_eq registry hi herr]
        exact Monitor.Ends.step hstep (ends_staging rfl)
  | closeClient =>
    change (monitor config).Ends (c, .entered .closeClient) (closeClient c).1 (closeClient c).2
    cases hi : c.initialized with
    | true =>
      have hstep : (monitor config).step c (.entered .closeClient) =
          (c, .inl (.closing c.registered none)) := by
        unfold monitor bodyStep
        simp only [hi, if_true]
      have hcall : closeClient c = (closed c (closeProviders c.registered none c.world).1,
          outcomeOf (closeProviders c.registered none c.world).2) := by
        unfold closeClient
        rw [if_pos hi]
        rfl
      rw [hcall]
      exact Monitor.Ends.step hstep (ends_closing rfl)
    | false =>
      have hstep : (monitor config).step c (.entered .closeClient) =
          (c, .inl (.leaving .returned)) := by
        unfold monitor bodyStep
        simp only [hi, Bool.false_eq_true, if_false]
      have hcall : closeClient c = (c, .returned) := by
        unfold closeClient
        rw [if_neg (by rw [hi]; exact Bool.false_ne_true)]
      rw [hcall]
      exact Monitor.Ends.step hstep (ends_leaving c .returned)

end

/-- `initialize` is at work. -/
def Body.Opens : Body → Prop
  | .staging _ _ _ | .starting _ _ _ _ | .tearing _ _ | .failing _ => True
  | .committingProviders _ | .committingPipelines _ | .succeeding => True
  | _ => False

/-- `close` is at work. -/
def Body.closes : Body → Bool
  | .closing _ _ | .clearingProviders _ | .clearingPipelines _ | .uninitializing _ => true
  | _ => false

/-- `_providers` has not been assigned yet. -/
def Body.KeepsProviders : Body → Prop
  | .committingPipelines _ | .succeeding | .clearingPipelines _ | .uninitializing _ => False
  | .leaving _ => False
  | _ => True

/-- `_pipelines` has not been assigned yet. -/
def Body.KeepsPipelines : Body → Prop
  | .succeeding | .uninitializing _ | .leaving _ => False
  | _ => True

/-- What a body that has begun with `base` has changed so far. -/
structure Progressed (base c : MemoryClient) (b : Body) : Prop where
  entered : ∀ call, b = .entered call → c = base
  opens : b.Opens → c.initialized = false
  providers : b.KeepsProviders → c.service.providers = base.service.providers
  pipelines : b.KeepsPipelines → c.service.pipelines = base.service.pipelines

section

variable {config : MemoryServiceConfig}

theorem step_leaving {c c' : MemoryClient} {b : Body} {outcome : Outcome}
    (h : bodyStep config c b = (c', .inr outcome)) : b = .leaving outcome ∧ c' = c := by
  cases b with
  | leaving outcome' =>
    cases h
    exact ⟨rfl, rfl⟩
  | entered call =>
    cases call with
    | initializeClient registry =>
      dsimp only [bodyStep] at h
      split at h
      · cases h
      · split at h <;> cases h
    | closeClient =>
      dsimp only [bodyStep] at h
      split at h <;> cases h
  | staging registry names staged =>
    cases names with
    | nil =>
      dsimp only [bodyStep] at h
      split at h <;> cases h
    | cons name names =>
      dsimp only [bodyStep] at h
      split at h <;> cases h
  | starting registry names staged onInitialize => cases onInitialize <;> cases h
  | tearing providers error =>
    cases providers with
    | nil => cases h
    | cons p ps =>
      dsimp only [bodyStep] at h
      split at h <;> cases h
  | closing providers firstError =>
    cases providers with
    | nil => cases h
    | cons p ps =>
      dsimp only [bodyStep] at h
      split at h <;> cases h
  | _ => cases h

theorem Progressed.unseen {base c c' : MemoryClient} {b b' : Body} (hp : Progressed base c b)
    (hinitialized : c'.initialized = c.initialized) (hservice : c'.service = c.service)
    (hentered : ∀ call, b' ≠ .entered call) (hopens : b'.Opens → b.Opens)
    (hproviders : b'.KeepsProviders → b.KeepsProviders)
    (hpipelines : b'.KeepsPipelines → b.KeepsPipelines) : Progressed base c' b' where
  entered call hcall := absurd hcall (hentered call)
  opens hb := hinitialized.trans (hp.opens (hopens hb))
  providers hb := (congrArg _ hservice).trans (hp.providers (hproviders hb))
  pipelines hb := (congrArg _ hservice).trans (hp.pipelines (hpipelines hb))

/-- A step of `initialize` before it assigns, or of its error path. -/
theorem Progressed.works {base c c' : MemoryClient} {b b' : Body} (hp : Progressed base c b)
    (hb : b.Opens ∧ b.KeepsProviders ∧ b.KeepsPipelines)
    (hinitialized : c'.initialized = c.initialized) (hservice : c'.service = c.service)
    (hentered : ∀ call, b' ≠ .entered call) : Progressed base c' b' :=
  hp.unseen hinitialized hservice hentered (fun _ => hb.1) (fun _ => hb.2.1) (fun _ => hb.2.2)

theorem Progressed.entering {base : MemoryClient} {b : Body} (hentered : ∀ call, b ≠ .entered call)
    (hopens : b.Opens → base.initialized = false) : Progressed base base b where
  entered call hcall := absurd hcall (hentered call)
  opens := hopens
  providers _ := rfl
  pipelines _ := rfl

theorem progressed_step {base c c' : MemoryClient} {b b' : Body} (hp : Progressed base c b)
    (h : bodyStep config c b = (c', .inl b')) : Progressed base c' b' := by
  cases b with
  | entered call =>
    have hbase : c = base := hp.entered call rfl
    subst hbase
    cases call with
    | initializeClient registry =>
      dsimp only [bodyStep] at h
      split at h
      · cases h
        exact .entering nofun nofun
      · rename_i hi
        split at h
        · cases h
          exact .entering nofun nofun
        · cases h
          exact .entering nofun fun _ => Bool.eq_false_iff.mpr hi
    | closeClient =>
      dsimp only [bodyStep] at h
      split at h
      · cases h
        exact .entering nofun nofun
      · cases h
        exact .entering nofun nofun
  | staging registry names staged =>
    have hb : (Body.staging registry names staged).Opens ∧
        (Body.staging registry names staged).KeepsProviders ∧
        (Body.staging registry names staged).KeepsPipelines := ⟨trivial, trivial, trivial⟩
    cases names with
    | nil =>
      dsimp only [bodyStep] at h
      split at h
      · cases h
        exact hp.works hb rfl rfl nofun
      · cases h
        exact hp.works hb rfl rfl nofun
    | cons name names =>
      dsimp only [bodyStep] at h
      split at h
      · cases h
        exact hp.works hb rfl rfl nofun
      · cases h
        exact hp.works hb rfl rfl nofun
      · cases h
        exact hp.works hb rfl rfl nofun
  | starting registry names staged onInitialize =>
    cases onInitialize with
    | none =>
      cases h
      exact hp.works ⟨trivial, trivial, trivial⟩ rfl rfl nofun
    | some e =>
      cases h
      exact hp.works ⟨trivial, trivial, trivial⟩ rfl rfl nofun
  | tearing providers error =>
    cases providers with
    | nil =>
      cases h
      exact hp.works ⟨trivial, trivial, trivial⟩ rfl rfl nofun
    | cons p ps =>
      dsimp only [bodyStep] at h
      split at h
      · cases h
        exact hp.works ⟨trivial, trivial, trivial⟩ rfl rfl nofun
      · cases h
        -- an error that is no `Exception` leaves the loop, to the same effect for other threads
        refine hp.works ⟨trivial, trivial, trivial⟩ rfl rfl ?_
        split <;> exact nofun
  | failing error =>
    cases h
    exact hp.works ⟨trivial, trivial, trivial⟩ rfl rfl nofun
  | committingProviders staged =>
    -- other threads see the new providers from here on, and the new pipelines a step later
    cases h
    exact ⟨nofun, fun _ => hp.opens trivial, nofun, fun _ => hp.pipelines trivial⟩
  | committingPipelines staged =>
    cases h
    exact ⟨nofun, fun _ => hp.opens trivial, nofun, nofun⟩
  | succeeding =>
    cases h
    exact ⟨nofun, nofun, nofun, nofun⟩
  | closing providers firstError =>
    cases providers with
    | nil =>
      cases h
      exact hp.unseen rfl rfl nofun nofun (fun _ => trivial) fun _ => trivial
    | cons p ps =>
      dsimp only [bodyStep] at h
      split at h
      · cases h
        exact hp.unseen rfl rfl nofun nofun (fun _ => trivial) fun _ => trivial
      · cases h
        refine hp.unseen rfl rfl ?_ ?_ (fun _ => trivial) fun _ => trivial
        · split <;> exact nofun
        · split <;> exact nofun
  | clearingProviders error =>
    -- the client is still marked as initialized while its maps go
    cases h
    exact ⟨nofun, nofun, nofun, fun _ => hp.pipelines trivial⟩
  | clearingPipelines error =>
    cases h
    exact ⟨nofun, nofun, nofun, nofun⟩
  | uninitializing error =>
    cases h
    exact ⟨nofun, nofun, nofun, nofun⟩
  | leaving outcome => cases h

theorem progressed_leads {base : MemoryClient} {call : SyncClient.Call} {x : MemoryClient × Body}
    (h : (monitor config).Leads (base, .entered call) x) : Progressed base x.1 x.2 := by
  induction h with
  | refl =>
    refine ⟨fun _ _ => rfl, ?_, fun _ => rfl, fun _ => rfl⟩
    intro hopens
    exact hopens.elim
  | tail _ hstep ih => exact progressed_step ih hstep

/-- Once `_providers` has been assigned, the rest of the call leaves it. -/
theorem ends_keepsProviders {c : MemoryClient} {b : Body} (h : ¬ b.KeepsProviders) :
    ∃ c' outcome, (monitor config).Ends (c, b) c' outcome ∧
      c'.service.providers = c.service.providers := by
  cases b with
  | committingPipelines staged =>
    exact ⟨_, _, Monitor.Ends.step rfl (Monitor.Ends.step rfl (ends_leaving _ _)), rfl⟩
  | succeeding =>
    exact ⟨_, _, Monitor.Ends.step rfl (ends_leaving _ _), rfl⟩
  | clearingPipelines error =>
    exact ⟨_, _, Monitor.Ends.step rfl (Monitor.Ends.step rfl (ends_leaving _ _)), rfl⟩
  | uninitializing error =>
    exact ⟨_, _, Monitor.Ends.step rfl (ends_leaving _ _), rfl⟩
  | leaving outcome => exact ⟨c, outcome, ends_leaving c outcome, rfl⟩
  | _ => exact absurd trivial h

theorem ends_keepsPipelines {c : MemoryClient} {b : Body} (h : ¬ b.KeepsPipelines) :
    ∃ c' outcome, (monitor config).Ends (c, b) c' outcome ∧
      c'.service.pipelines = c.service.pipelines := by
  cases b with
  | succeeding =>
    exact ⟨_, _, Monitor.Ends.step rfl (ends_leaving _ _), rfl⟩
  | uninitializing error =>
    exact ⟨_, _, Monitor.Ends.step rfl (ends_leaving _ _), rfl⟩
  | leaving outcome => exact ⟨c, outcome, ends_leaving c outcome, rfl⟩
  | _ => exact absurd trivial h

theorem reachable_complete {c : MemoryClient} (h : (SyncClient.machine config).Reachable c)
    (call : SyncClient.Call) :
    (SyncClient.machine config).Reachable (complete config c call).1 := by
  refine h.next (l := call) ?_
  cases call with
  | initializeClient registry => rfl
  | closeClient => rfl

theorem reachable_serial {order : List (SyncClient.Call × Outcome)} {c : MemoryClient}
    (h : Monitor.Serial (complete config) .new order c) :
    (SyncClient.machine config).Reachable c := by
  induction h with
  | start => exact ⟨[], .start⟩
  | next hserial hrun ih =>
    rename_i call outcome
    have hreach := reachable_complete ih call
    rw [hrun] at hreach
    exact hreach

end

section

variable {η ξ : Type}

/-- How far an operation is: it has read `_initialized`, `_providers` and `_pipelines`, in this
order, and goes by what it has seen. -/
inductive Progress (η ξ : Type) (op : Operation)
  | called
  | asserted
  | found (providers : List (String × Provider))
  | running (seen : MemoryClient) (trace : Trace Provider η ξ)
    (rest : Calls Provider η ξ (Except OperationError op.Result))

structure OperationCall (η ξ : Type) where
  op : Operation
  progress : Progress η ξ op

def glimpse (initialized : Bool) (providers : List (String × Provider))
    (pipelines : List (String × ℕ)) : MemoryClient :=
  ⟨initialized, none, ⟨providers, pipelines⟩, ⟨[], 0, []⟩⟩

/-- One step of an operation, without the lock: a read, or a call that is answered. -/
def advance (s : Setting η) (c : MemoryClient)
    (reply : (call : ServiceOperations.Call Provider η ξ) → Answer Provider η ξ call) :
    OperationCall η ξ → Option (OperationCall η ξ)
  | ⟨op, .called⟩ =>
    if c.initialized then some ⟨op, .asserted⟩
    else
      let seen := glimpse false [] []
      some ⟨op, .running seen [] (s.operate seen op)⟩
  | ⟨op, .asserted⟩ => some ⟨op, .found c.service.providers⟩
  | ⟨op, .found providers⟩ =>
    let seen := glimpse true providers c.service.pipelines
    some ⟨op, .running seen [] (s.operate seen op)⟩
  | ⟨op, .running seen trace (.calls call next)⟩ =>
    some ⟨op, .running seen (trace ++ [⟨call, reply call⟩]) (next (reply call))⟩
  | ⟨_, .running _ _ (.ends _)⟩ => none

inductive OperationLabel (η ξ : Type)
  | call (op : Operation)
  | advance (i : ℕ)
    (reply : (call : ServiceOperations.Call Provider η ξ) → Answer Provider η ξ call)

def look (s : Setting η) (c : MemoryClient) (os : List (OperationCall η ξ)) :
    OperationLabel η ξ → Option (List (OperationCall η ξ))
  | .call op => some (os ++ [⟨op, .called⟩])
  | .advance i reply =>
    match os[i]? with
    | some o => (advance s c reply o).map fun o => os.set i o
    | none => none

abbrev State (η ξ : Type) :=
  Monitor.State MemoryClient SyncClient.Call Body Outcome (List (OperationCall η ξ))

abbrev Label (η ξ : Type) := Monitor.Label SyncClient.Call (OperationLabel η ξ)

def machine (s : Setting η) : Machine (State η ξ) (Label η ξ) :=
  (monitor s.config).machine (look s) []

def Inside (st : State η ξ) (i : ℕ) : Prop :=
  ∃ call body, st.calls[i]? = some (.inside call body)

/-- Whatever the threads do: the calls of `initialize` and `close` that have ended are a run of
complete calls in the order in which they ended, each with the outcome that the complete call
has; between calls the client is as that run leaves it; at most one call is inside its body; and
while one has not ended, some call can take a step. -/
theorem calls_linearizable (s : Setting η) {history : List (State η ξ × Label η ξ)}
    {st : State η ξ} (h : (machine s).Execution history st) :
    (Monitor.ended st.calls).Perm (Monitor.order (monitor s.config) history) ∧
    (∃ base, Monitor.Serial (complete s.config) .new
        (Monitor.order (monitor s.config) history) base ∧
      (SyncClient.machine s.config).Reachable base ∧ (st.holder = none → st.shared = base)) ∧
    (∀ i j, Inside st i → Inside st j → i = j) ∧
    ∀ (i : ℕ) phase, st.calls[i]? = some phase → (∀ call outcome, phase ≠ .ended call outcome) →
      ∃ l st', (l = .acquire i ∨ ∃ j, st.holder = some j ∧ l = .run j) ∧
        (machine s).step st l = some st' := by
  have hlinear := Monitor.linear (implements s.config) h
  refine ⟨hlinear.ended, ?_, ?_, ?_⟩
  · obtain ⟨base, hserial, hbase⟩ := hlinear.serial
    exact ⟨base, hserial, reachable_serial hserial, hbase.shared_eq⟩
  · intro i j hi hj
    obtain ⟨call, b, hi⟩ := hi
    obtain ⟨call', b', hj⟩ := hj
    have hholder := hlinear.locked.only i call b hi
    have hholder' := hlinear.locked.only j call' b' hj
    rw [hholder] at hholder'
    exact Option.some.inj hholder'
  · intro i phase hcall hphase
    exact hlinear.locked.progress (look s) hcall hphase

end

/-- Two threads initialize the client at once: the second to come is first inside. -/
theorem calls_linearizable_twice :
    ∃ (history : List (State ℕ ℕ × Label ℕ ℕ)) (st : State ℕ ℕ),
      (machine hookedSetting).Execution history st ∧ st.shared.world.created = 1 ∧
      (Monitor.order (monitor hookedSetting.config) history).length = 2 ∧
      ∃ base, Monitor.Serial (complete hookedSetting.config) .new
        (Monitor.order (monitor hookedSetting.config) history) base ∧ st.shared = base := by
  let labels : List (Label ℕ ℕ) :=
    [.call (.initializeClient hookedRegistry), .call (.initializeClient hookedRegistry),
      .acquire 1] ++ List.replicate 8 (.run 1) ++ [.acquire 0, .run 0, .run 0]
  obtain ⟨history, st, hrecord, hcreated, hlength, hfree⟩ :
      ∃ history st, (machine hookedSetting).record labels = some (history, st) ∧
        st.shared.world.created = 1 ∧
        (Monitor.order (monitor hookedSetting.config) history).length = 2 ∧ st.holder = none :=
    ⟨_, _, rfl, rfl, rfl, rfl⟩
  have hex := Machine.execution_record labels hrecord
  obtain ⟨-, ⟨base, hserial, -, hbase⟩, -⟩ := calls_linearizable hookedSetting hex
  exact ⟨history, st, hex, hcreated, hlength, base, hserial, hbase hfree⟩

section

variable {η ξ : Type}

/-- It has read that the client is initialized, and has not ended. -/
def Progress.UnderWay {op : Operation} : Progress η ξ op → Prop
  | .called => False
  | .asserted | .found _ => True
  | .running _ _ (.calls _ _) => True
  | .running _ _ (.ends _) => False

def closing : Monitor.Phase SyncClient.Call Body Outcome → Bool
  | .inside _ b => b.closes
  | _ => false

/-- No `close()` is at work. -/
def Quiet (st : State η ξ) : Prop := ∀ phase ∈ st.calls, closing phase = false

instance (st : State η ξ) : Decidable (Quiet st) :=
  List.decidableBAll (fun phase => closing phase = false) st.calls

/-- Operation `i` is not under way while a `close()` is at work. -/
def Undisturbed (i : ℕ) (st : State η ξ) : Prop :=
  (∃ o, st.others[i]? = some o ∧ o.progress.UnderWay) →
    Quiet st

def Settled (config : MemoryServiceConfig) (c : MemoryClient) : Prop :=
  (SyncClient.machine config).Reachable c

/-- The two maps that an operation has seen are each one of a settled client. -/
structure SeenEach (config : MemoryServiceConfig) (seen : MemoryClient) : Prop where
  providers : ∃ c, Settled config c ∧ c.service.providers = seen.service.providers
  pipelines : ∃ c, Settled config c ∧ c.service.pipelines = seen.service.pipelines

/-- What a call assigns once is that of a settled client: of the one before, until it is assigned,
and then of the one that the call leaves. -/
theorem exists_settled {α : Type} (f : MemoryClient → α) {config : MemoryServiceConfig}
    {base c : MemoryClient} {call : SyncClient.Call} {b : Body} {keeps : Prop}
    (hsettled : Settled config base)
    (hlead : (monitor config).Leads (base, .entered call) (c, b)) (hkept : keeps → f c = f base)
    (hassigned : ¬ keeps → ∃ c' outcome, (monitor config).Ends (c, b) c' outcome ∧ f c' = f c) :
    ∃ c', Settled config c' ∧ f c' = f c := by
  by_cases hkeeps : keeps
  · exact ⟨base, hsettled, (hkept hkeeps).symm⟩
  · obtain ⟨c', outcome, hends, heq⟩ := hassigned hkeeps
    refine ⟨(complete config base call).1, reachable_complete hsettled call, ?_⟩
    rw [(implements config).eq_of_leads hlead hends]
    exact heq

theorem seenEach_shared {config : MemoryServiceConfig}
    {history : List (State η ξ × Label η ξ)} {st : State η ξ}
    (hlinear : Monitor.Linear (monitor config) (complete config) history st) :
    SeenEach config st.shared := by
  obtain ⟨base, hserial, hbase⟩ := hlinear.serial
  have hsettled : Settled config base := reachable_serial hserial
  cases hholder : st.holder with
  | none =>
    rw [hbase.shared_eq hholder]
    exact ⟨⟨base, hsettled, rfl⟩, ⟨base, hsettled, rfl⟩⟩
  | some i =>
    obtain ⟨call, b, hcall⟩ := hlinear.locked.holds i hholder
    have hlead := hbase.leads hholder hcall
    have hprogressed := progressed_leads hlead
    constructor
    · exact exists_settled (fun c => c.service.providers) hsettled hlead hprogressed.providers
        ends_keepsProviders
    · exact exists_settled (fun c => c.service.pipelines) hsettled hlead hprogressed.pipelines
        ends_keepsPipelines

theorem Body.idle {b : Body} (hopens : ¬ b.Opens) (hcloses : b.closes = false) :
    (∃ call, b = .entered call) ∨ ∃ outcome, b = .leaving outcome := by
  cases b with
  | entered call => exact .inl ⟨call, rfl⟩
  | leaving outcome => exact .inr ⟨outcome, rfl⟩
  | closing ps first => cases hcloses
  | clearingProviders error => cases hcloses
  | clearingPipelines error => cases hcloses
  | uninitializing error => cases hcloses
  | _ => exact absurd trivial hopens

section

variable {s : Setting η} {history : List (State η ξ × Label η ξ)} {st st' : State η ξ}
  {l : Label η ξ}

/-- A body that is inside while the client is initialized has not begun to work, or is done. -/
theorem idle_of_initialized
    (hlinear : Monitor.Linear (monitor s.config) (complete s.config) history st)
    (hquiet : Quiet st) (hi : st.shared.initialized = true) {i : ℕ} {call : SyncClient.Call}
    {b : Body} (hcall : st.calls[i]? = some (.inside call b)) :
    (∃ call', b = .entered call') ∨ ∃ outcome, b = .leaving outcome := by
  obtain ⟨base, -, hbase⟩ := hlinear.serial
  have hlead := hbase.leads (hlinear.locked.only i call b hcall) hcall
  refine Body.idle ?_ (hquiet _ (List.mem_of_getElem? hcall))
  intro hopens
  have hfalse : st.shared.initialized = false := (progressed_leads hlead).opens hopens
  rw [hi] at hfalse
  cases hfalse

/-- An initialized client that no `close()` is at work on is settled. -/
theorem settled_of_initialized
    (hlinear : Monitor.Linear (monitor s.config) (complete s.config) history st)
    (hquiet : Quiet st) (hi : st.shared.initialized = true) : Settled s.config st.shared := by
  obtain ⟨base, hserial, hbase⟩ := hlinear.serial
  have hsettled : Settled s.config base := reachable_serial hserial
  cases hholder : st.holder with
  | none =>
    rw [hbase.shared_eq hholder]
    exact hsettled
  | some i =>
    obtain ⟨call, b, hcall⟩ := hlinear.locked.holds i hholder
    have hlead := hbase.leads hholder hcall
    obtain ⟨call', rfl⟩ | ⟨outcome, rfl⟩ := idle_of_initialized hlinear hquiet hi hcall
    · have hsame : st.shared = base := (progressed_leads hlead).entered call' rfl
      rw [hsame]
      exact hsettled
    · -- only the lock is left to release, so the client is as the complete call leaves it
      have hreach := reachable_complete hsettled call
      rw [(implements s.config).eq_of_leads hlead (ends_leaving _ _)] at hreach
      exact hreach

theorem shared_kept (hlinear : Monitor.Linear (monitor s.config) (complete s.config) history st)
    (hquiet : Quiet st) (hi : st.shared.initialized = true)
    (h : Monitor.Stepped (monitor s.config) (look s) st l st') : st'.shared = st.shared := by
  cases h with
  | called call => rfl
  | acquired i call hfree hcall => rfl
  | looked label others hlook => rfl
  | ended i call b shared outcome hcall hstep => exact (step_leaving hstep).2
  | went i call b b' shared hcall hstep =>
    change bodyStep s.config st.shared b = (shared, .inl b') at hstep
    obtain ⟨call', rfl⟩ | ⟨outcome, rfl⟩ := idle_of_initialized hlinear hquiet hi hcall
    · unfold bodyStep at hstep
      cases call' with
      | initializeClient registry =>
        simp only [hi, if_true] at hstep
        cases hstep
        rfl
      | closeClient =>
        simp only [hi, if_true] at hstep
        cases hstep
        rfl
    · cases hstep

/-- What a thread goes by that no `close()` cuts into: the client as it is, or, once the
operation has ended, as it was. -/
def Steady (s : Setting η) (c : MemoryClient) : OperationCall η ξ → Prop
  | ⟨_, .called⟩ => True
  | ⟨_, .asserted⟩ => Settled s.config c ∧ c.initialized = true
  | ⟨_, .found providers⟩ =>
    Settled s.config c ∧ c.initialized = true ∧ providers = c.service.providers
  | ⟨_, .running seen _ (.calls _ _)⟩ =>
    Settled s.config c ∧ c.initialized = true ∧ seen = glimpse true c.service.providers
      c.service.pipelines
  | ⟨_, .running seen _ (.ends _)⟩ =>
    ∃ c, Settled s.config c ∧ seen = glimpse c.initialized c.service.providers c.service.pipelines

theorem Steady.kept {c c' : MemoryClient} {o : OperationCall η ξ} (h : Steady s c o)
    (hc : o.progress.UnderWay → c' = c) : Steady s c' o := by
  obtain ⟨op, progress⟩ := o
  cases progress with
  | called => trivial
  | asserted =>
    rw [hc trivial]
    exact h
  | found providers =>
    rw [hc trivial]
    exact h
  | running seen trace rest =>
    cases rest with
    | calls call next =>
      rw [hc trivial]
      exact h
    | ends outcome => exact h

theorem operate_uninitialized (op : Operation) :
    s.operate (ξ := ξ) (glimpse false [] []) op =
      .ends (.error (.raised .notInitializedError)) := by
  cases op <;> rfl

theorem steady_running {c : MemoryClient} {op : Operation} {trace : Trace Provider η ξ}
    (rest : Calls Provider η ξ (Except OperationError op.Result)) (hc : Settled s.config c)
    (hi : c.initialized = true) :
    Steady s c ⟨op, .running (glimpse true c.service.providers c.service.pipelines) trace rest⟩ := by
  cases rest with
  | calls call next => exact ⟨hc, hi, rfl⟩
  | ends outcome => exact ⟨c, hc, by rw [hi]⟩

theorem Steady.advance {c : MemoryClient} {o o' : OperationCall η ξ} (h : Steady s c o)
    (hsettled : o'.progress.UnderWay → c.initialized = true → Settled s.config c)
    {reply : (call : ServiceOperations.Call Provider η ξ) → Answer Provider η ξ call}
    (hstep : advance s c reply o = some o') : Steady s c o' := by
  obtain ⟨op, progress⟩ := o
  cases progress with
  | called =>
    unfold ThreadedClient.advance at hstep
    dsimp only at hstep
    split at hstep
    · rename_i hi
      cases hstep
      exact ⟨hsettled trivial hi, hi⟩
    · -- the operation ends here, as it does on a client that nobody has initialized
      rw [operate_uninitialized op] at hstep
      cases hstep
      exact ⟨.new, ⟨[], .start⟩, rfl⟩
  | asserted =>
    cases hstep
    exact ⟨h.1, h.2, rfl⟩
  | found providers =>
    obtain ⟨hc, hi, rfl⟩ := h
    cases hstep
    exact steady_running _ hc hi
  | running seen trace rest =>
    cases rest with
    | calls call next =>
      obtain ⟨hc, hi, rfl⟩ := h
      cases hstep
      exact steady_running _ hc hi
    | ends outcome => cases hstep

theorem Steady.initialized {c : MemoryClient} {o : OperationCall η ξ} (h : Steady s c o)
    (hunder : o.progress.UnderWay) : c.initialized = true := by
  obtain ⟨op, progress⟩ := o
  cases progress with
  | called => exact hunder.elim
  | asserted => exact h.2
  | found providers => exact h.2.1
  | running seen trace rest =>
    cases rest with
    | calls call next => exact h.2.1
    | ends outcome => exact hunder.elim

def Glimpsed (s : Setting η) : OperationCall η ξ → Prop
  | ⟨_, .called⟩ | ⟨_, .asserted⟩ => True
  | ⟨_, .found providers⟩ => ∃ c, Settled s.config c ∧ c.service.providers = providers
  | ⟨op, .running seen trace rest⟩ => SeenEach s.config seen ∧
    ∀ more outcome, rest.Runs more outcome → (s.operate seen op).Runs (trace ++ more) outcome

theorem Glimpsed.advance {c : MemoryClient} {o o' : OperationCall η ξ} (h : Glimpsed s o)
    (hseen : SeenEach s.config c)
    {reply : (call : ServiceOperations.Call Provider η ξ) → Answer Provider η ξ call}
    (hstep : ThreadedClient.advance s c reply o = some o') : Glimpsed s o' := by
  obtain ⟨op, progress⟩ := o
  cases progress with
  | called =>
    unfold ThreadedClient.advance at hstep
    dsimp only at hstep
    split at hstep
    · cases hstep
      trivial
    · cases hstep
      have hnew : Settled s.config .new := ⟨[], .start⟩
      exact ⟨⟨⟨.new, hnew, rfl⟩, ⟨.new, hnew, rfl⟩⟩, fun _ _ hrun => hrun⟩
  | asserted =>
    cases hstep
    exact hseen.providers
  | found providers =>
    cases hstep
    exact ⟨⟨h, hseen.pipelines⟩, fun _ _ hrun => hrun⟩
  | running seen trace rest =>
    cases rest with
    | calls call next =>
      cases hstep
      refine ⟨h.1, fun more outcome hrun => ?_⟩
      have hrest := h.2 (⟨call, reply call⟩ :: more) outcome (.calls hrun)
      rwa [List.append_assoc]
    | ends outcome => cases hstep

/-- The invariant rule for one operation: what holds of it when it is called, and is kept by the
steps of the others and by its own. `P` is what the run is assumed to keep to. -/
theorem operation_rule {P : State η ξ → Prop} {I : MemoryClient → OperationCall η ξ → Prop} {i : ℕ}
    (called : ∀ c op, I c ⟨op, .called⟩)
    (kept : ∀ (history : List (State η ξ × Label η ξ)) (st : State η ξ) (l : Label η ξ)
      (st' : State η ξ) (o : OperationCall η ξ),
      Monitor.Linear (monitor s.config) (complete s.config) history st → P st →
      st.others[i]? = some o → Monitor.Stepped (monitor s.config) (look s) st l st' →
      I st.shared o → I st'.shared o)
    (own : ∀ (history : List (State η ξ × Label η ξ)) (st : State η ξ) (o o' : OperationCall η ξ)
      (reply : (call : ServiceOperations.Call Provider η ξ) → Answer Provider η ξ call),
      Monitor.Linear (monitor s.config) (complete s.config) history st →
      P { st with others := st.others.set i o' } → st.others[i]? = some o →
      advance s st.shared reply o = some o' → I st.shared o → I st.shared o')
    (h : (machine s).Execution history st) (hall : Machine.Always P history st)
    {o : OperationCall η ξ} (ho : st.others[i]? = some o) : I st.shared o := by
  induction h generalizing o with
  | start => cases ho
  | next hex hstep ih =>
    rename_i history st l st'
    obtain ⟨hlast, hprev⟩ := hall
    have hst := hprev (st, l) List.mem_cons_self
    have hbefore : Machine.Always P history st :=
      ⟨hst, fun p hp => hprev p (List.mem_cons_of_mem _ hp)⟩
    have hlinear := Monitor.linear (implements s.config) hex
    have hstepped := Monitor.stepped hstep
    have hkept {o : OperationCall η ξ} (ho : st.others[i]? = some o) : I st'.shared o :=
      kept history st l st' o hlinear hst ho hstepped (ih hbefore ho)
    cases hstepped with
    | called call => exact hkept ho
    | acquired j call hfree hcall => exact hkept ho
    | went j call b b' shared hcall hbody => exact hkept ho
    | ended j call b shared outcome hcall hbody => exact hkept ho
    | looked label others hlook =>
      cases label with
      | call op =>
        cases hlook
        dsimp only at ho
        rw [List.getElem?_append] at ho
        split at ho
        · exact hkept ho
        · rw [List.mem_singleton.mp (List.mem_of_getElem? ho)]
          exact called _ op
      | advance j reply =>
        unfold look at hlook
        dsimp only at hlook
        split at hlook
        · rename_i o₀ ho₀
          obtain ⟨o₁, hadvance, rfl⟩ := Option.map_eq_some_iff.mp hlook
          rcases Monitor.getElem?_set_some ho with ⟨rfl, rfl⟩ | ⟨hne, ho⟩
          · -- the step is the operation's own: what it finds is what the last step left
            exact own history st o₀ o reply hlinear hlast ho₀ hadvance (ih hbefore ho₀)
          · exact hkept ho
        · cases hlook

theorem glimpsed (h : (machine s).Execution history st) {i : ℕ} {o : OperationCall η ξ}
    (ho : st.others[i]? = some o) : Glimpsed s o := by
  refine operation_rule (P := fun _ => True) (I := fun _ => Glimpsed s) ?_ ?_ ?_ h
    ⟨trivial, fun _ _ => trivial⟩ ho
  · intro c op
    trivial
  · intro history st l st' o _ _ _ _ hglimpsed
    exact hglimpsed
  · intro history st o o' reply hlinear _ _ hadvance hglimpsed
    exact hglimpsed.advance (seenEach_shared hlinear) hadvance

theorem steady (h : (machine s).Execution history st) {i : ℕ}
    (hall : Machine.Always (Undisturbed i) history st) {o : OperationCall η ξ}
    (ho : st.others[i]? = some o) : Steady s st.shared o := by
  refine operation_rule (P := Undisturbed i) (I := Steady s) ?_ ?_ ?_ h hall ho
  · intro c op
    trivial
  · intro history st l st' o hlinear hundisturbed ho hstepped hsteady
    apply hsteady.kept
    intro hunder
    exact shared_kept hlinear (hundisturbed ⟨o, ho, hunder⟩) (hsteady.initialized hunder) hstepped
  · intro history st o o' reply hlinear hundisturbed ho hadvance hsteady
    apply hsteady.advance _ hadvance
    intro hunder hi
    exact settled_of_initialized hlinear
      (hundisturbed ⟨o', Monitor.getElem?_set_of_some o' ho, hunder⟩) hi

theorem operate_glimpse (c : MemoryClient) (op : Operation) :
    s.operate (ξ := ξ) (glimpse c.initialized c.service.providers c.service.pipelines) op =
      s.operate c op := by
  cases op <;> rfl

theorem SeenEach.registered {seen : MemoryClient} (h : SeenEach s.config seen) (name : String) :
    (∀ provider, seen.service.providers.lookup name = some provider →
      ∃ c pipeline, Registered s.config c name provider pipeline) ∧
    ∀ pipeline, seen.service.pipelines.lookup name = some pipeline →
      ∃ c provider, Registered s.config c name provider pipeline := by
  constructor
  · intro provider hlookup
    obtain ⟨c, hc, hsame⟩ := h.providers
    rw [← hsame] at hlookup
    exact ⟨c, registered_of_lookup (opened_of_reachable hc) hlookup⟩
  · intro pipeline hlookup
    obtain ⟨c, hc, hsame⟩ := h.pipelines
    rw [← hsame] at hlookup
    exact ⟨c, registered_of_pipeline (opened_of_reachable hc) hlookup⟩

/-- Whatever the threads do, an operation runs as it would on a client that has the maps it has
seen, and each entry of these was registered by an initialization that succeeded. If no `close()` was
at work while it was under way, then it runs as it would between complete calls: on a client that
a run of them leads to, with the maps that it has seen. Until the operation has ended the shared
client is that one, with its provider registered and not closed. -/
theorem operations_linearizable (s : Setting η) {history : List (State η ξ × Label η ξ)}
    {st : State η ξ} (h : (machine s).Execution history st) {i : ℕ} {op : Operation}
    {seen : MemoryClient} {trace : Trace Provider η ξ}
    {rest : Calls Provider η ξ (Except OperationError op.Result)}
    (ho : st.others[i]? = some ⟨op, .running seen trace rest⟩) :
    (∀ more outcome, rest.Runs more outcome →
      (s.operate seen op).Runs (trace ++ more) outcome) ∧
    (∀ name provider, seen.service.providers.lookup name = some provider →
      ∃ c pipeline, Registered s.config c name provider pipeline) ∧
    (∀ name pipeline, seen.service.pipelines.lookup name = some pipeline →
      ∃ c provider, Registered s.config c name provider pipeline) ∧
    (Machine.Always (Undisturbed i) history st → ∃ c,
      (SyncClient.machine s.config).Reachable c ∧
      seen = glimpse c.initialized c.service.providers c.service.pipelines ∧
      (∀ more outcome, rest.Runs more outcome → (s.operate c op).Runs (trace ++ more) outcome) ∧
      ((∀ outcome, rest ≠ .ends outcome) → st.shared = c ∧ ∃ provider pipeline,
        Registered s.config c s.config.defaultProvider provider pipeline)) := by
  obtain ⟨hseen, hruns⟩ := glimpsed h ho
  refine ⟨hruns, fun name => (hseen.registered name).1, fun name => (hseen.registered name).2,
    fun hall => ?_⟩
  have hsteady := steady h hall ho
  cases rest with
  | calls call next =>
    obtain ⟨hc, hi, rfl⟩ := hsteady
    have hopened := opened_of_reachable hc
    obtain ⟨provider, hlookup⟩ := default_registered hopened hi
    obtain ⟨pipeline, hregistered⟩ := registered_of_lookup hopened hlookup
    refine ⟨st.shared, hc, by rw [hi], ?_, fun _ => ⟨rfl, provider, pipeline, hregistered⟩⟩
    intro more outcome hrun
    rw [← operate_glimpse, hi]
    exact hruns more outcome hrun
  | ends result =>
    obtain ⟨c, hc, rfl⟩ := hsteady
    refine ⟨c, hc, rfl, ?_, fun hends => absurd rfl (hends result)⟩
    intro more outcome hrun
    rw [← operate_glimpse]
    exact hruns more outcome hrun

end

end

def searched : List (Label ℕ ℕ) :=
  [.call (.initializeClient hookedRegistry), .acquire 0] ++ List.replicate 8 (.run 0) ++
    [.look (.call (.search (.object (userSearch "q")))), .call .closeClient] ++
    List.replicate 6 (.look (.advance 0 (hookedAnswer []))) ++ [.acquire 1, .run 1]

/-- A `close()` waits for the lock until the operation is through its hooks. -/
theorem operations_linearizable_search :
    ∃ c trace outcome, (SyncClient.machine hookedSetting.config).Reachable c ∧ trace.length = 3 ∧
      (hookedSetting.operate (ξ := ℕ) c (.search (.object (userSearch "q")))).Runs trace
        outcome := by
  obtain ⟨history, st, seen, trace, outcome, hrecord, hquiet, ho, hlength⟩ :
      ∃ history st seen trace outcome,
        (machine hookedSetting).record searched = some (history, st) ∧
        (∀ p ∈ history, Quiet p.1) ∧
        st.others[0]? = some ⟨.search (.object (userSearch "q")),
          .running seen trace (.ends outcome)⟩ ∧ trace.length = 3 :=
    ⟨_, _, _, _, _, rfl, of_decide_eq_true rfl, rfl, rfl⟩
  have hex := Machine.execution_record searched hrecord
  have hall : Machine.Always (Undisturbed 0) history st := by
    refine ⟨fun hunder => ?_, fun p hp _ => hquiet p hp⟩
    obtain ⟨o, ho', hunder⟩ := hunder
    rw [ho] at ho'
    cases ho'
    exact hunder.elim
  obtain ⟨c, hc, -, hruns, -⟩ := (operations_linearizable hookedSetting hex ho).2.2.2 hall
  have hrun := hruns [] outcome (.ends outcome)
  rw [List.append_nil] at hrun
  exact ⟨c, trace, outcome, hc, hlength, hrun⟩

/-- A `close()` between the reads of an operation: the search goes out without the hooks of its
pipeline, to a provider that has been closed. -/
example : ∃ st seen trace rest, (machine hookedSetting).exec
    ([.call (.initializeClient hookedRegistry), .acquire 0] ++ List.replicate 8 (.run 0) ++
      [.look (.call (.search (.object (userSearch "q")))),
        .look (.advance 0 (hookedAnswer [])), .look (.advance 0 (hookedAnswer [])),
        .call .closeClient, .acquire 1] ++ List.replicate 7 (.run 1) ++
      [.look (.advance 0 (hookedAnswer []))]) = some st ∧
    st.shared.world.closeCalls = [0] ∧
    st.others = [⟨.search (.object (userSearch "q")),
      .running seen trace (.calls (.read ⟨0, none⟩ .search (userSearch "q")) rest)⟩] :=
  ⟨_, _, _, _, rfl, rfl, rfl⟩

end AtomicMemory.ThreadedClient
