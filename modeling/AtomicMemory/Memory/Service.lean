import AtomicMemory.Core.Errors
import Mathlib.Data.List.Nodup
import Mathlib.Data.List.Count

-- `MemoryServiceConfig`, and the lifecycle of the sync `MemoryService`. A factory
-- and the provider it returns are the caller's code: a registry says what each of
-- them does when it is called, and the world logs every call.

namespace AtomicMemory

abbrev ProviderId := ℕ

/-- The names of `provider_configs` in order, with `default_provider` one of them;
`_ServiceBase.__init__` refuses anything else. -/
structure MemoryServiceConfig where
  providerConfigs : List String
  defaultProvider : String
  nodup : providerConfigs.Nodup
  default_mem : defaultProvider ∈ providerConfigs

/-- `_ServiceBase.__init__`. The keys of a dict are distinct. -/
def MemoryServiceConfig.create (providerConfigs : List String) (nodup : providerConfigs.Nodup)
    (defaultProvider : String) : Except PyError MemoryServiceConfig :=
  if providerConfigs = [] then
    .error (.configError "MemoryService requires at least one provider config")
  else if h : defaultProvider ∈ providerConfigs then
    .ok ⟨providerConfigs, defaultProvider, nodup, h⟩
  else
    .error (.configError s!"default_provider '{defaultProvider}' is not in provider_configs")

/-- The error of `initialize` when the loop staged no default provider. -/
def MemoryServiceConfig.missingDefault (config : MemoryServiceConfig) : PyError :=
  .configError s!"Default provider '{config.defaultProvider}' has no factory in the registry"

namespace SyncService

/-- What one provider does: `none` returns, `some e` raises `e`. -/
structure ProviderBehaviour where
  pipeline : ℕ
  onInitialize : Option PyError
  onClose : Option PyError

inductive Factory
  | returns (provider : ProviderBehaviour)
  | raises (e : PyError)

/-- `ProviderRegistry.get`. -/
abbrev ProviderRegistry := String → Option Factory

/-- A provider instance; `onClose` is what its `close()` does. -/
structure Provider where
  id : ProviderId
  onClose : Option PyError
  deriving DecidableEq

structure Registration where
  provider : Provider
  pipeline : ℕ

/-- `staged_providers` and `staged_pipelines`, which always have the same keys. -/
abbrev Staged := List (String × Registration)

/-- What the caller's code has seen: the factories called, the providers they
returned, numbered in order, and every call of a `close()`. -/
structure World where
  factoryCalls : List String
  created : ℕ
  closeCalls : List ProviderId

def World.construct (w : World) (name : String) : World :=
  { w with factoryCalls := w.factoryCalls ++ [name], created := w.created + 1 }

def World.failFactory (w : World) (name : String) : World :=
  { w with factoryCalls := w.factoryCalls ++ [name] }

/-- `provider.close()` is called. -/
def World.closeCall (w : World) (p : Provider) : World :=
  { w with closeCalls := w.closeCalls ++ [p.id] }

/-- The loop of `initialize`, with the providers staged so far and the error that
ended it. The provider is staged before its `initialize()` is called. -/
def stageProviders (registry : ProviderRegistry) :
    List String → Staged → World → Staged × World × Option PyError
  | [], staged, w => (staged, w, none)
  | name :: names, staged, w =>
    match registry name with
    | none => stageProviders registry names staged w
    | some (.raises e) => (staged, w.failFactory name, some e)
    | some (.returns b) =>
      let staged := staged ++ [(name, ⟨⟨w.created, b.onClose⟩, b.pipeline⟩)]
      match b.onInitialize with
      | some e => (staged, w.construct name, some e)
      | none => stageProviders registry names staged (w.construct name)

/-- The `except BaseException` cleanup: `contextlib.suppress(Exception)` around each
`close()`. A `BaseException` that is no `Exception` escapes and ends the loop. -/
def teardown : List Provider → World → World × Option PyError
  | [], w => (w, none)
  | p :: ps, w =>
    match p.onClose with
    | none => teardown ps (w.closeCall p)
    | some e => if e.isException then teardown ps (w.closeCall p) else (w.closeCall p, some e)

/-- The loop of `close`, with `first_error` so far. The second component is what the
loop leaves to raise. -/
def closeProviders : List Provider → Option PyError → World → World × Option PyError
  | [], firstError, w => (w, firstError)
  | p :: ps, firstError, w =>
    match p.onClose with
    | none => closeProviders ps firstError (w.closeCall p)
    | some e =>
      if e.isException then closeProviders ps (firstError <|> some e) (w.closeCall p)
      else (w.closeCall p, some e)

/-- The two maps of `MemoryService`. -/
structure MemoryService where
  providers : List (String × Provider)
  pipelines : List (String × ℕ)

def MemoryService.empty : MemoryService := ⟨[], []⟩

def outcomeOf : Option PyError → Outcome
  | none => .returned
  | some e => .raised e

def stagedList (staged : Staged) : List Provider := staged.map fun x => x.2.provider

def stagedProviders (staged : Staged) : List (String × Provider) :=
  staged.map fun x => (x.1, x.2.provider)

def stagedPipelines (staged : Staged) : List (String × ℕ) :=
  staged.map fun x => (x.1, x.2.pipeline)

def missingDefaultError (config : MemoryServiceConfig) (staged : Staged) : Option PyError :=
  if config.defaultProvider ∈ staged.map Prod.fst then none else some config.missingDefault

/-- `MemoryService.initialize`. -/
def MemoryService.initializeProviders (config : MemoryServiceConfig) (svc : MemoryService)
    (registry : ProviderRegistry) (w : World) : MemoryService × World × Outcome :=
  let (staged, w, error) := stageProviders registry config.providerConfigs [] w
  match error <|> missingDefaultError config staged with
  | none => (⟨stagedProviders staged, stagedPipelines staged⟩, w, .returned)
  | some e =>
    let (w, escaped) := teardown (stagedList staged) w
    (svc, w, .raised (escaped.getD e))

/-- `MemoryService.close`. The maps are cleared in `finally`. -/
def MemoryService.close (svc : MemoryService) (w : World) : MemoryService × World × Outcome :=
  let (w, error) := closeProviders (svc.providers.map Prod.snd) none w
  (.empty, w, outcomeOf error)

def providerIds (ps : List Provider) : List ProviderId := ps.map Provider.id

/-- `close()` never raises a `BaseException` that is no `Exception`. -/
def ClosesSafely (p : Provider) : Prop := ∀ e, p.onClose = some e → e.isException = true

def ProviderRegistry.ClosesSafely (registry : ProviderRegistry) : Prop :=
  ∀ name b, registry name = some (.returns b) → ∀ e, b.onClose = some e → e.isException = true

/-- The loop appends to what is staged one entry for each provider created, in
order, and closes nothing. -/
theorem stageProviders_spec (registry : ProviderRegistry) (names : List String) (staged : Staged)
    (w : World) :
    ∃ fresh : Staged, (stageProviders registry names staged w).1 = staged ++ fresh ∧
      providerIds (stagedList fresh) = List.range' w.created fresh.length ∧
      (stageProviders registry names staged w).2.1.created = w.created + fresh.length ∧
      (stageProviders registry names staged w).2.1.closeCalls = w.closeCalls ∧
      (registry.ClosesSafely → ∀ p ∈ stagedList fresh, ClosesSafely p) := by
  induction names generalizing staged w with
  | nil => exact ⟨[], by simp [stageProviders, providerIds, stagedList]⟩
  | cons name names ih =>
    unfold stageProviders
    split
    · -- a name without a factory is passed over
      exact ih staged w
    · exact ⟨[], by simp [World.failFactory, providerIds, stagedList]⟩
    · rename_i b hb
      have hsafe : registry.ClosesSafely → ClosesSafely ⟨w.created, b.onClose⟩ :=
        fun h e he => h name b hb e he
      dsimp only
      split
      · -- the staging ends with the provider whose `initialize` raised
        refine ⟨[(name, ⟨⟨w.created, b.onClose⟩, b.pipeline⟩)], ?_⟩
        simpa [World.construct, providerIds, stagedList] using hsafe
      · obtain ⟨fresh, h1, h2, h3, h4, h5⟩ := ih
          (staged ++ [(name, ⟨⟨w.created, b.onClose⟩, b.pipeline⟩)]) (w.construct name)
        refine ⟨(name, ⟨⟨w.created, b.onClose⟩, b.pipeline⟩) :: fresh, ?_, ?_, ?_, ?_, ?_⟩
        · rw [h1, List.append_assoc, List.singleton_append]
        · simpa [providerIds, stagedList, World.construct, List.range'_succ] using h2
        · rw [h3, List.length_cons]
          simp only [World.construct]
          omega
        · exact h4
        · intro h p hp
          simp only [stagedList, List.map_cons, List.mem_cons] at hp
          rcases hp with rfl | hp
          · exact hsafe h
          · exact h5 h p hp

/-- With safe closes the cleanup calls every `close()` once and lets nothing escape. -/
theorem teardown_eq (ps : List Provider) (w : World) (h : ∀ p ∈ ps, ClosesSafely p) :
    teardown ps w = ({ w with closeCalls := w.closeCalls ++ providerIds ps }, none) := by
  induction ps generalizing w with
  | nil => simp [teardown, providerIds]
  | cons p ps ih =>
    have hp := h p List.mem_cons_self
    have hps := ih (w.closeCall p) fun q hq => h q (List.mem_cons_of_mem _ hq)
    unfold teardown
    split
    · rw [hps]
      simp [World.closeCall, providerIds]
    · rename_i e he
      rw [if_pos (hp e he), hps]
      simp [World.closeCall, providerIds]

/-- With safe closes the loop of `close` reaches every provider; an error it leaves
to raise is the first of theirs, an `Exception`. -/
theorem closeProviders_world (ps : List Provider) (first : Option PyError) (w : World)
    (h : ∀ p ∈ ps, ClosesSafely p) :
    (closeProviders ps first w).1 = { w with closeCalls := w.closeCalls ++ providerIds ps } := by
  induction ps generalizing first w with
  | nil => simp [closeProviders, providerIds]
  | cons p ps ih =>
    have hp := h p List.mem_cons_self
    have hps := fun first => ih first (w.closeCall p) fun q hq => h q (List.mem_cons_of_mem _ hq)
    unfold closeProviders
    split
    · rw [hps]
      simp [World.closeCall, providerIds]
    · rename_i e he
      rw [if_pos (hp e he), hps]
      simp [World.closeCall, providerIds]

theorem stagedProviders_map_snd (staged : Staged) :
    (stagedProviders staged).map Prod.snd = stagedList staged := by
  simp [stagedProviders, stagedList]

theorem stagedProviders_ne_nil {config : MemoryServiceConfig} {staged : Staged}
    (h : missingDefaultError config staged = none) : stagedProviders staged ≠ [] := by
  intro hs
  have hnil : staged = [] := by simpa [stagedProviders] using hs
  simp [missingDefaultError, hnil] at h

end SyncService
end AtomicMemory
