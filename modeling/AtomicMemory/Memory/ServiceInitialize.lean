import AtomicMemory.Lib.CallTree
import AtomicMemory.Memory.Service

-- `initialize` of both services, as the calls it makes of the caller's code. Their answers are
-- open: a factory may return a provider or raise, and so may the provider's `initialize()`,
-- also because the task was cancelled while it awaited them.

namespace AtomicMemory.ServiceInitialize

section

variable (π ψ : Type)

structure Registration where
  provider : π
  pipeline : ψ

inductive FactoryResult
  | registration (registration : Registration π ψ)
  | awaitable

inductive Call
  /-- The factory registered under the name is called. -/
  | factory (name : String)
  | asyncFactory (name : String)
  /-- What the async factory returned is awaited. -/
  | awaitFactory (name : String)
  | initializeProvider (provider : π)
  | closeProvider (provider : π)

def Answer : Call π → Type
  | .factory _ | .awaitFactory _ => Except PyError (Registration π ψ)
  | .asyncFactory _ => Except PyError (FactoryResult π ψ)
  | .initializeProvider _ | .closeProvider _ => Except PyError Unit

abbrev Calls := CallTree (Call π) (Answer π ψ)

abbrev Trace := List (Sigma (Answer π ψ))

/-- `staged_providers` and `staged_pipelines`, which have the same keys. -/
abbrev Staged := List (String × Registration π ψ)

/-- `_providers` and `_pipelines`. -/
structure Maps where
  providers : List (String × π)
  pipelines : List (String × ψ)

end

section

variable {π ψ : Type}

def stagedMaps (staged : Staged π ψ) : Maps π ψ where
  providers := staged.map fun x => (x.1, x.2.provider)
  pipelines := staged.map fun x => (x.1, x.2.pipeline)

def stagedList (staged : Staged π ψ) : List π := staged.map fun x => x.2.provider

/-- `factory(provider_config)`. -/
def callFactory (name : String) : Calls π ψ (Except PyError (Registration π ψ)) :=
  .calls (.factory name) .ends

/-- `_resolve_async_registration`. -/
def resolveAsyncRegistration (name : String) : Calls π ψ (Except PyError (Registration π ψ)) :=
  .calls (.asyncFactory name) fun
    | .error e => .ends (.error e)
    | .ok (.registration registration) => .ends (.ok registration)
    | .ok .awaitable => .calls (.awaitFactory name) .ends

/-- The loop over the configured providers, with those staged so far and the error that
ended it. -/
def stage (resolve : String → Calls π ψ (Except PyError (Registration π ψ)))
    (hasFactory : String → Bool) :
    List String → Staged π ψ → Calls π ψ (Staged π ψ × Option PyError)
  | [], staged => .ends (staged, none)
  | name :: names, staged =>
    if hasFactory name then
      (resolve name).bind fun
        | .error e => .ends (staged, some e)
        | .ok registration =>
          .calls (.initializeProvider registration.provider) fun
            | .error e => .ends (staged ++ [(name, registration)], some e)
            | .ok () => stage resolve hasFactory names (staged ++ [(name, registration)])
    else stage resolve hasFactory names staged

/-- `contextlib.suppress(Exception)` around each `close()`; what it lets through ends the
loop. -/
def suppressCloses : List π → Calls π ψ (Option PyError)
  | [] => .ends none
  | p :: ps =>
    .calls (.closeProvider p) fun
      | .ok () => suppressCloses ps
      | .error e => if e.isException then suppressCloses ps else .ends (some e)

/-- `asyncio.gather(..., return_exceptions=True)` of the closes, which begin in order and
raise nothing. -/
def gatherCloses : List π → Calls π ψ (Option PyError)
  | [] => .ends none
  | p :: ps => .calls (.closeProvider p) fun _ => gatherCloses ps

def missingDefaultError (config : MemoryServiceConfig) (staged : Staged π ψ) :
    Option PyError :=
  if config.defaultProvider ∈ staged.map Prod.fst then none else some config.missingDefault

/-- What the two `initialize` methods have in common. -/
def initializeWith (resolve : String → Calls π ψ (Except PyError (Registration π ψ)))
    (cleanup : List π → Calls π ψ (Option PyError)) (config : MemoryServiceConfig)
    (hasFactory : String → Bool) (maps : Maps π ψ) : Calls π ψ (Maps π ψ × Outcome) :=
  (stage resolve hasFactory config.providerConfigs []).bind fun (staged, error) =>
    match error <|> missingDefaultError config staged with
    | none => .ends (stagedMaps staged, .returned)
    | some e => (cleanup (stagedList staged)).bind fun escaped =>
        .ends (maps, .raised (escaped.getD e))

/-- `MemoryService.initialize`. -/
def initializeService (config : MemoryServiceConfig) (hasFactory : String → Bool)
    (maps : Maps π ψ) : Calls π ψ (Maps π ψ × Outcome) :=
  initializeWith callFactory suppressCloses config hasFactory maps

/-- `AsyncMemoryService.initialize`. -/
def initializeAsyncService (config : MemoryServiceConfig) (hasFactory : String → Bool)
    (maps : Maps π ψ) : Calls π ψ (Maps π ψ × Outcome) :=
  initializeWith resolveAsyncRegistration gatherCloses config hasFactory maps

def raised? {α : Type} : Except PyError α → Option PyError
  | .error e => some e
  | .ok _ => none

def failure : (x : Sigma (Answer π ψ)) → Option PyError
  | ⟨.factory _, r⟩ | ⟨.awaitFactory _, r⟩ => raised? r
  | ⟨.asyncFactory _, r⟩ => raised? r
  | ⟨.initializeProvider _, r⟩ | ⟨.closeProvider _, r⟩ => raised? r

def registration? : (x : Sigma (Answer π ψ)) → Option (Registration π ψ)
  | ⟨.factory _, .ok registration⟩ => some registration
  | ⟨.awaitFactory _, .ok registration⟩ => some registration
  | ⟨.asyncFactory _, .ok (.registration registration)⟩ => some registration
  | _ => none

def factory? : (x : Sigma (Answer π ψ)) → Option String
  | ⟨.factory name, _⟩ | ⟨.asyncFactory name, _⟩ => some name
  | _ => none

def start? : (x : Sigma (Answer π ψ)) → Option π
  | ⟨.initializeProvider p, _⟩ => some p
  | _ => none

def close? : (x : Sigma (Answer π ψ)) → Option π
  | ⟨.closeProvider p, _⟩ => some p
  | _ => none

def registrations (trace : Trace π ψ) : List (Registration π ψ) :=
  trace.filterMap registration?

def obtained (trace : Trace π ψ) : List π := (registrations trace).map Registration.provider

/-- Every `close()` returns or raises an `Exception`. -/
def ClosesSafely (trace : Trace π ψ) : Prop :=
  ∀ x ∈ trace, (close? x).isSome → ∀ e, failure x = some e → e.isException = true

/-- No call failed, or only the last one did, with this error. -/
def FirstFailure (trace : Trace π ψ) : Option PyError → Prop
  | none => ∀ x ∈ trace, failure x = none
  | some e =>
    ∃ before last, trace = before ++ [last] ∧ (∀ x ∈ before, failure x = none) ∧
      failure last = some e

/-- What is called on each of the providers in turn is called once on each. -/
def OnceEach (calls providers : List π) : Prop := calls = providers ∧ calls.Nodup

/-- The maps are those of the configured names that have a factory, and of the providers
that the factories came up with; each of these was initialized and none was closed. -/
structure Committed (config : MemoryServiceConfig) (hasFactory : String → Bool)
    (trace : Trace π ψ) (maps : Maps π ψ) : Prop where
  succeeds : FirstFailure trace none
  factories : trace.filterMap factory? = config.providerConfigs.filter hasFactory
  initialized : OnceEach (trace.filterMap start?) (obtained trace)
  closed : trace.filterMap close? = []
  providers : maps.providers =
    (config.providerConfigs.filter hasFactory).zip (obtained trace)
  pipelines : maps.pipelines = (config.providerConfigs.filter hasFactory).zip
    ((registrations trace).map Registration.pipeline)
  names : maps.providers.map Prod.fst = config.providerConfigs.filter hasFactory
  default_mem : config.defaultProvider ∈ maps.providers.map Prod.fst

/-- After the first failing call, or the check of the default provider when none failed,
the providers that the factories came up with were closed, and nothing else was called. -/
structure RolledBack (config : MemoryServiceConfig) (hasFactory : String → Bool)
    (trace : Trace π ψ) (e : PyError) : Prop where
  first : ∃ steps closes : Trace π ψ, trace = steps ++ closes ∧
    (∀ x ∈ steps, close? x = none) ∧ (∀ x ∈ closes, (close? x).isSome) ∧
    (FirstFailure steps (some e) ∨
      FirstFailure steps none ∧ hasFactory config.defaultProvider = false ∧
        e = config.missingDefault)
  closed : OnceEach (trace.filterMap close?) (obtained trace)

theorem FirstFailure.append {before trace : Trace π ψ} {error : Option PyError}
    (hbefore : FirstFailure before none) (h : FirstFailure trace error) :
    FirstFailure (before ++ trace) error := by
  have hall {trace : Trace π ψ} (h : ∀ x ∈ trace, failure x = none) :
      ∀ x ∈ before ++ trace, failure x = none := fun x hx =>
    (List.mem_append.mp hx).elim (hbefore x) (h x)
  cases error with
  | none => exact hall h
  | some e =>
    obtain ⟨init, last, rfl, hinit, hlast⟩ := h
    exact ⟨before ++ init, last, (List.append_assoc _ _ _).symm, hall hinit, hlast⟩

theorem firstFailure_singleton (x : Sigma (Answer π ψ)) : FirstFailure [x] (failure x) := by
  cases hx : failure x with
  | none =>
    intro y hy
    rwa [List.mem_singleton.mp hy]
  | some e => exact ⟨[], x, rfl, nofun, hx⟩

/-- What a way to get a registration calls: the factory, and nothing of a provider. -/
structure Resolution (name : String) (trace : Trace π ψ)
    (r : Except PyError (Registration π ψ)) : Prop where
  factories : trace.filterMap factory? = [name]
  started : trace.filterMap start? = []
  closed : trace.filterMap close? = []
  registrations : registrations trace = r.toOption.toList
  ends : FirstFailure trace (raised? r)

def Resolves (resolve : String → Calls π ψ (Except PyError (Registration π ψ))) : Prop :=
  ∀ name trace r, (resolve name).Runs trace r → Resolution name trace r

theorem resolves_callFactory : Resolves (callFactory (π := π) (ψ := ψ)) := by
  intro name trace r h
  obtain ⟨r, rest, rfl, hrest⟩ := CallTree.runs_calls_iff.mp h
  obtain ⟨rfl, rfl⟩ := CallTree.runs_ends_iff.mp hrest
  cases r with
  | error e => exact ⟨rfl, rfl, rfl, rfl, firstFailure_singleton _⟩
  | ok registration => exact ⟨rfl, rfl, rfl, rfl, firstFailure_singleton _⟩

theorem resolves_resolveAsyncRegistration :
    Resolves (resolveAsyncRegistration (π := π) (ψ := ψ)) := by
  intro name trace r h
  obtain ⟨answer, rest, rfl, hrest⟩ := CallTree.runs_calls_iff.mp h
  rcases answer with e | registration | ⟨⟩
  · obtain ⟨rfl, rfl⟩ := CallTree.runs_ends_iff.mp hrest
    exact ⟨rfl, rfl, rfl, rfl, firstFailure_singleton _⟩
  · obtain ⟨rfl, rfl⟩ := CallTree.runs_ends_iff.mp hrest
    exact ⟨rfl, rfl, rfl, rfl, firstFailure_singleton _⟩
  · -- the awaitable fails or comes up with the registration
    obtain ⟨answer, rest, rfl, hnext⟩ := CallTree.runs_calls_iff.mp hrest
    obtain ⟨rfl, rfl⟩ := CallTree.runs_ends_iff.mp hnext
    have hends : FirstFailure [(⟨.asyncFactory name, .ok .awaitable⟩ : Sigma (Answer π ψ)),
        ⟨.awaitFactory name, r⟩] (raised? r) := by
      have hfirst : FirstFailure [(⟨.asyncFactory name, .ok .awaitable⟩ : Sigma (Answer π ψ))]
          none := firstFailure_singleton _
      exact hfirst.append (firstFailure_singleton ⟨.awaitFactory name, r⟩)
    cases r with
    | error e => exact ⟨rfl, rfl, rfl, rfl, hends⟩
    | ok registration => exact ⟨rfl, rfl, rfl, rfl, hends⟩

structure Staging (hasFactory : String → Bool) (names : List String) (trace : Trace π ψ)
    (fresh : Staged π ψ) (error : Option PyError) : Prop where
  registrations : registrations trace = fresh.map Prod.snd
  closed : trace.filterMap close? = []
  ends : FirstFailure trace error
  complete : error = none → fresh.map Prod.fst = names.filter hasFactory ∧
    trace.filterMap factory? = names.filter hasFactory ∧
    trace.filterMap start? = fresh.map fun x => x.2.provider

theorem stage_runs {resolve : String → Calls π ψ (Except PyError (Registration π ψ))}
    (hresolve : Resolves resolve) {hasFactory : String → Bool} {names : List String}
    {staged staged' : Staged π ψ} {trace : Trace π ψ} {error : Option PyError}
    (h : (stage resolve hasFactory names staged).Runs trace (staged', error)) :
    ∃ fresh, staged' = staged ++ fresh ∧ Staging hasFactory names trace fresh error := by
  induction names generalizing staged trace with
  | nil =>
    obtain ⟨rfl, heq⟩ := CallTree.runs_ends_iff.mp h
    cases heq
    exact ⟨[], (List.append_nil _).symm, rfl, rfl, nofun, fun _ => ⟨rfl, rfl, rfl⟩⟩
  | cons name names ih =>
    unfold stage at h
    split at h
    · rename_i hname
      obtain ⟨before, after, r, rfl, hfirst, hrest⟩ := CallTree.runs_bind_iff.mp h
      have hr := hresolve name before r hfirst
      cases r with
      | error e =>
        obtain ⟨rfl, heq⟩ := CallTree.runs_ends_iff.mp hrest
        cases heq
        rw [List.append_nil]
        exact ⟨[], (List.append_nil _).symm, hr.registrations, hr.closed, hr.ends, nofun⟩
      | ok registration =>
        obtain ⟨answer, after, rfl, hnext⟩ := CallTree.runs_calls_iff.mp hrest
        -- the trace of this name, before that of the names after it
        have hregistrations : registrations
            (before ++ ⟨.initializeProvider registration.provider, answer⟩ :: after) =
              registration :: registrations after := by
          have hbefore : registrations before = [registration] := hr.registrations
          unfold registrations at hbefore ⊢
          rw [List.filterMap_append, hbefore, List.filterMap_cons_none rfl]
          rfl
        have hclosed : (before ++ ⟨.initializeProvider registration.provider, answer⟩ ::
            after).filterMap close? = after.filterMap close? := by
          rw [List.filterMap_append, hr.closed, List.filterMap_cons_none rfl, List.nil_append]
        rcases answer with e | ⟨⟩
        · obtain ⟨rfl, heq⟩ := CallTree.runs_ends_iff.mp hnext
          cases heq
          refine ⟨[(name, registration)], rfl, hregistrations, hclosed, ?_, nofun⟩
          exact FirstFailure.append hr.ends
            (firstFailure_singleton ⟨.initializeProvider registration.provider, .error e⟩)
        · obtain ⟨fresh, rfl, hfresh⟩ := ih hnext
          refine ⟨(name, registration) :: fresh, by simp, ?_, ?_, ?_, fun herror => ?_⟩
          · rw [hregistrations, hfresh.registrations, List.map_cons]
          · rw [hclosed, hfresh.closed]
          · have hfirst : FirstFailure [(⟨.initializeProvider registration.provider, .ok ()⟩ :
                Sigma (Answer π ψ))] none := firstFailure_singleton _
            exact FirstFailure.append hr.ends (hfirst.append hfresh.ends)
          · obtain ⟨hnames, hfactories, hstarted⟩ := hfresh.complete herror
            refine ⟨?_, ?_, ?_⟩
            · rw [List.map_cons, hnames, List.filter_cons_of_pos hname]
            · rw [List.filterMap_append, hr.factories, List.filterMap_cons_none rfl, hfactories,
                List.filter_cons_of_pos hname]
              rfl
            · rw [List.filterMap_append, hr.started, List.nil_append,
                List.filterMap_cons_some (f := start?) (b := registration.provider) rfl, hstarted,
                List.map_cons]
    · rename_i hname
      obtain ⟨fresh, hstaged, hfresh⟩ := ih h
      refine ⟨fresh, hstaged, hfresh.registrations, hfresh.closed, hfresh.ends, ?_⟩
      rw [List.filter_cons, if_neg hname]
      exact hfresh.complete

/-- What a cleanup calls, and that nothing escapes from it. -/
structure Cleanup (ps : List π) (trace : Trace π ψ) (escaped : Option PyError) : Prop where
  calls : ∀ x ∈ trace, (close? x).isSome
  closed : trace.filterMap close? = ps
  escaped : escaped = none

theorem Cleanup.cons {p : π} {ps : List π} {r : Answer π ψ (.closeProvider p)} {trace : Trace π ψ}
    {escaped : Option PyError} (h : Cleanup ps trace escaped) :
    Cleanup (p :: ps) (⟨.closeProvider p, r⟩ :: trace) escaped where
  calls x hx := by
    rcases List.mem_cons.mp hx with rfl | hx
    · rfl
    · exact h.calls x hx
  closed := by rw [List.filterMap_cons_some (f := close?) (b := p) rfl, h.closed]
  escaped := h.escaped

theorem cleanup_nil : Cleanup ([] : List π) ([] : Trace π ψ) none := ⟨nofun, rfl, rfl⟩

/-- Closes whatever of it raises an `Exception`, and lets nothing escape. -/
def Cleans (cleanup : List π → Calls π ψ (Option PyError)) : Prop :=
  ∀ ps trace escaped, (cleanup ps).Runs trace escaped → ClosesSafely trace →
    Cleanup ps trace escaped

theorem ClosesSafely.tail {x : Sigma (Answer π ψ)} {trace : Trace π ψ}
    (h : ClosesSafely (x :: trace)) : ClosesSafely trace :=
  fun y hy => h y (List.mem_cons_of_mem x hy)

theorem cleans_suppressCloses : Cleans (suppressCloses (π := π) (ψ := ψ)) := by
  intro ps trace escaped h hsafe
  induction ps generalizing trace with
  | nil =>
    obtain ⟨rfl, rfl⟩ := CallTree.runs_ends_iff.mp h
    exact cleanup_nil
  | cons p ps ih =>
    obtain ⟨r, rest, rfl, hrest⟩ := CallTree.runs_calls_iff.mp h
    rcases r with e | ⟨⟩
    · have he : e.isException = true := hsafe _ List.mem_cons_self rfl e rfl
      simp only [he, if_true] at hrest
      exact (ih rest hrest hsafe.tail).cons
    · exact (ih rest hrest hsafe.tail).cons

theorem cleans_gatherCloses : Cleans (gatherCloses (π := π) (ψ := ψ)) := by
  intro ps trace escaped h hsafe
  induction ps generalizing trace with
  | nil =>
    obtain ⟨rfl, rfl⟩ := CallTree.runs_ends_iff.mp h
    exact cleanup_nil
  | cons p ps ih =>
    obtain ⟨r, rest, rfl, hrest⟩ := CallTree.runs_calls_iff.mp h
    exact (ih rest hrest hsafe.tail).cons

/-- The call returns and the maps are replaced, or it raises and they stay as they are. -/
def AllOrNothing (config : MemoryServiceConfig) (hasFactory : String → Bool)
    (maps : Maps π ψ) (run : Trace π ψ × Maps π ψ × Outcome) : Prop :=
  run.2.2 = .returned ∧ Committed config hasFactory run.1 run.2.1 ∨
    ∃ e, run.2.2 = .raised e ∧ run.2.1 = maps ∧ RolledBack config hasFactory run.1 e

theorem mem_names_iff {config : MemoryServiceConfig} {hasFactory : String → Bool} :
    config.defaultProvider ∈ config.providerConfigs.filter hasFactory ↔
      hasFactory config.defaultProvider = true := by
  rw [List.mem_filter]
  exact and_iff_right config.default_mem

theorem registrations_append_closes {before closes : Trace π ψ}
    (hcloses : ∀ x ∈ closes, (close? x).isSome) :
    registrations (before ++ closes) = registrations before := by
  have hnone : closes.filterMap registration? = [] := by
    rw [List.filterMap_eq_nil_iff]
    rintro ⟨c, r⟩ hx
    have hclose := hcloses _ hx
    cases c with
    | closeProvider p => rfl
    | _ => cases hclose
  unfold registrations
  rw [List.filterMap_append, hnone, List.append_nil]

theorem committed_of_staging {config : MemoryServiceConfig} {hasFactory : String → Bool}
    {trace : Trace π ψ} {staged : Staged π ψ}
    (h : Staging hasFactory config.providerConfigs trace staged none)
    (hdefault : config.defaultProvider ∈ staged.map Prod.fst) (hdistinct : (obtained trace).Nodup) :
    Committed config hasFactory trace (stagedMaps staged) := by
  obtain ⟨hnames, hfactories, hstarted⟩ := h.complete rfl
  have hobtained : obtained trace = staged.map fun x => x.2.provider := by
    rw [obtained, h.registrations, List.map_map]
    rfl
  have hkeys : (stagedMaps staged).providers.map Prod.fst = staged.map Prod.fst := by
    rw [stagedMaps, List.map_map]
    rfl
  have hinitialized : trace.filterMap start? = obtained trace := hstarted.trans hobtained.symm
  refine ⟨h.ends, hfactories, ⟨hinitialized, hinitialized ▸ hdistinct⟩, h.closed, ?_, ?_, ?_, ?_⟩
  · rw [← hnames, hobtained, List.zip_map', stagedMaps]
  · rw [← hnames, h.registrations, List.map_map, List.zip_map', stagedMaps]
    rfl
  · rw [hkeys, hnames]
  · rwa [hkeys]

theorem rolledBack_of_cleanup {config : MemoryServiceConfig} {hasFactory : String → Bool}
    {before closes : Trace π ψ} {staged : Staged π ψ} {error escaped : Option PyError} {e : PyError}
    (h : Staging hasFactory config.providerConfigs before staged error)
    (hclean : Cleanup (stagedList staged) closes escaped)
    (hfirst : FirstFailure before (some e) ∨ FirstFailure before none ∧
      hasFactory config.defaultProvider = false ∧ e = config.missingDefault)
    (hdistinct : (obtained (before ++ closes)).Nodup) :
    RolledBack config hasFactory (before ++ closes) e := by
  have hclosed : (before ++ closes).filterMap close? = obtained (before ++ closes) := by
    rw [List.filterMap_append, h.closed, hclean.closed, obtained,
      registrations_append_closes hclean.calls, h.registrations, List.map_map]
    rfl
  refine ⟨⟨before, closes, rfl, ?_, hclean.calls, hfirst⟩, hclosed, hclosed ▸ hdistinct⟩
  exact List.filterMap_eq_nil_iff.mp h.closed

theorem initializeWith_runs {resolve : String → Calls π ψ (Except PyError (Registration π ψ))}
    {cleanup : List π → Calls π ψ (Option PyError)} (hresolve : Resolves resolve)
    (hcleanup : Cleans cleanup) {config : MemoryServiceConfig} {hasFactory : String → Bool}
    {maps maps' : Maps π ψ} {trace : Trace π ψ} {outcome : Outcome}
    (h : (initializeWith resolve cleanup config hasFactory maps).Runs trace (maps', outcome))
    (hdistinct : (obtained trace).Nodup) (hsafe : ClosesSafely trace) :
    AllOrNothing config hasFactory maps (trace, maps', outcome) := by
  obtain ⟨before, after, ⟨staged, error⟩, rfl, hstage, hrest⟩ := CallTree.runs_bind_iff.mp h
  obtain ⟨fresh, hfresh, hstaging⟩ := stage_runs hresolve hstage
  obtain rfl : staged = fresh := hfresh
  have hrollback {e : PyError} (hrun : ((cleanup (stagedList staged)).bind fun escaped =>
        .ends (maps, .raised (escaped.getD e))).Runs after (maps', outcome))
      (hfirst : FirstFailure before (some e) ∨ FirstFailure before none ∧
        hasFactory config.defaultProvider = false ∧ e = config.missingDefault) :
      AllOrNothing config hasFactory maps (before ++ after, maps', outcome) := by
    obtain ⟨closes, rest, escaped, rfl, hcloses, hends⟩ := CallTree.runs_bind_iff.mp hrun
    obtain ⟨rfl, heq⟩ := CallTree.runs_ends_iff.mp hends
    rw [List.append_nil] at hsafe hdistinct ⊢
    have hclean := hcleanup _ _ _ hcloses fun x hx => hsafe x (List.mem_append_right before hx)
    rw [hclean.escaped] at heq
    cases heq
    exact .inr ⟨e, rfl, rfl, rolledBack_of_cleanup hstaging hclean hfirst hdistinct⟩
  cases error with
  | some e => exact hrollback hrest (.inl hstaging.ends)
  | none =>
    by_cases hdefault : config.defaultProvider ∈ staged.map Prod.fst
    · simp only [missingDefaultError, if_pos hdefault] at hrest
      obtain ⟨rfl, heq⟩ := CallTree.runs_ends_iff.mp hrest
      cases heq
      rw [List.append_nil] at hdistinct ⊢
      exact .inl ⟨rfl, committed_of_staging hstaging hdefault hdistinct⟩
    · simp only [missingDefaultError, if_neg hdefault] at hrest
      refine hrollback hrest (.inr ⟨hstaging.ends, ?_, rfl⟩)
      rw [(hstaging.complete rfl).1, mem_names_iff] at hdefault
      simpa using hdefault

/-- Whatever the calls of the caller's code return or raise, `initialize` of either service
does all or nothing. -/
theorem initialize_all_or_nothing {config : MemoryServiceConfig} {hasFactory : String → Bool}
    {maps : Maps π ψ} {answer : Trace π ψ → (c : Call π) → Answer π ψ c}
    {run : Trace π ψ × Maps π ψ × Outcome}
    (hrun : run = (initializeService config hasFactory maps).perform answer [] ∨
      run = (initializeAsyncService config hasFactory maps).perform answer [])
    (hdistinct : (obtained run.1).Nodup) (hsafe : ClosesSafely run.1) :
    AllOrNothing config hasFactory maps run := by
  rcases hrun with rfl | rfl
  · exact initializeWith_runs resolves_callFactory cleans_suppressCloses
      (CallTree.runs_perform answer _ []) hdistinct hsafe
  · exact initializeWith_runs resolves_resolveAsyncRegistration cleans_gatherCloses
      (CallTree.runs_perform answer _ []) hdistinct hsafe

end

/-- The second of two providers is cancelled in its `initialize()`, and no `close()` works. -/
def cancelledAnswer : Trace ℕ ℕ → (c : Call ℕ) → Answer ℕ ℕ c
  | _, .factory name | _, .awaitFactory name => .ok ⟨if name = "a" then 1 else 2, 0⟩
  | _, .asyncFactory _ => .ok .awaitable
  | _, .initializeProvider p => if p = 2 then .error .cancelledError else .ok ()
  | _, .closeProvider _ => .error (.exception 7)

theorem initialize_all_or_nothing_cancelled :
    ∃ run : Trace ℕ ℕ × Maps ℕ ℕ × Outcome,
      run.2.2 = .raised .cancelledError ∧ obtained run.1 = [1, 2] ∧
      AllOrNothing ⟨["a", "b"], "a", by decide, by decide⟩ (fun _ => true) ⟨[], []⟩ run := by
  have hrun : (initializeAsyncService ⟨["a", "b"], "a", by decide, by decide⟩ (fun _ => true)
      ⟨[], []⟩).perform cancelledAnswer [] =
      ([⟨.asyncFactory "a", .ok .awaitable⟩, ⟨.awaitFactory "a", .ok ⟨1, 0⟩⟩,
          ⟨.initializeProvider 1, .ok ()⟩, ⟨.asyncFactory "b", .ok .awaitable⟩,
          ⟨.awaitFactory "b", .ok ⟨2, 0⟩⟩, ⟨.initializeProvider 2, .error .cancelledError⟩,
          ⟨.closeProvider 1, .error (.exception 7)⟩, ⟨.closeProvider 2, .error (.exception 7)⟩],
        ⟨[], []⟩, .raised .cancelledError) := rfl
  refine ⟨_, rfl, rfl, initialize_all_or_nothing (.inr hrun.symm) (by decide) ?_⟩
  intro x hx hclose e he
  have hx : x = ⟨.closeProvider 1, .error (.exception 7)⟩ ∨
      x = ⟨.closeProvider 2, .error (.exception 7)⟩ ∨ close? x = none := by
    simp only [List.mem_cons, List.not_mem_nil, or_false] at hx
    rcases hx with rfl | rfl | rfl | rfl | rfl | rfl | rfl | rfl <;> simp [close?]
  rcases hx with rfl | rfl | hnone
  · cases he
    rfl
  · cases he
    rfl
  · rw [hnone] at hclose
    cases hclose

section

open SyncService (World Provider ProviderRegistry MemoryService)

structure Logs (w w' : World) (trace : Trace Provider ℕ) : Prop where
  factoryCalls : w'.factoryCalls = w.factoryCalls ++ trace.filterMap factory?
  created : w'.created = w.created + (registrations trace).length
  closeCalls : w'.closeCalls = w.closeCalls ++ (trace.filterMap close?).map Provider.id

theorem Logs.append {w w' w'' : World} {before after : Trace Provider ℕ} (h : Logs w w' before)
    (h' : Logs w' w'' after) : Logs w w'' (before ++ after) where
  factoryCalls := by rw [h'.factoryCalls, h.factoryCalls, List.filterMap_append, List.append_assoc]
  created := by
    have hlength : (registrations (before ++ after)).length =
        (registrations before).length + (registrations after).length := by
      simp [registrations]
    rw [h'.created, h.created, hlength, Nat.add_assoc]
  closeCalls := by
    rw [h'.closeCalls, h.closeCalls, List.filterMap_append, List.map_append, List.append_assoc]

def ofStaged (staged : SyncService.Staged) : Staged Provider ℕ :=
  staged.map fun x => (x.1, ⟨x.2.provider, x.2.pipeline⟩)

section

variable {hasFactory : String → Bool} {name : String} {names : List String}
  {staged : Staged Provider ℕ} (registration : Registration Provider ℕ)

theorem stage_runs_error (hname : hasFactory name = true) (e : PyError) :
    (stage callFactory hasFactory (name :: names) staged).Runs
      [⟨.factory name, .ok registration⟩, ⟨.initializeProvider registration.provider, .error e⟩]
      (staged ++ [(name, registration)], some e) := by
  unfold stage
  rw [if_pos hname]
  exact .calls (.calls (.ends _))

theorem stage_runs_ok (hname : hasFactory name = true) {trace : Trace Provider ℕ}
    {run : Staged Provider ℕ × Option PyError}
    (h : (stage callFactory hasFactory names (staged ++ [(name, registration)])).Runs trace run) :
    (stage callFactory hasFactory (name :: names) staged).Runs
      (⟨.factory name, .ok registration⟩ ::
        ⟨.initializeProvider registration.provider, .ok ()⟩ :: trace) run := by
  unfold stage
  rw [if_pos hname]
  exact .calls (.calls h)

end

theorem stageProviders_runs (registry : ProviderRegistry) (names : List String)
    (staged : SyncService.Staged) (w : World) :
    ∃ trace, (stage callFactory (fun name => (registry name).isSome) names (ofStaged staged)).Runs
        trace (ofStaged (SyncService.stageProviders registry names staged w).1,
          (SyncService.stageProviders registry names staged w).2.2) ∧
      Logs w (SyncService.stageProviders registry names staged w).2.1 trace := by
  induction names generalizing staged w with
  | nil => exact ⟨[], .ends _, (List.append_nil _).symm, rfl, (List.append_nil _).symm⟩
  | cons name names ih =>
    unfold SyncService.stageProviders
    cases hname : registry name with
    | none =>
      unfold stage
      rw [hname]
      exact ih staged w
    | some factory =>
      have hsome : (registry name).isSome = true := by
        rw [hname]
        rfl
      cases factory with
      | raises e =>
        refine ⟨[⟨.factory name, .error e⟩], ?_, rfl, rfl, (List.append_nil _).symm⟩
        unfold stage
        rw [if_pos hsome]
        exact .calls (.ends _)
      | returns b =>
        have hstaged : ofStaged (staged ++ [(name, ⟨⟨w.created, b.onClose⟩, b.pipeline⟩)]) =
            ofStaged staged ++ [(name, ⟨⟨w.created, b.onClose⟩, b.pipeline⟩)] := by
          rw [ofStaged, List.map_append]
          rfl
        have hlogs (r : Except PyError Unit) : Logs w (w.construct name)
            [⟨.factory name, .ok ⟨⟨w.created, b.onClose⟩, b.pipeline⟩⟩,
              ⟨.initializeProvider ⟨w.created, b.onClose⟩, r⟩] :=
          ⟨rfl, rfl, (List.append_nil _).symm⟩
        dsimp only
        cases b.onInitialize with
        | some e =>
          refine ⟨_, ?_, hlogs (.error e)⟩
          dsimp only
          rw [hstaged]
          exact stage_runs_error _ hsome e
        | none =>
          obtain ⟨trace, hruns, htrace⟩ :=
            ih (staged ++ [(name, ⟨⟨w.created, b.onClose⟩, b.pipeline⟩)]) (w.construct name)
          refine ⟨_, ?_, (hlogs (.ok ())).append htrace⟩
          rw [hstaged] at hruns
          exact stage_runs_ok _ hsome hruns

theorem teardown_runs (ps : List Provider) (w : World) :
    ∃ trace, (suppressCloses ps : Calls Provider ℕ _).Runs trace (SyncService.teardown ps w).2 ∧
      Logs w (SyncService.teardown ps w).1 trace := by
  induction ps generalizing w with
  | nil => exact ⟨[], .ends _, (List.append_nil _).symm, rfl, (List.append_nil _).symm⟩
  | cons p ps ih =>
    have hlogs (r : Except PyError Unit) : Logs w (w.closeCall p) [⟨.closeProvider p, r⟩] :=
      ⟨(List.append_nil _).symm, rfl, rfl⟩
    obtain ⟨trace, hruns, htrace⟩ := ih (w.closeCall p)
    unfold suppressCloses SyncService.teardown
    cases p.onClose with
    | none =>
      exact ⟨⟨.closeProvider p, .ok ()⟩ :: trace, .calls hruns,
        (hlogs (.ok ())).append htrace⟩
    | some e =>
      cases he : e.isException with
      | true =>
        refine ⟨⟨.closeProvider p, .error e⟩ :: trace, .calls ?_, ?_⟩
        · simp only [he, if_true]
          exact hruns
        · simp only [he, if_true]
          exact (hlogs (.error e)).append htrace
      | false =>
        refine ⟨[⟨.closeProvider p, .error e⟩], .calls ?_, ?_⟩
        · simp only [he, Bool.false_eq_true, if_false]
          exact .ends _
        · simp only [he, Bool.false_eq_true, if_false]
          exact hlogs (.error e)

/-- The run of `MemoryService.initialize` in a world whose providers behave as told is one
of these runs, and the world has logged its calls. -/
theorem initializeProviders_runs (config : MemoryServiceConfig) (svc : MemoryService)
    (registry : ProviderRegistry) (w : World) :
    ∃ trace, (initializeService config (fun name => (registry name).isSome)
        ⟨svc.providers, svc.pipelines⟩).Runs trace
          (⟨(svc.initializeProviders config registry w).1.providers,
            (svc.initializeProviders config registry w).1.pipelines⟩,
          (svc.initializeProviders config registry w).2.2) ∧
      Logs w (svc.initializeProviders config registry w).2.1 trace := by
  obtain ⟨before, hbefore, hlogs⟩ := stageProviders_runs registry config.providerConfigs [] w
  unfold MemoryService.initializeProviders
  generalize SyncService.stageProviders registry config.providerConfigs [] w = run at hbefore hlogs ⊢
  obtain ⟨staged, w', error⟩ := run
  dsimp only at hbefore hlogs ⊢
  have hmissing : missingDefaultError config (ofStaged staged) =
      SyncService.missingDefaultError config staged := by
    rw [missingDefaultError, SyncService.missingDefaultError, ofStaged, List.map_map]
    rfl
  have hlist : stagedList (ofStaged staged) = SyncService.stagedList staged := by
    rw [stagedList, SyncService.stagedList, ofStaged, List.map_map]
    rfl
  rw [← hmissing]
  cases herror : error <|> missingDefaultError config (ofStaged staged) with
  | none =>
    refine ⟨before, CallTree.runs_bind_iff.mpr ⟨before, [], _, ?_, hbefore, ?_⟩, hlogs⟩
    · exact (List.append_nil before).symm
    · have hmaps : stagedMaps (ofStaged staged) =
          ⟨SyncService.stagedProviders staged, SyncService.stagedPipelines staged⟩ := by
        rw [stagedMaps, ofStaged, List.map_map, List.map_map]
        rfl
      simp only [herror, hmaps]
      exact .ends _
  | some e =>
    obtain ⟨closes, hcloses, hlogs'⟩ := teardown_runs (SyncService.stagedList staged) w'
    refine ⟨before ++ closes, CallTree.runs_bind_iff.mpr ⟨before, closes, _, rfl, hbefore, ?_⟩,
      hlogs.append hlogs'⟩
    simp only [herror, hlist]
    exact CallTree.runs_bind_iff.mpr ⟨closes, [], _, (List.append_nil _).symm, hcloses, .ends _⟩

end

end AtomicMemory.ServiceInitialize
