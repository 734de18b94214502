import AtomicMemory.Core.ErrorHierarchy
import AtomicMemory.Providers.AtomicMemoryProvider
import AtomicMemory.Providers.HindsightProvider
import AtomicMemory.Providers.Mem0Provider

-- What the caller of an operation gets when its hook raises, and what becomes of a request
-- that never reached the backend.

open PyValue hiding none

namespace AtomicMemory

/-- What the caller of `_run_operation` gets for an exception of the hook. -/
inductive Raised
  /-- An exception object that somebody else made. -/
  | object (e : PyException)
  /-- A new `ProviderError`, raised from an exception. -/
  | wrapped (message provider operation : String) (cause : PyException)

def PyException.IsPassed (e : PyException) : Prop :=
  e.isInstance .providerError = true ∨ e.isInstance .validationError = true ∨
    e.isInstance .notInitializedError = true

instance (e : PyException) : Decidable e.IsPassed := inferInstanceAs (Decidable (_ ∨ _))

/-- The `except` clauses of `_run_operation`, which are the same in both base classes. `str` is
Python's, which calls a method of the exception: it may raise in its turn. -/
def exceptClauses (str : PyException → Except PyException String) (provider operation : String)
    (e : PyException) : Raised :=
  if e.IsPassed then .object e
  else if e.isInstance .exception then
    match str e with
    | .ok message => .wrapped message provider operation e
    | .error raised => .object raised
  else .object e

/-- The SDK's own errors reach the caller as they are, other exceptions as the cause of a
`ProviderError`. -/
structure Transparent (str : PyException → Except PyException String)
    (provider operation : String) (e : PyException) : Prop where
  sdkError : e.isInstance .atomicMemoryError = true →
    exceptClauses str provider operation e = .object e
  otherException : e.isInstance .atomicMemoryError = false → e.isInstance .exception = true →
    ∃ message, exceptClauses str provider operation e = .wrapped message provider operation e
  baseException : e.isInstance .exception = false →
    exceptClauses str provider operation e = .object e

theorem PyException.IsPassed.atomicMemoryError {e : PyException} (h : e.IsPassed) :
    e.isInstance .atomicMemoryError = true := by
  rcases h with h | h | h
  · exact e.isInstance_of_isSubclass rfl h
  · exact e.isInstance_of_isSubclass rfl h
  · exact e.isInstance_of_isSubclass rfl h

section

variable {str : PyException → Except PyException String} {provider operation : String}
  {e : PyException}

theorem exceptClauses_passed (h : e.IsPassed) :
    exceptClauses str provider operation e = .object e := if_pos h

theorem exceptClauses_exception (h : ¬e.IsPassed) (hexception : e.isInstance .exception = true) :
    exceptClauses str provider operation e =
      match str e with
      | .ok message => .wrapped message provider operation e
      | .error raised => .object raised := by
  rw [exceptClauses, if_neg h, if_pos hexception]

theorem exceptClauses_baseException (hexception : e.isInstance .exception = false) :
    exceptClauses str provider operation e = .object e := by
  rw [exceptClauses]
  split
  · rfl
  · rw [hexception]
    rfl

end

/-- An SDK error has to be of a class that is passed through, unless its own text raises it
again; another exception has to have a text. -/
theorem transparent_iff (str : PyException → Except PyException String)
    (provider operation : String) (e : PyException) :
    Transparent str provider operation e ↔
      (e.isInstance .atomicMemoryError = true → e.IsPassed ∨ str e = .error e) ∧
        (e.isInstance .atomicMemoryError = false → e.isInstance .exception = true →
          ∃ message, str e = .ok message) := by
  constructor
  · intro htransparent
    refine ⟨fun hsdk => ?_, fun hsdk hexception => ?_⟩
    · -- an SDK error that no clause passes on reaches the clause that formats it
      by_cases hpassed : e.IsPassed
      · exact .inl hpassed
      have hexception : e.isInstance .exception = true := e.isInstance_of_isSubclass rfl hsdk
      have hobject := htransparent.sdkError hsdk
      rw [exceptClauses_exception hpassed hexception] at hobject
      split at hobject
      · cases hobject
      · rename_i raised hraised
        rw [Raised.object.inj hobject] at hraised
        exact .inr hraised
    · have hpassed : ¬e.IsPassed := fun h =>
        Bool.noConfusion (hsdk.symm.trans h.atomicMemoryError)
      obtain ⟨message, hwrapped⟩ := htransparent.otherException hsdk hexception
      rw [exceptClauses_exception hpassed hexception] at hwrapped
      split at hwrapped
      · exact ⟨_, ‹_›⟩
      · cases hwrapped
  · rintro ⟨hsdkError, hother⟩
    refine ⟨fun hsdk => ?_, fun hsdk hexception => ?_, exceptClauses_baseException⟩
    · by_cases hpassed : e.IsPassed
      · exact exceptClauses_passed hpassed
      have hexception : e.isInstance .exception = true := e.isInstance_of_isSubclass rfl hsdk
      rw [exceptClauses_exception hpassed hexception, (hsdkError hsdk).resolve_left hpassed]
    · have hpassed : ¬e.IsPassed := fun h =>
        Bool.noConfusion (hsdk.symm.trans h.atomicMemoryError)
      obtain ⟨message, hmessage⟩ := hother hsdk hexception
      rw [exceptClauses_exception hpassed hexception, hmessage]
      exact ⟨message, rfl⟩

/-- `normalizeError` is those clauses, on the exceptions the modelled code can meet. -/
theorem normalizeError_eq (str : PyException → String) (provider operation : String) (id : ℕ)
    (e : PyError) :
    normalizeError operation e =
      match exceptClauses (fun e => .ok (str e)) provider operation
        (.ofClass id e.exceptionClass) with
      | .object _ => e
      | .wrapped _ _ _ _ => .operationError operation := by
  cases e <;> rfl

def HttpOutcome.IsTransportFailure : HttpOutcome → Prop
  | .timeout | .requestError => True
  | .response _ _ => False

/-- A call of the method ends in this error when its request does not reach the backend. -/
def FailsWith {α : Type} (e : PyError) (method : Except PyError (Call α)) : Prop :=
  ∀ call, method = .ok call → ∀ outcome : HttpOutcome, outcome.IsTransportFailure →
    call.receive outcome = .error e

theorem failsWith_error {α : Type} (e raised : PyError) :
    FailsWith e (.error raised : Except PyError (Call α)) := nofun

theorem failsWith_ok {α : Type} {e : PyError} {call : Call α}
    (htimeout : call.receive .timeout = .error e)
    (hrequest : call.receive .requestError = .error e) :
    FailsWith e (.ok call : Except PyError (Call α)) := by
  intro _ hcall outcome houtcome
  cases hcall
  cases outcome with
  | timeout => exact htimeout
  | requestError => exact hrequest
  | response status body => exact houtcome.elim

theorem failsWith_bind {α β : Type} {e : PyError} {x : Except PyError β}
    {f : β → Except PyError (Call α)} (h : ∀ b, FailsWith e (f b)) : FailsWith e (x >>= f) := by
  intro call hcall
  obtain ⟨b, -, hcall⟩ := Except.bind_ok hcall
  exact h b call hcall

/-- `NetworkError` is none of the classes that `_run_operation` passes through. -/
theorem failsWith_runOperation {α : Type} {initialized : Bool} {required : List String}
    {operation : String} {scope : Scope String} {method : Except PyError (Call α)}
    (h : FailsWith .networkError method) :
    FailsWith (.operationError operation)
      (runOperation initialized required operation scope method) := by
  unfold runOperation
  split
  · exact failsWith_error _ _
  split
  · exact failsWith_error _ _
  cases method with
  | error raised => exact failsWith_error _ _
  | ok inner =>
    intro _ hcall outcome houtcome
    cases hcall
    show (inner.receive outcome).mapError (normalizeError operation) = _
    rw [h inner rfl outcome houtcome]
    rfl

structure CoreMethods (α : Type) where
  ingest : IngestInput → Except PyError (Call IngestResult)
  search : SearchRequest → Except PyError (Call (SearchResultPage α))
  get : MemoryRef → Except PyError (Call (Option (Memory α)))
  delete : MemoryRef → Except PyError (Call Unit)
  list : ListRequest → Except PyError (Call (ListResultPage α))

structure CoreMethods.FailWith {α : Type} (methods : CoreMethods α) (e : String → PyError) :
    Prop where
  ingest : ∀ input, FailsWith (e "ingest") (methods.ingest input)
  search : ∀ request, FailsWith (e "search") (methods.search request)
  get : ∀ ref, FailsWith (e "get") (methods.get ref)
  delete : ∀ ref, FailsWith (e "delete") (methods.delete ref)
  list : ∀ request, FailsWith (e "list") (methods.list request)

def AtomicMemoryProvider.Provider.methods (p : AtomicMemoryProvider.Provider) (python : Python)
    (py : Pydantic) : CoreMethods PyValue :=
  ⟨p.ingest, p.search python py, p.getMemory python, p.delete, p.list python⟩

def Mem0Provider.Provider.methods (p : Mem0Provider.Provider)
    (float : PyValue → Except PyError ℚ) (python : Python) (py : Pydantic)
    (config : Mem0Provider.Config) : CoreMethods String :=
  ⟨p.ingest python config, p.search float python py config, p.get python, p.delete, p.list python⟩

def HindsightProvider.Provider.methods (p : HindsightProvider.Provider) (python : Python)
    (py : Pydantic) (bool : PyValue → Option Bool) (config : HindsightProvider.Config) :
    CoreMethods String :=
  ⟨p.ingest py bool, p.search python py config, p.get python, p.delete, p.list python⟩

theorem AtomicMemoryProvider.Provider.failWith (p : AtomicMemoryProvider.Provider)
    (python : Python) (py : Pydantic) : (p.methods python py).FailWith .operationError where
  ingest _ := failsWith_runOperation (failsWith_bind fun _ => failsWith_ok rfl rfl)
  search _ := failsWith_runOperation (failsWith_bind fun _ => failsWith_ok rfl rfl)
  get _ := failsWith_runOperation (failsWith_bind fun _ => failsWith_ok rfl rfl)
  delete _ := failsWith_runOperation (failsWith_bind fun _ => failsWith_ok rfl rfl)
  list _ := failsWith_runOperation
    (failsWith_bind fun _ => failsWith_bind fun _ => failsWith_ok rfl rfl)

theorem Mem0Provider.Provider.failWith (p : Mem0Provider.Provider)
    (float : PyValue → Except PyError ℚ) (python : Python) (py : Pydantic)
    (config : Mem0Provider.Config) :
    (p.methods float python py config).FailWith .operationError where
  ingest input := by
    refine failsWith_runOperation ?_
    unfold Mem0Provider.Provider.doIngest
    split
    · exact failsWith_error _ _
    · exact failsWith_bind fun _ => failsWith_ok rfl rfl
  search _ := failsWith_runOperation (failsWith_bind fun _ => failsWith_ok rfl rfl)
  get _ := failsWith_runOperation (failsWith_bind fun _ => failsWith_ok rfl rfl)
  delete _ := failsWith_runOperation (failsWith_bind fun _ => failsWith_ok rfl rfl)
  list _ := failsWith_runOperation (failsWith_bind fun _ => failsWith_bind fun _ =>
    failsWith_bind fun _ => failsWith_ok rfl rfl)

theorem HindsightProvider.Provider.failWith (p : HindsightProvider.Provider) (python : Python)
    (py : Pydantic) (bool : PyValue → Option Bool) (config : HindsightProvider.Config) :
    (p.methods python py bool config).FailWith .operationError where
  ingest input := by
    refine failsWith_runOperation ?_
    unfold HindsightProvider.Provider.doIngest
    split
    · exact failsWith_error _ _
    · exact failsWith_bind fun _ => failsWith_ok rfl rfl
  search _ := failsWith_runOperation (failsWith_bind fun _ => failsWith_ok rfl rfl)
  get _ := failsWith_runOperation (failsWith_bind fun _ => failsWith_ok rfl rfl)
  delete _ := failsWith_runOperation (failsWith_bind fun _ => failsWith_ok rfl rfl)
  list _ := failsWith_runOperation
    (failsWith_bind fun _ => failsWith_bind fun _ => failsWith_ok rfl rfl)

/-- An exception is passed through as it should unless it is an SDK error outside the three
classes. A transport failure is always one of those: no provider's methods let it through. -/
theorem errors_transparent_iff (str : PyException → Except PyException String)
    (provider operation : String) (e : PyException) (python : Python) (py : Pydantic) :
    (Transparent str provider operation e ↔
      (e.isInstance .atomicMemoryError = true → e.IsPassed ∨ str e = .error e) ∧
        (e.isInstance .atomicMemoryError = false → e.isInstance .exception = true →
          ∃ message, str e = .ok message)) ∧
    (∀ p : AtomicMemoryProvider.Provider, (p.methods python py).FailWith .operationError) ∧
    (∀ (p : Mem0Provider.Provider) (float : PyValue → Except PyError ℚ)
      (config : Mem0Provider.Config),
      (p.methods float python py config).FailWith .operationError) ∧
    (∀ (p : HindsightProvider.Provider) (bool : PyValue → Option Bool)
      (config : HindsightProvider.Config),
      (p.methods python py bool config).FailWith .operationError) :=
  ⟨transparent_iff str provider operation e, fun p => p.failWith python py,
    fun p float config => p.failWith float python py config,
    fun p bool config => p.failWith python py bool config⟩

/-- A `NetworkError` comes out as the cause of a `ProviderError`, and so does the timeout of a
search. -/
theorem networkError_not_transparent :
    ¬Transparent (fun _ => .ok "Timeout after 30.0s") "atomicmemory" "search"
      (.ofClass 0 .networkError) ∧
    ∃ call, AtomicMemoryProvider.Provider.search ⟨[], true, none⟩ Python.reference
        Pydantic.reference ⟨"q", ⟨some "u", none, none, none⟩, none, none⟩ = .ok call ∧
      call.receive .timeout = .error (.operationError "search") ∧
      (PyError.operationError "search").exceptionClass.isSubclass .networkError = false := by
  refine ⟨fun h => ?_, _, rfl, rfl, rfl⟩
  cases h.sdkError rfl

end AtomicMemory
