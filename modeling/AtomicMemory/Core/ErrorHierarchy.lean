import AtomicMemory.Core.Errors

-- The exception classes of the SDK and what `except` clauses make of an exception of any
-- class derived from them.

namespace AtomicMemory

/-- The classes that `except` clauses name, with every exception class of the SDK. -/
inductive ExceptionClass
  | baseException
  | exception
  | atomicMemoryError
  | configError
  | validationError
  | notInitializedError
  | providerError
  | pendingIngestError
  | networkError
  | unsupportedOperationError
  | invalidScopeError
  | rateLimitError
  | storageClientError
  | unsupportedCapabilityError
  | artifactNotFoundError
  | artifactInUseError
  | pointerContentNotManagedError
  | filecoinDirectStorageNotSupportedError
  | entitiesClientError
  | memoryToolError
  deriving DecidableEq

namespace ExceptionClass

def base : ExceptionClass → Option ExceptionClass
  | baseException => none
  | exception => some baseException
  | atomicMemoryError => some exception
  | configError | validationError | notInitializedError | providerError | networkError
  | storageClientError | entitiesClientError | memoryToolError => some atomicMemoryError
  | pendingIngestError | unsupportedOperationError | rateLimitError => some providerError
  | invalidScopeError => some validationError
  | unsupportedCapabilityError | artifactNotFoundError | artifactInUseError
  | pointerContentNotManagedError | filecoinDirectStorageNotSupportedError =>
    some storageClientError

/-- The first `n` classes above a class, with the class itself. -/
def ancestors : ℕ → ExceptionClass → List ExceptionClass
  | 0, c => [c]
  | n + 1, c => c :: (c.base.map (ancestors n)).getD []

/-- `issubclass(c, d)`: no chain of bases has more than four steps. -/
def isSubclass (c d : ExceptionClass) : Bool := d ∈ ancestors 4 c

theorem isSubclass_base {c d e : ExceptionClass} (hbase : d.base = some e)
    (h : c.isSubclass d = true) : c.isSubclass e = true := by
  revert h
  cases d <;> cases hbase <;> cases c <;> decide

theorem isSubclass_baseException (c : ExceptionClass) : c.isSubclass baseException = true := by
  cases c <;> rfl

end ExceptionClass

/-- An exception object. Its class may be one that somebody else has derived, from several
classes even: it is an instance of those and of all their bases. -/
structure PyException where
  id : ℕ
  isInstance : ExceptionClass → Bool
  base : ∀ c d, c.base = some d → isInstance c = true → isInstance d = true
  baseException : isInstance .baseException = true

namespace PyException

def ofClass (id : ℕ) (c : ExceptionClass) : PyException where
  id := id
  isInstance := c.isSubclass
  base _ _ := ExceptionClass.isSubclass_base
  baseException := c.isSubclass_baseException

theorem isInstance_of_isSubclass (e : PyException) {c d : ExceptionClass}
    (hsub : c.isSubclass d = true) (h : e.isInstance c = true) : e.isInstance d = true := by
  have hancestors (n : ℕ) (c : ExceptionClass) (h : e.isInstance c = true) :
      ∀ d ∈ ExceptionClass.ancestors n c, e.isInstance d = true := by
    induction n generalizing c with
    | zero =>
      intro d hd
      rwa [List.mem_singleton.mp hd]
    | succ n ih =>
      intro d hd
      rcases List.mem_cons.mp hd with rfl | hd
      · exact h
      · cases hbase : c.base with
        | none =>
          rw [hbase] at hd
          cases hd
        | some b =>
          rw [hbase] at hd
          exact ih b (e.base c b hbase h) d hd
  exact hancestors 4 c h d (of_decide_eq_true hsub)

end PyException

/-- The class of an exception the modelled code can meet. What is not of the SDK is an
`Exception` of some class, which the SDK does not name, or a `BaseException` only. -/
def PyError.exceptionClass : PyError → ExceptionClass
  | configError _ => .configError
  | networkError => .networkError
  | rateLimitError => .rateLimitError
  | pendingIngestError => .pendingIngestError
  | providerError _ | missingClient | providerRefusal _ | operationError _ => .providerError
  | notInitializedError => .notInitializedError
  | invalidScopeError _ _ => .invalidScopeError
  | memoryToolError _ => .memoryToolError
  | valueError _ | wireKeys _ _ _ | validationError _ | typeError | attributeError | keyError _
  | zeroDivisionError | overflowError | exception _ => .exception
  | cancelledError | baseException _ => .baseException

theorem PyError.isException_eq (e : PyError) :
    e.isException = e.exceptionClass.isSubclass .exception := by
  cases e <;> rfl

end AtomicMemory
