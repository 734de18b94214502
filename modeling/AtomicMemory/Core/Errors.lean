import Mathlib.Data.List.Basic

namespace AtomicMemory

/-- The exceptions the modelled code can meet. A number stands for the identity
of an exception object made outside the SDK. -/
inductive PyError
  | configError (message : String)
  | valueError (message : String)
  /-- `_require_wire_keys`, whose message lists the unknown and the allowed keys. -/
  | wireKeys (typeName : String) (unknown allowed : List String)
  /-- Pydantic's `ValidationError` of a model. -/
  | validationError (model : String)
  | typeError
  | attributeError
  | keyError (key : String)
  | zeroDivisionError
  | overflowError
  /-- The SDK's errors for a failed request. -/
  | networkError
  | rateLimitError
  | providerError (status : ℕ)
  | pendingIngestError
  /-- A `ProviderError` of a provider method called before its `initialize()`. -/
  | missingClient
  /-- A `ProviderError` that a provider makes of its own accord. -/
  | providerRefusal (message : String)
  | notInitializedError
  | invalidScopeError (missing : List String) (operation : String)
  /-- The `ProviderError` that `_run_operation` makes of another exception. -/
  | operationError (operation : String)
  | memoryToolError (message : String)
  | exception (id : ℕ)
  | cancelledError
  | baseException (id : ℕ)
  deriving DecidableEq, Repr

/-- `isinstance(e, Exception)`: `asyncio.CancelledError` is a `BaseException` only. -/
def PyError.isException : PyError → Bool
  | cancelledError | baseException _ => false
  | _ => true

inductive Outcome
  | returned
  | raised (e : PyError)
  deriving DecidableEq, Repr

end AtomicMemory
