import AtomicMemory.Core.Python
import AtomicMemory.Memory.Types

-- The transport helpers that the three providers share in shape, and `_run_operation`
-- around them.

open PyValue hiding none

namespace AtomicMemory

structure HttpRequest where
  method : String
  /-- What is appended to the API's base URL. -/
  path : List Char
  json : Option Items

/-- What `client.request` met; a body that is no JSON is `none`. -/
inductive HttpOutcome
  | timeout
  | requestError
  | response (status : ℕ) (body : Option PyValue)

def raiseForStatus (status : ℕ) : Except PyError Unit :=
  if status = 429 then .error .rateLimitError
  else if 200 ≤ status ∧ status ≤ 299 then .ok ()
  else .error (.providerError status)

/-- `response.json()`. -/
def jsonBody : Option PyValue → Except PyError PyValue
  | some v => .ok v
  | none => .error (.valueError "the response is not JSON")

def fetchJson : HttpOutcome → Except PyError PyValue
  | .timeout | .requestError => .error .networkError
  | .response status body => do
    raiseForStatus status
    jsonBody body

/-- `fetch_json` with `require_completed=True`. -/
def fetchJsonCompleted : HttpOutcome → Except PyError PyValue
  | .timeout | .requestError => .error .networkError
  | .response status body => do
    raiseForStatus status
    if status = 202 then .error .pendingIngestError else jsonBody body

/-- The result is Python's `None` for a 404 and for a body that is `null`. -/
def fetchJsonOrNone : HttpOutcome → Except PyError PyValue
  | .timeout | .requestError => .error .networkError
  | .response status body =>
    if status = 404 then .ok .none
    else do
      raiseForStatus status
      jsonBody body

def deleteIgnore404 : HttpOutcome → Except PyError Unit
  | .timeout | .requestError => .error .networkError
  | .response status _ => if status = 404 then .ok () else raiseForStatus status

/-- An operation that makes one request: the request, and what the code does with its
outcome. A method that makes one is an `Except PyError (Call α)`: it may raise before it
sends anything. -/
structure Call (α : Type) where
  request : HttpRequest
  receive : HttpOutcome → Except PyError α

def Call.map {α β : Type} (call : Call α) (f : α → β) : Call β :=
  ⟨call.request, fun outcome => (call.receive outcome).map f⟩

@[simp] theorem Call.map_request {α β : Type} (call : Call α) (f : α → β) :
    (call.map f).request = call.request := rfl

theorem fetchJson_ok {outcome : HttpOutcome} {v : PyValue} (h : fetchJson outcome = .ok v) :
    ∃ status, outcome = .response status (some v) := by
  cases outcome with
  | timeout => cases h
  | requestError => cases h
  | response status body =>
    obtain ⟨_, -, h⟩ := Except.bind_ok h
    cases body with
    | none => cases h
    | some w => exact ⟨status, by rw [Except.ok.inj h]⟩

/-- `_require_client`. -/
def requireClient (initialized : Bool) : Except PyError Unit :=
  if initialized then .ok () else .error .missingClient

/-- `int(request.cursor) if request.cursor else 0`. -/
def startOffset (python : Python) : Option String → Except PyError ℤ
  | some cursor => if cursor = "" then .ok 0 else python.parseInt cursor
  | none => .ok 0

/-- The cursor after `count` more records. -/
def nextCursor (offset limit : ℤ) (count : ℕ) : Option String :=
  if (count : ℤ) = limit then some (toString (offset + count)) else none

def Scope.label (s : Scope String) (name : String) : Option String :=
  if name = "user" then s.user
  else if name = "agent" then s.agent
  else if name = "namespace" then s.nameSpace
  else if name = "thread" then s.thread
  else none

def missingScopeFields (scope : Scope String) (required : List String) : List String :=
  required.filter fun name => (scope.label name).getD "" = ""

/-- The `except` clauses of `_run_operation`. -/
def normalizeError (operation : String) (e : PyError) : PyError :=
  match e with
  | .providerError _ | .rateLimitError | .pendingIngestError | .missingClient
  | .providerRefusal _ | .operationError _ | .notInitializedError | .invalidScopeError _ _ => e
  | e => if e.isException then .operationError operation else e

def runOperation {α : Type} (initialized : Bool) (required : List String) (operation : String)
    (scope : Scope String) (method : Except PyError (Call α)) :
    Except PyError (Call α) :=
  if initialized = false then .error .notInitializedError
  else if missingScopeFields scope required ≠ [] then
    .error (.invalidScopeError (missingScopeFields scope required) operation)
  else
    match method with
    | .error e => .error (normalizeError operation e)
    | .ok call => .ok ⟨call.request, fun outcome =>
        (call.receive outcome).mapError (normalizeError operation)⟩

theorem runOperation_ready {α : Type} {required : List String} {operation : String}
    {scope : Scope String} (hscope : missingScopeFields scope required = []) (inner : Call α) :
    ∃ call, runOperation true required operation scope (.ok inner) = .ok call ∧
      call.request = inner.request ∧
      ∀ outcome a, inner.receive outcome = .ok a → call.receive outcome = .ok a := by
  refine ⟨⟨inner.request, fun outcome =>
    (inner.receive outcome).mapError (normalizeError operation)⟩, ?_, rfl, ?_⟩
  · rw [runOperation, if_neg Bool.noConfusion, if_neg (not_not.mpr hscope)]
  · intro outcome a h
    show (inner.receive outcome).mapError _ = _
    rw [h]
    rfl

/-- An operation that sends a request is the method's, and it returns what the method
returns. -/
theorem runOperation_ok {α : Type} {initialized : Bool} {required : List String}
    {operation : String} {scope : Scope String} {method : Except PyError (Call α)} {call : Call α}
    (h : runOperation initialized required operation scope method = .ok call) :
    ∃ inner, method = .ok inner ∧ call.request = inner.request ∧
      missingScopeFields scope required = [] ∧
      ∀ outcome a, call.receive outcome = .ok a ↔ inner.receive outcome = .ok a := by
  unfold runOperation at h
  split at h
  · cases h
  split at h
  · cases h
  · rename_i hscope
    cases method with
    | error e => cases h
    | ok inner =>
      cases h
      refine ⟨inner, rfl, rfl, not_not.mp hscope, fun outcome a => ?_⟩
      show (inner.receive outcome).mapError _ = .ok a ↔ _
      cases inner.receive outcome with
      | error e => exact ⟨nofun, nofun⟩
      | ok b => rfl

end AtomicMemory
