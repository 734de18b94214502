import AtomicMemory.Providers.AtomicMemoryProvider

-- `_run_operation` asks for an initialized provider and for the scope fields that the
-- capabilities demand before anything is sent. The extensions of `AtomicMemoryProvider` go
-- to the backend without it.

open Calendar
open PyValue hiding none

namespace AtomicMemory

structure CapabilitiesRequiredScope where
  default : List String
  ingest : Option (List String) := none
  search : Option (List String) := none
  get : Option (List String) := none
  delete : Option (List String) := none
  list_ : Option (List String) := none
  update : Option (List String) := none
  package : Option (List String) := none
  temporal : Option (List String) := none
  graph : Option (List String) := none
  forget : Option (List String) := none
  profile : Option (List String) := none
  reflect : Option (List String) := none
  versioning : Option (List String) := none
  batch : Option (List String) := none

/-- `getattr(required_scope, field, None)`. -/
def CapabilitiesRequiredScope.attribute (r : CapabilitiesRequiredScope) :
    String → Option (List String)
  | "default" => some r.default
  | "ingest" => r.ingest
  | "search" => r.search
  | "get" => r.get
  | "delete" => r.delete
  | "list_" => r.list_
  | "update" => r.update
  | "package" => r.package
  | "temporal" => r.temporal
  | "graph" => r.graph
  | "forget" => r.forget
  | "profile" => r.profile
  | "reflect" => r.reflect
  | "versioning" => r.versioning
  | "batch" => r.batch
  | _ => none

/-- `_OPERATION_FIELD_OVERRIDES.get(operation, operation)`. -/
def operationField (operation : String) : String :=
  if operation = "list" then "list_" else operation

/-- `_required_for`. -/
def requiredFor (r : CapabilitiesRequiredScope) (operation : String) : List String :=
  (r.attribute (operationField operation)).getD r.default

theorem runOperation_notInitialized {α : Type} (required : List String) (operation : String)
    (scope : Scope String) (method : Except PyError (Call α)) :
    runOperation false required operation scope method = .error .notInitializedError := by
  unfold runOperation
  rw [if_pos rfl]

theorem runOperation_invalidScope {α : Type} {required : List String} {scope : Scope String}
    (h : missingScopeFields scope required ≠ []) (operation : String)
    (method : Except PyError (Call α)) :
    runOperation true required operation scope method =
      .error (.invalidScopeError (missingScopeFields scope required) operation) := by
  unfold runOperation
  rw [if_neg Bool.noConfusion, if_pos h]

def sent {α : Type} (method : Except PyError (Call α)) : Except PyError HttpRequest :=
  method.map Call.request

namespace AtomicMemoryProvider

/-- `capabilities().required_scope`. -/
def capabilitiesRequiredScope : CapabilitiesRequiredScope := { default := requiredScope }

/-- The operations of the provider that reach the backend on behalf of a scope. -/
inductive Operation
  | ingest (input : IngestInput)
  | search (request : SearchRequest)
  | get (ref : MemoryRef)
  | delete (ref : MemoryRef)
  | list (request : ListRequest)
  | package (request : PackageRequest)
  | searchAsOf (request : SearchRequest) (asOf : DateTime)
  | history (ref : MemoryRef)

namespace Operation

def scope : Operation → Scope String
  | ingest input => input.scope
  | search request => request.scope
  | get ref => ref.scope
  | delete ref => ref.scope
  | list request => request.scope
  | package request => request.scope
  | searchAsOf request _ => request.scope
  | history ref => ref.scope

def name : Operation → String
  | ingest _ => "ingest"
  | search _ => "search"
  | get _ => "get"
  | delete _ => "delete"
  | list _ => "list"
  | package _ => "package"
  | searchAsOf _ _ => "temporal"
  | history _ => "versioning"

def isCore : Operation → Bool
  | package _ | searchAsOf _ _ | history _ => false
  | _ => true

def missing (op : Operation) : List String :=
  missingScopeFields op.scope (requiredFor capabilitiesRequiredScope op.name)

end Operation

theorem requiredFor_name (op : Operation) :
    requiredFor capabilitiesRequiredScope op.name = requiredScope := by
  cases op <;> rfl

section

variable (p : Provider) (python : Python) (py : Pydantic)

def Provider.send : Operation → Except PyError HttpRequest
  | .ingest input => sent (p.ingest input)
  | .search request => sent (p.search python py request)
  | .get ref => sent (p.getMemory python ref)
  | .delete ref => sent (p.delete ref)
  | .list request => sent (p.list python request)
  | .package request => sent (p.package python py request)
  | .searchAsOf request asOf => sent (p.searchAsOf python py request asOf)
  | .history ref => sent (p.history python ref)

/-- Nothing is sent for a provider that is not initialized or for a scope that lacks a
required field, and the error says which it was. -/
structure Gated (op : Operation) : Prop where
  notInitialized : p.initialized = false → p.send python py op = .error .notInitializedError
  invalidScope : p.initialized = true → op.missing ≠ [] →
    ∃ operation, p.send python py op = .error (.invalidScopeError op.missing operation)

/-- `_run_operation` is the gate, whatever the method. -/
theorem gated_of_runOperation {α : Type} {op : Operation}
    {method : Except PyError (Call α)}
    (h : p.send python py op =
      sent (runOperation p.initialized requiredScope op.name op.scope method)) :
    Gated p python py op := by
  constructor
  · intro hinit
    rw [h, hinit, runOperation_notInitialized]
    rfl
  · intro hinit hmissing
    refine ⟨op.name, ?_⟩
    rw [Operation.missing, requiredFor_name] at hmissing ⊢
    rw [h, hinit, runOperation_invalidScope hmissing]
    rfl

theorem send_extension {op : Operation} (hop : op.isCore = false) :
    (p.initialized = true → ∃ request, p.send python py op = .ok request) ∧
      (p.initialized = false → p.send python py op = .error .missingClient) := by
  cases op with
  | package request =>
    constructor <;> intro hinit <;> simp only [Provider.send, Provider.package, hinit]
    · exact ⟨p.post "/memories/search".toList (buildPackageBody request), rfl⟩
    · rfl
  | searchAsOf request asOf =>
    constructor <;> intro hinit <;> simp only [Provider.send, Provider.searchAsOf, hinit]
    · exact ⟨p.post "/memories/search".toList (buildSearchBody request ++
        [("as_of", .str (python.isoformat asOf))]), rfl⟩
    · rfl
  | history ref =>
    constructor <;> intro hinit <;> simp only [Provider.send, Provider.history, hinit]
    · exact ⟨p.get (Provider.auditPath ref), rfl⟩
    · rfl
  | _ => cases hop

theorem gated_of_isCore {op : Operation} (hop : op.isCore = true) : Gated p python py op := by
  cases op with
  | ingest input => exact gated_of_runOperation p python py rfl
  | search request => exact gated_of_runOperation p python py rfl
  | get ref => exact gated_of_runOperation p python py rfl
  | delete ref => exact gated_of_runOperation p python py rfl
  | list request => exact gated_of_runOperation p python py rfl
  | _ => cases hop

/-- The core methods are gated. An extension is so only where there is nothing to stop. -/
theorem gated_iff (op : Operation) :
    Gated p python py op ↔ op.isCore = true ∨ (p.initialized = true ∧ op.missing = []) := by
  constructor
  · intro hgated
    by_contra hnone
    rw [not_or, Bool.not_eq_true, not_and] at hnone
    obtain ⟨hop, hmissing⟩ := hnone
    obtain ⟨hsends, hraises⟩ := send_extension p python py hop
    cases hinit : p.initialized with
    | false => cases (hraises hinit).symm.trans (hgated.notInitialized hinit)
    | true =>
      obtain ⟨request, hrequest⟩ := hsends hinit
      obtain ⟨operation, herror⟩ := hgated.invalidScope hinit (hmissing hinit)
      cases hrequest.symm.trans herror
  · rintro (hop | ⟨hinit, hmissing⟩)
    · exact gated_of_isCore p python py hop
    · exact ⟨fun h => Bool.noConfusion (h.symm.trans hinit), fun _ h => absurd hmissing h⟩

end

/-- A package request without a user is sent, with a `user_id` of `None`. -/
theorem package_without_user :
    let p : Provider := ⟨"/v1".toList, true, none⟩
    let request : PackageRequest := ⟨⟨"q", ⟨none, none, none, none⟩, none, none⟩, none, none⟩
    (Operation.package request).missing = ["user"] ∧
      (∃ sent, p.send Python.reference Pydantic.reference (.package request) = .ok sent ∧
        sent.json.map (Items.get · "user_id") = some .none) ∧
      ¬Gated p Python.reference Pydantic.reference (.package request) := by
  intro p request
  refine ⟨by decide, ⟨_, rfl, rfl⟩, fun hgated => ?_⟩
  obtain ⟨operation, herror⟩ := hgated.invalidScope rfl (by decide)
  cases herror

end AtomicMemoryProvider

end AtomicMemory
