import AtomicMemory.Storage.StorageClient
import AtomicMemory.Storage.Types

-- What the storage clients make of a JSON body: the models of an artifact, of a deletion and of
-- a verification, or one of the storage errors.

open PyValue hiding none

namespace AtomicMemory.StorageClient

/-- `StorageClientError` and its subclasses, with what these carry. -/
inductive StorageErrorClass
  | storageClientError
  | unsupportedCapabilityError (capability : String)
  | artifactNotFoundError (artifactId : String)
  | artifactInUseError (artifactId : String) (referencedByDocumentCount : PyValue)
  | pointerContentNotManagedError (artifactId uri : String)
  | filecoinDirectStorageNotSupportedError

structure StorageError extends StorageClientError where
  errorClass : StorageErrorClass
  bodyText : String

inductive StorageRaised
  | storage (e : StorageError)
  /-- A failure of the JSON parser that nothing has caught. -/
  | json (e : JsonFailure)
  | python (e : PyError)

abbrev StorageResult (α : Type) : Type := Except StorageRaised α

def Contained {α : Type} (result : StorageResult α) : Prop :=
  result.Raises fun e => ∃ error, e = .storage error

/-- `_invalid_response`. -/
def invalidResponse (message : String) : StorageRaised :=
  .storage ⟨⟨message, "invalid_storage_response", 200⟩, .storageClientError, ""⟩

def requireObject (raw : PyValue) (typeName : String) : StorageResult Items :=
  match raw with
  | .dict items => .ok items
  | _ => .error (invalidResponse (typeName ++ ": server response is not a JSON object"))

def requireWireString (raw : Items) (field : String) : StorageResult String :=
  let missing := invalidResponse
    ("mapStoredArtifact: server response is missing required `" ++ field ++ "`")
  match raw.get field with
  | .str value => if value = "" then .error missing else .ok value
  | _ => .error missing

def requireWireEnum (raw : Items) (field : String) (allowed : List String) :
    StorageResult String :=
  let unknown := invalidResponse
    ("mapStoredArtifact: `" ++ field ++ "` must be one of " ++ ", ".intercalate allowed)
  match raw.get field with
  | .str value => if value ∈ allowed then .ok value else .error unknown
  | _ => .error unknown

/-- `body[field]`. -/
def subscript (body : Items) (field : String) : StorageResult PyValue :=
  (item body field).mapError .python

/-- `field not in body or body[field] is None`. -/
def isAbsent (body : Items) (field : String) : StorageResult Bool :=
  if field ∈ Items.keys body then (subscript body field).map isNone else .ok true

/-- The shape of the checks of an optional field, of which `check` says what is wrong. -/
def optionalField {α : Type} (absent : α) (check : PyValue → Except String α) (body : Items)
    (field : String) : StorageResult α := do
  if ← isAbsent body field then .ok absent
  else
    let value ← subscript body field
    match check value with
    | .ok a => .ok a
    | .error wrong => .error (invalidResponse ("mapStoredArtifact: `" ++ field ++ "` " ++ wrong))

def optionalString : Items → String → StorageResult (Option String) :=
  optionalField none fun
    | .str value => .ok (some value)
    | _ => .error "must be a string or null"

def optionalNonNegativeInt : Items → String → StorageResult (Option ℤ) :=
  optionalField none fun
    | .int n => if 0 ≤ n then .ok (some n) else .error "must be a non-negative integer or null"
    | _ => .error "must be a non-negative integer or null"

/-- `isinstance(v, str)`. -/
def isStr : PyValue → Bool
  | .str _ => true
  | _ => false

/-- `isinstance(v, str | int | float | bool)`. -/
def isScalar : PyValue → Bool
  | .str _ | .int _ | .float _ | .bool _ => true
  | _ => false

def stringDict : Items → String → StorageResult Items :=
  optionalField [] fun
    | .dict value =>
      if value.all fun item => isStr item.2 then .ok value else .error "values must be strings"
    | _ => .error "must be an object"

def objectOrEmpty : Items → String → StorageResult Items :=
  optionalField [] fun
    | .dict value => .ok value
    | _ => .error "must be an object"

def metadataDict : Items → String → StorageResult Items :=
  optionalField [] fun
    | .dict value =>
      if value.all fun item => isScalar item.2 then
        .ok (value.filter fun item => isScalar item.2)
      else .error "values must be scalar"
    | _ => .error "must be an object"

def copyOptionalObject (out : Items) (outKey : String) : Items → String → StorageResult Items :=
  optionalField out fun
    | .dict value => .ok (out.set outKey (.dict value))
    | _ => .error "must be an object"

/-- `validate_response_model`, with the validation of the model. -/
def validateResponseModel {α : Type} (validate : PyValue → Option α) (data : PyValue)
    (typeName : String) : StorageResult α :=
  match validate data with
  | some result => .ok result
  | none => .error (invalidResponse (typeName ++ ": server response failed validation"))

def storageModes : List String := ["pointer", "managed"]

def storageStatuses : List String :=
  ["stored", "pending", "available", "unavailable", "deleting", "deleted", "delete_failed",
    "failed"]

def contentEncodings : List String := ["identity", "aes_gcm"]

/-- A value that may be `None`. -/
def orNone {α : Type} (x : Option α) (f : α → PyValue) : PyValue := (x.map f).getD .none

def mapStoredArtifact (py : ResponsePydantic) (raw : PyValue) : StorageResult StoredArtifact := do
  let body ← requireObject raw "StoredArtifact"
  let artifactId ← requireWireString body "artifact_id"
  let provider ← requireWireString body "provider"
  let mode ← requireWireEnum body "mode" storageModes
  let status ← requireWireEnum body "status" storageStatuses
  let contentEncoding ← requireWireEnum body "content_encoding" contentEncodings
  let uri ← optionalString body "uri"
  let sizeBytes ← optionalNonNegativeInt body "size_bytes"
  let contentType ← optionalString body "content_type"
  let identifiers ← stringDict body "identifiers"
  let lifecycle ← objectOrEmpty body "lifecycle"
  let metadata ← metadataDict body "metadata"
  let createdAt ← requireWireString body "created_at"
  let updatedAt ← requireWireString body "updated_at"
  let artifact : Items := [("artifactId", .str artifactId), ("provider", .str provider),
    ("mode", .str mode), ("uri", orNone uri .str), ("status", .str status),
    ("sizeBytes", orNone sizeBytes .int), ("contentType", orNone contentType .str),
    ("contentEncoding", .str contentEncoding), ("identifiers", .dict identifiers),
    ("lifecycle", .dict lifecycle), ("metadata", .dict metadata), ("createdAt", .str createdAt),
    ("updatedAt", .str updatedAt)]
  let contentHash ← optionalString body "content_hash"
  let artifact := artifact.setSome "contentHash" (contentHash.map .str)
  let artifact ← copyOptionalObject artifact "providerDetails" body "provider_details"
  let artifact ← copyOptionalObject artifact "replication" body "replication"
  let artifact ← copyOptionalObject artifact "verification" body "verification"
  let artifact ← copyOptionalObject artifact "retrieval" body "retrieval"
  validateResponseModel (modelOf (StoredArtifact.ofItems py)) (.dict artifact) "StoredArtifact"

/-- The dict with the ids of the documents that were deleted too, as texts. -/
def setCascadedIds (python : Python) (body out : Items) : StorageResult Items :=
  match body.get "cascaded_document_ids" with
  | .list _ => do
    let ids ← subscript body "cascaded_document_ids"
    let ids ← (iterate ids).mapError .python
    .ok (out.set "cascadedDocumentIds" (.list (ids.map fun v => .str (python.str v))))
  | _ => .ok out

def mapDeleteResult (python : Python) (raw : PyValue) : StorageResult DeleteArtifactResult := do
  let body ← requireObject raw "DeleteArtifactResult"
  let artifactId ← requireWireString body "artifact_id"
  let status ← requireWireEnum body "status" storageStatuses
  let out ← setCascadedIds python body [("artifactId", .str artifactId), ("status", .str status)]
  validateResponseModel (modelOf DeleteArtifactResult.ofItems) (.dict out) "DeleteArtifactResult"

/-- `v == text`. -/
def equalsText (v : PyValue) (text : String) : Bool :=
  match v with
  | .str s => s = text
  | _ => false

/-- `body.get(key, default)`. -/
def getOr (body : Items) (key : String) (default : PyValue) : PyValue :=
  (body.lookup key).getD default

def mapVerifyResult (python : Python) (raw : PyValue) : StorageResult VerificationResult :=
  let body := (dict? raw).getD []
  if equalsText (body.get "kind") "verified" then
    let details := (dict? (body.get "details")).getD []
    validateResponseModel (modelOf VerificationResult.ofItems)
      (.dict [("kind", .str "verified"), ("details", .dict details)]) "VerificationResult"
  else if equalsText (body.get "kind") "failed" then
    let reason := python.str (getOr body "reason" (.str "unknown failure"))
    validateResponseModel (modelOf VerificationResult.ofItems)
      (.dict [("kind", .str "failed"), ("reason", .str reason)]) "VerificationResult"
  else
    let reason := python.str (getOr body "reason" (.str "unsupported"))
    validateResponseModel (modelOf VerificationResult.ofItems)
      (.dict [("kind", .str "unsupported"), ("reason", .str reason)]) "VerificationResult"

def parseErrorEnvelope (httpx : Httpx) (bodyText : String) : StorageResult Items :=
  if bodyText = "" then .ok []
  else
    match httpx.loads bodyText with
    | .ok (.dict items) => .ok items
    | .ok _ => .ok []
    | .error e => if e.isJsonDecodeError then .ok [] else .error (.json e)

/-- `ArtifactInUseError`. -/
def artifactInUse (python : Python) (artifactId : String) (count : PyValue) (bodyText : String) :
    StorageError :=
  ⟨⟨"Storage artifact " ++ artifactId ++ " is referenced by " ++ python.str count ++
      " document(s); pass policy='with_documents' to cascade", "artifact_in_use", 409⟩,
    .artifactInUseError artifactId count, bodyText⟩

/-- `PointerContentNotManagedError`. -/
def pointerContentNotManaged (artifactId uri bodyText : String) : StorageError :=
  ⟨⟨"Artifact " ++ artifactId ++ " is pointer-mode; fetch the URI directly",
      "pointer_content_not_managed", 409⟩,
    .pointerContentNotManagedError artifactId uri, bodyText⟩

/-- `FilecoinDirectStorageNotSupportedError`. -/
def filecoinDirectStorageNotSupported (bodyText : String) : StorageError :=
  ⟨⟨"Direct Filecoin artifact uploads are not supported in this version. " ++
      "Use document ingestion or pointer mode.", "filecoin_direct_storage_not_yet_supported", 501⟩,
    .filecoinDirectStorageNotSupportedError, bodyText⟩

/-- `ArtifactNotFoundError`. -/
def artifactNotFound (artifactId bodyText : String) : StorageError :=
  ⟨⟨"Storage artifact " ++ artifactId ++ " not found", "artifact_not_found", 404⟩,
    .artifactNotFoundError artifactId, bodyText⟩

/-- `UnsupportedCapabilityError`. -/
def unsupportedCapability (capability message bodyText : String) : StorageError :=
  ⟨⟨message, "unsupported_capability", 400⟩, .unsupportedCapabilityError capability, bodyText⟩

def raiseForStorageResponse (httpx : Httpx) (python : Python) (response : RawResponse)
    (artifactId : Option String) : StorageRaised :=
  let bodyText := httpx.text response
  match parseErrorEnvelope httpx bodyText with
  | .error e => e
  | .ok envelope =>
    let code := envelope.get "error_code"
    let error := envelope.get "error"
    let message := python.str (if error.truthy then error
      else .str ("request failed with status " ++ toString response.status))
    let knownId := artifactId.getD ""
    .storage <|
      if equalsText code "artifact_in_use" then
        let count := match envelope.get "referenced_by_document_count" with
          | .int n => PyValue.int n
          | .bool b => PyValue.bool b
          | _ => PyValue.int 0
        artifactInUse python knownId count bodyText
      else if equalsText code "pointer_content_not_managed" then
        pointerContentNotManaged knownId ((str? (envelope.get "uri")).getD "") bodyText
      else if equalsText code "filecoin_direct_storage_not_yet_supported" then
        filecoinDirectStorageNotSupported bodyText
      else if equalsText code "artifact_not_found" ∨ response.status = 404 then
        artifactNotFound knownId bodyText
      else if equalsText code "unsupported_capability" then
        unsupportedCapability "unknown" message bodyText
      else
        ⟨⟨message, (str? code).getD ("http_" ++ toString response.status), response.status⟩,
          .storageClientError, bodyText⟩

theorem contained_ok {α : Type} (a : α) : Contained (.ok a) := Except.raises_ok a

theorem contained_storage {α : Type} (error : StorageError) :
    Contained (.error (.storage error) : StorageResult α) :=
  Except.raises_error_iff.mpr ⟨error, rfl⟩

section

variable {body : Items} {field : String}

theorem isAbsent_eq (body : Items) (field : String) :
    isAbsent body field = .ok (body.get field).isNone := by
  unfold isAbsent subscript item Items.get
  split
  · rename_i hmem
    obtain ⟨v, hv⟩ := (Items.mem_keys_iff body field).mp hmem
    simp only [hv]
    rfl
  · rename_i hmem
    rw [(Items.lookup_eq_none_iff body field).mpr hmem]
    rfl

theorem subscript_eq (h : body.get field ≠ .none) :
    subscript body field = .ok (body.get field) := by
  unfold subscript item
  unfold Items.get at h ⊢
  cases hv : body.lookup field with
  | none =>
    rw [hv] at h
    exact absurd rfl h
  | some v => rfl

theorem optionalField_none {α : Type} (absent : α) (check : PyValue → Except String α)
    (h : body.get field = .none) : optionalField absent check body field = .ok absent := by
  unfold optionalField
  rw [isAbsent_eq, h]
  rfl

theorem optionalField_some {α : Type} (absent : α) (check : PyValue → Except String α)
    (h : body.get field ≠ .none) : optionalField absent check body field =
      (check (body.get field)).mapError fun wrong =>
        invalidResponse ("mapStoredArtifact: `" ++ field ++ "` " ++ wrong) := by
  have hpresent : (body.get field).isNone = false :=
    Bool.eq_false_iff.mpr fun hnone => h ((isNone_iff _).mp hnone)
  unfold optionalField
  rw [isAbsent_eq, hpresent, subscript_eq h]
  simp only [bind, Except.bind, Bool.false_eq_true, if_false]
  cases check (body.get field) <;> rfl

theorem optionalField_contained {α : Type} (absent : α) (check : PyValue → Except String α)
    (body : Items) (field : String) : Contained (optionalField absent check body field) := by
  by_cases h : body.get field = .none
  · rw [optionalField_none absent check h]
    exact contained_ok absent
  · rw [optionalField_some absent check h]
    cases check (body.get field) with
    | ok a => exact contained_ok a
    | error wrong => exact contained_storage _

theorem requireObject_contained (raw : PyValue) (typeName : String) :
    Contained (requireObject raw typeName) := by
  unfold requireObject
  split
  · exact contained_ok _
  · exact contained_storage _

theorem requireWireString_contained (body : Items) (field : String) :
    Contained (requireWireString body field) := by
  unfold requireWireString
  dsimp only
  split
  · split
    · exact contained_storage _
    · exact contained_ok _
  · exact contained_storage _

theorem requireWireEnum_contained (body : Items) (field : String) (allowed : List String) :
    Contained (requireWireEnum body field allowed) := by
  unfold requireWireEnum
  dsimp only
  split
  · split
    · exact contained_ok _
    · exact contained_storage _
  · exact contained_storage _

theorem validateResponseModel_contained {α : Type} (validate : PyValue → Option α)
    (data : PyValue) (typeName : String) :
    Contained (validateResponseModel validate data typeName) := by
  unfold validateResponseModel
  split
  · exact contained_ok _
  · exact contained_storage _

end

theorem mapStoredArtifact_contained (py : ResponsePydantic) (raw : PyValue) :
    Contained (mapStoredArtifact py raw) := by
  unfold mapStoredArtifact
  apply Except.raises_bind (requireObject_contained _ _)
  intro body _
  -- the field checks, one after the other
  repeat
    refine Except.raises_bind ?_ fun _ _ => ?_
    · first
      | exact requireWireString_contained _ _
      | exact requireWireEnum_contained _ _ _
      | exact optionalField_contained _ _ _ _
  exact validateResponseModel_contained _ _ _

theorem setCascadedIds_contained (python : Python) (body out : Items) :
    Contained (setCascadedIds python body out) := by
  unfold setCascadedIds
  split
  · rename_i ids hids
    -- what is iterated over is the list that the check has found
    have hne : body.get "cascaded_document_ids" ≠ .none := by
      rw [hids]
      exact PyValue.noConfusion
    rw [subscript_eq hne, hids]
    exact contained_ok _
  · exact contained_ok _

theorem mapDeleteResult_contained (python : Python) (raw : PyValue) :
    Contained (mapDeleteResult python raw) := by
  unfold mapDeleteResult
  apply Except.raises_bind (requireObject_contained _ _)
  intro body _
  apply Except.raises_bind (requireWireString_contained _ _)
  intro artifactId _
  apply Except.raises_bind (requireWireEnum_contained _ _ _)
  intro status _
  apply Except.raises_bind (setCascadedIds_contained _ _ _)
  intro out _
  exact validateResponseModel_contained _ _ _

theorem mapVerifyResult_contained (python : Python) (raw : PyValue) :
    Contained (mapVerifyResult python raw) := by
  unfold mapVerifyResult
  dsimp only
  split
  · exact validateResponseModel_contained _ _ _
  · split
    · exact validateResponseModel_contained _ _ _
    · exact validateResponseModel_contained _ _ _

def SyntaxErrorOnly (parsed : Except JsonFailure PyValue) : Prop :=
  ∀ e, parsed = .error e → e.isJsonDecodeError = true

theorem parseErrorEnvelope_cases (httpx : Httpx) (bodyText : String) :
    (bodyText = "" ∨ SyntaxErrorOnly (httpx.loads bodyText)) ∧
        (∃ envelope, parseErrorEnvelope httpx bodyText = .ok envelope) ∨
      ¬(bodyText = "" ∨ SyntaxErrorOnly (httpx.loads bodyText)) ∧
        ∃ e, parseErrorEnvelope httpx bodyText = .error (.json e) := by
  unfold parseErrorEnvelope
  by_cases hempty : bodyText = ""
  · rw [if_pos hempty]
    exact .inl ⟨.inl hempty, _, rfl⟩
  · rw [if_neg hempty]
    cases hloads : httpx.loads bodyText with
    | ok v =>
      refine .inl ⟨.inr fun e he => (by cases he), ?_⟩
      cases v with
      | dict items => exact ⟨items, rfl⟩
      | _ => exact ⟨[], rfl⟩
    | error e =>
      cases he : e.isJsonDecodeError with
      | true =>
        refine .inl ⟨.inr fun e' he' => ?_, [], ?_⟩
        · cases he'
          exact he
        · simp only [he, if_true]
      | false =>
        refine .inr ⟨?_, e, ?_⟩
        · rintro (htext | honly)
          · exact hempty htext
          · rw [honly e rfl] at he
            cases he
        · simp only [he, Bool.false_eq_true, if_false]

theorem raiseForStorageResponse_storage_iff (httpx : Httpx) (python : Python)
    (response : RawResponse) (artifactId : Option String) :
    (∃ error, raiseForStorageResponse httpx python response artifactId = .storage error) ↔
      httpx.text response = "" ∨ SyntaxErrorOnly (httpx.loads (httpx.text response)) := by
  unfold raiseForStorageResponse
  obtain ⟨hreadable, envelope, henvelope⟩ | ⟨hreadable, e, he⟩ :=
    parseErrorEnvelope_cases httpx (httpx.text response)
  · simp only [henvelope, StorageRaised.storage.injEq, exists_eq']
    exact ⟨fun _ => hreadable, fun _ => trivial⟩
  · simp only [he, reduceCtorEq, exists_false, false_iff]
    exact hreadable

end AtomicMemory.StorageClient
