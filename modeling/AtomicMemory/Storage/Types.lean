import AtomicMemory.Core.Responses
import AtomicMemory.Lib.Literal

-- The models of storage responses, and how Pydantic validates a dict against them: a field with
-- an alias may also be given under its own name.

open PyValue hiding none

namespace AtomicMemory.StorageClient

inductive StorageArtifactStatus
  | stored
  | pending
  | available
  | unavailable
  | deleting
  | deleted
  | deleteFailed
  | failed
  deriving DecidableEq

inductive StorageAddressingMode
  | location
  | content
  | providerNative
  deriving DecidableEq

inductive StorageConsistency
  | immediate
  | eventual
  deriving DecidableEq

inductive StorageAvailabilityModel
  | immediate
  | delayed
  | scheduled
  | bestEffort
  deriving DecidableEq

inductive StorageDeleteSemantics
  | delete
  | unpin
  | tombstone
  | providerRetained
  deriving DecidableEq

inductive StorageMode
  | pointer
  | managed
  deriving DecidableEq

inductive ContentEncoding
  | identity
  | aesGcm
  deriving DecidableEq

inductive ProviderProofStatus
  | pending
  | verified
  | failed
  | unsupported
  deriving DecidableEq

inductive RetrievalStatus
  | notChecked
  | retrievable
  | notRetrievable
  | unsupported
  deriving DecidableEq

inductive VerificationKind
  | verified
  | failed
  | unsupported
  deriving DecidableEq

instance : Literal StorageArtifactStatus where
  all := [.stored, .pending, .available, .unavailable, .deleting, .deleted, .deleteFailed, .failed]
  text
    | .stored => "stored"
    | .pending => "pending"
    | .available => "available"
    | .unavailable => "unavailable"
    | .deleting => "deleting"
    | .deleted => "deleted"
    | .deleteFailed => "delete_failed"
    | .failed => "failed"
  mem_all status := by cases status <;> decide
  text_injective := by decide

instance : Literal StorageAddressingMode where
  all := [.location, .content, .providerNative]
  text
    | .location => "location"
    | .content => "content"
    | .providerNative => "provider_native"
  mem_all mode := by cases mode <;> decide
  text_injective := by decide

instance : Literal StorageConsistency where
  all := [.immediate, .eventual]
  text
    | .immediate => "immediate"
    | .eventual => "eventual"
  mem_all consistency := by cases consistency <;> decide
  text_injective := by decide

instance : Literal StorageAvailabilityModel where
  all := [.immediate, .delayed, .scheduled, .bestEffort]
  text
    | .immediate => "immediate"
    | .delayed => "delayed"
    | .scheduled => "scheduled"
    | .bestEffort => "best_effort"
  mem_all availability := by cases availability <;> decide
  text_injective := by decide

instance : Literal StorageDeleteSemantics where
  all := [.delete, .unpin, .tombstone, .providerRetained]
  text
    | .delete => "delete"
    | .unpin => "unpin"
    | .tombstone => "tombstone"
    | .providerRetained => "provider_retained"
  mem_all semantics := by cases semantics <;> decide
  text_injective := by decide

instance : Literal StorageMode where
  all := [.pointer, .managed]
  text
    | .pointer => "pointer"
    | .managed => "managed"
  mem_all mode := by cases mode <;> decide
  text_injective := by decide

instance : Literal ContentEncoding where
  all := [.identity, .aesGcm]
  text
    | .identity => "identity"
    | .aesGcm => "aes_gcm"
  mem_all encoding := by cases encoding <;> decide
  text_injective := by decide

instance : Literal ProviderProofStatus where
  all := [.pending, .verified, .failed, .unsupported]
  text
    | .pending => "pending"
    | .verified => "verified"
    | .failed => "failed"
    | .unsupported => "unsupported"
  mem_all status := by cases status <;> decide
  text_injective := by decide

instance : Literal RetrievalStatus where
  all := [.notChecked, .retrievable, .notRetrievable, .unsupported]
  text
    | .notChecked => "not_checked"
    | .retrievable => "retrievable"
    | .notRetrievable => "not_retrievable"
    | .unsupported => "unsupported"
  mem_all status := by cases status <;> decide
  text_injective := by decide

instance : Literal VerificationKind where
  all := [.verified, .failed, .unsupported]
  text
    | .verified => "verified"
    | .failed => "failed"
    | .unsupported => "unsupported"
  mem_all kind := by cases kind <;> decide
  text_injective := by decide

structure StorageLifecycle where
  availability : Option StorageAvailabilityModel
  deleteSemantics : Option StorageDeleteSemantics

structure ReplicationState where
  desiredCopies : Option ℤ
  confirmedCopies : Option ℤ

structure VerificationState where
  providerProofStatus : Option ProviderProofStatus
  lastVerifiedAt : Option String

structure RetrievalState where
  status : Option RetrievalStatus
  lastCheckedAt : Option String

structure StoredArtifact where
  artifactId : String
  provider : String
  mode : StorageMode
  uri : Option String
  status : StorageArtifactStatus
  sizeBytes : Option ℤ
  contentType : Option String
  contentHash : Option String
  contentEncoding : ContentEncoding
  identifiers : List (String × String)
  lifecycle : StorageLifecycle
  replication : Option ReplicationState
  verification : Option VerificationState
  retrieval : Option RetrievalState
  providerDetails : Option Items
  /-- Strings, numbers and booleans, as they came. -/
  metadata : Items
  createdAt : String
  updatedAt : String

structure DeleteArtifactResult where
  artifactId : String
  status : StorageArtifactStatus
  cascadedDocumentIds : Option (List String)

structure VerificationResult where
  kind : VerificationKind
  details : Option Items
  reason : Option String

structure StorageCapabilities where
  provider : String
  addressing : List StorageAddressingMode
  consistency : StorageConsistency
  maxUploadBytes : Option ℤ
  minUploadBytes : Option ℤ
  supportsDirectUpload : Bool
  supportsRangeRead : Bool
  supportsDelete : Bool
  supportsTombstone : Bool
  supportsBundles : Bool
  supportedBundleFormats : List String
  supportsVerification : Bool
  supportsProviderProofs : Bool
  supportsReplication : Bool
  supportsRetrievalStatus : Bool
  supportsContentHash : Bool
  supportsContentAddressedUri : Bool
  deleteSemantics : List StorageDeleteSemantics
  availabilityModel : StorageAvailabilityModel

def usedKey (items : Items) (aliased name : String) : String :=
  if (items.lookup aliased).isSome then aliased else name

/-- A value of type `dict[str, T]`. -/
def record? {α : Type} (f : PyValue → Option α) : PyValue → Option (List (String × α))
  | .dict items => items.mapM fun item => (f item.2).map fun a => (item.1, a)
  | _ => none

/-- A value of type `str | int | float | bool`: a value of one of these types is kept. -/
def scalar? : PyValue → Option PyValue
  | .str s => some (.str s)
  | .int n => some (.int n)
  | .float q => some (.float q)
  | .bool b => some (.bool b)
  | _ => none

section

variable (py : ResponsePydantic)

def StorageLifecycle.ofItems (items : Items) : Option StorageLifecycle :=
  let deleteSemanticsKey := usedKey items "deleteSemantics" "delete_semantics"
  forbidExtra ["availability", deleteSemanticsKey] (fun items => do
    let availability ← optField literal items "availability"
    let deleteSemantics ← optField literal items deleteSemanticsKey
    some ⟨availability, deleteSemantics⟩) items

def ReplicationState.ofItems (items : Items) : Option ReplicationState := do
  let desiredCopies ← optField py.int items (usedKey items "desiredCopies" "desired_copies")
  let confirmedCopies ← optField py.int items (usedKey items "confirmedCopies" "confirmed_copies")
  some ⟨desiredCopies, confirmedCopies⟩

def VerificationState.ofItems (items : Items) : Option VerificationState := do
  let providerProofStatus ← optField literal items
    (usedKey items "providerProofStatus" "provider_proof_status")
  let lastVerifiedAt ← optField str? items (usedKey items "lastVerifiedAt" "last_verified_at")
  some ⟨providerProofStatus, lastVerifiedAt⟩

def RetrievalState.ofItems (items : Items) : Option RetrievalState := do
  let status ← optField literal items "status"
  let lastCheckedAt ← optField str? items (usedKey items "lastCheckedAt" "last_checked_at")
  some ⟨status, lastCheckedAt⟩

def StoredArtifact.ofItems (items : Items) : Option StoredArtifact :=
  let artifactIdKey := usedKey items "artifactId" "artifact_id"
  let sizeBytesKey := usedKey items "sizeBytes" "size_bytes"
  let contentTypeKey := usedKey items "contentType" "content_type"
  let contentHashKey := usedKey items "contentHash" "content_hash"
  let contentEncodingKey := usedKey items "contentEncoding" "content_encoding"
  let providerDetailsKey := usedKey items "providerDetails" "provider_details"
  let createdAtKey := usedKey items "createdAt" "created_at"
  let updatedAtKey := usedKey items "updatedAt" "updated_at"
  forbidExtra [artifactIdKey, "provider", "mode", "uri", "status", sizeBytesKey, contentTypeKey,
    contentHashKey, contentEncodingKey, "identifiers", "lifecycle", "replication", "verification",
    "retrieval", providerDetailsKey, "metadata", createdAtKey, updatedAtKey] (fun items => do
    let artifactId ← field str? items artifactIdKey
    let provider ← field str? items "provider"
    let mode ← field literal items "mode"
    let uri ← field (nullable str?) items "uri"
    let status ← field literal items "status"
    let sizeBytes ← field (nullable py.int) items sizeBytesKey
    let contentType ← field (nullable str?) items contentTypeKey
    let contentHash ← optField str? items contentHashKey
    let contentEncoding ← field literal items contentEncodingKey
    let identifiers ← defaultField (record? str?) [] items "identifiers"
    let lifecycle ← defaultField (modelOf StorageLifecycle.ofItems) ⟨none, none⟩ items "lifecycle"
    let replication ← optField (modelOf (ReplicationState.ofItems py)) items "replication"
    let verification ← optField (modelOf VerificationState.ofItems) items "verification"
    let retrieval ← optField (modelOf RetrievalState.ofItems) items "retrieval"
    let providerDetails ← optField dict? items providerDetailsKey
    let metadata ← defaultField (record? scalar?) [] items "metadata"
    let createdAt ← field str? items createdAtKey
    let updatedAt ← field str? items updatedAtKey
    some ⟨artifactId, provider, mode, uri, status, sizeBytes, contentType, contentHash,
      contentEncoding, identifiers, lifecycle, replication, verification, retrieval,
      providerDetails, metadata, createdAt, updatedAt⟩) items

def DeleteArtifactResult.ofItems (items : Items) : Option DeleteArtifactResult :=
  let artifactIdKey := usedKey items "artifactId" "artifact_id"
  let cascadedKey := usedKey items "cascadedDocumentIds" "cascaded_document_ids"
  forbidExtra [artifactIdKey, "status", cascadedKey] (fun items => do
    let artifactId ← field str? items artifactIdKey
    let status ← field literal items "status"
    let cascadedDocumentIds ← optField (list? str?) items cascadedKey
    some ⟨artifactId, status, cascadedDocumentIds⟩) items

def VerificationResult.ofItems : Items → Option VerificationResult :=
  forbidExtra ["kind", "details", "reason"] fun items => do
    let kind ← field literal items "kind"
    let details ← optField dict? items "details"
    let reason ← optField str? items "reason"
    some ⟨kind, details, reason⟩

def StorageCapabilities.ofItems (items : Items) : Option StorageCapabilities :=
  let maxUploadKey := usedKey items "maxUploadBytes" "max_upload_bytes"
  let minUploadKey := usedKey items "minUploadBytes" "min_upload_bytes"
  let directUploadKey := usedKey items "supportsDirectUpload" "supports_direct_upload"
  let rangeReadKey := usedKey items "supportsRangeRead" "supports_range_read"
  let deleteKey := usedKey items "supportsDelete" "supports_delete"
  let tombstoneKey := usedKey items "supportsTombstone" "supports_tombstone"
  let bundlesKey := usedKey items "supportsBundles" "supports_bundles"
  let bundleFormatsKey := usedKey items "supportedBundleFormats" "supported_bundle_formats"
  let verificationKey := usedKey items "supportsVerification" "supports_verification"
  let proofsKey := usedKey items "supportsProviderProofs" "supports_provider_proofs"
  let replicationKey := usedKey items "supportsReplication" "supports_replication"
  let retrievalKey := usedKey items "supportsRetrievalStatus" "supports_retrieval_status"
  let contentHashKey := usedKey items "supportsContentHash" "supports_content_hash"
  let addressedUriKey :=
    usedKey items "supportsContentAddressedUri" "supports_content_addressed_uri"
  let deleteSemanticsKey := usedKey items "deleteSemantics" "delete_semantics"
  let availabilityKey := usedKey items "availabilityModel" "availability_model"
  forbidExtra ["provider", "addressing", "consistency", maxUploadKey, minUploadKey,
    directUploadKey, rangeReadKey, deleteKey, tombstoneKey, bundlesKey, bundleFormatsKey,
    verificationKey, proofsKey, replicationKey, retrievalKey, contentHashKey, addressedUriKey,
    deleteSemanticsKey, availabilityKey] (fun items => do
    let provider ← field str? items "provider"
    let addressing ← field (list? literal) items "addressing"
    let consistency ← field literal items "consistency"
    let maxUploadBytes ← optField py.int items maxUploadKey
    let minUploadBytes ← optField py.int items minUploadKey
    let supportsDirectUpload ← field py.bool items directUploadKey
    let supportsRangeRead ← field py.bool items rangeReadKey
    let supportsDelete ← field py.bool items deleteKey
    let supportsTombstone ← field py.bool items tombstoneKey
    let supportsBundles ← field py.bool items bundlesKey
    let supportedBundleFormats ← field (list? str?) items bundleFormatsKey
    let supportsVerification ← field py.bool items verificationKey
    let supportsProviderProofs ← field py.bool items proofsKey
    let supportsReplication ← field py.bool items replicationKey
    let supportsRetrievalStatus ← field py.bool items retrievalKey
    let supportsContentHash ← field py.bool items contentHashKey
    let supportsContentAddressedUri ← field py.bool items addressedUriKey
    let deleteSemantics ← field (list? literal) items deleteSemanticsKey
    let availabilityModel ← field literal items availabilityKey
    some ⟨provider, addressing, consistency, maxUploadBytes, minUploadBytes, supportsDirectUpload,
      supportsRangeRead, supportsDelete, supportsTombstone, supportsBundles,
      supportedBundleFormats, supportsVerification, supportsProviderProofs, supportsReplication,
      supportsRetrievalStatus, supportsContentHash, supportsContentAddressedUri, deleteSemantics,
      availabilityModel⟩) items

end

end AtomicMemory.StorageClient
