import AtomicMemory.Lib.PercentEncoding
import AtomicMemory.Lib.RequestTarget
import AtomicMemory.Providers.Http

-- The requests of `StorageClient`'s methods on one artifact, which `AsyncStorageClient` makes
-- too.

open PercentEncoding
open PyValue hiding none

namespace AtomicMemory.StorageClient

structure StorageClientError where
  message : String
  errorCode : String
  status : ℕ
  deriving DecidableEq

structure ArtifactRef where
  artifactId : Option String
  uri : Option String
  contentHash : Option String
  identified : artifactId.isSome ∨ uri.isSome ∨ contentHash.isSome

inductive DeleteArtifactPolicy
  | artifactOnly
  | withDocuments
  deriving DecidableEq

def DeleteArtifactPolicy.text : DeleteArtifactPolicy → String
  | artifactOnly => "artifact_only"
  | withDocuments => "with_documents"

/-- `_require_artifact_id`. -/
def requireArtifactId (ref : ArtifactRef) : Except StorageClientError String :=
  match ref.artifactId with
  | some artifactId => .ok artifactId
  | none => .error ⟨"ArtifactRef.artifact_id is required for this operation in v1",
      "missing_artifact_id", 0⟩

/-- `/v1/storage/artifacts/{_quote_id(artifact_id)}`. -/
def artifactPath (artifactId : String) : List Char :=
  "/v1/storage/artifacts/".toList ++ quote artifactId.toList

/-- `_delete_path`. -/
def deletePath (artifactId : String) (policy : Option DeleteArtifactPolicy) : List Char :=
  match policy with
  | some policy => artifactPath artifactId ++ '?' :: urlencode [("policy".toList, policy.text.toList)]
  | none => artifactPath artifactId

/-- `get`. -/
def get (ref : ArtifactRef) : Except StorageClientError HttpRequest := do
  let artifactId ← requireArtifactId ref
  .ok ⟨"GET", artifactPath artifactId, none⟩

/-- `get_content`. -/
def getContent (ref : ArtifactRef) : Except StorageClientError HttpRequest := do
  let artifactId ← requireArtifactId ref
  .ok ⟨"GET", artifactPath artifactId ++ "/content".toList, none⟩

/-- `head`. -/
def head (ref : ArtifactRef) : Except StorageClientError HttpRequest := do
  let artifactId ← requireArtifactId ref
  .ok ⟨"HEAD", artifactPath artifactId, none⟩

/-- `delete`. -/
def delete (ref : ArtifactRef) (policy : Option DeleteArtifactPolicy) :
    Except StorageClientError HttpRequest := do
  let artifactId ← requireArtifactId ref
  .ok ⟨"DELETE", deletePath artifactId policy, none⟩

/-- `verify`. -/
def verify (ref : ArtifactRef) : Except StorageClientError HttpRequest := do
  let artifactId ← requireArtifactId ref
  .ok ⟨"POST", artifactPath artifactId ++ "/verify".toList, none⟩

end AtomicMemory.StorageClient
