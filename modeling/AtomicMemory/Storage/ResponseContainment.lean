import AtomicMemory.Storage.Mapping

-- The JSON operations of the storage clients, each of which is a request and what is made of the
-- body of its response, and what may escape from them.

open PercentEncoding
open PyValue hiding none

namespace AtomicMemory.StorageClient

structure StorageRequest extends HttpRequest where
  contentType : Option String
  /-- What the metadata header carries, as the base64 of its JSON. -/
  metadata : Option Items
  content : Option (List UInt8)

def StorageRequest.ofHttp (request : HttpRequest) : StorageRequest := ⟨request, none, none, none⟩

structure PutPointerInput where
  uri : String
  contentType : String
  sizeBytes : Option ℤ
  contentHash : Option String
  metadata : Option Items

structure PutManagedInput where
  body : List UInt8
  contentType : String
  discloseContentHash : Bool
  metadata : Option Items

inductive PutArtifactInput
  | pointer (input : PutPointerInput)
  | managed (input : PutManagedInput)

def pointerPayload (input : PutPointerInput) : Items :=
  [("mode", .str "pointer"), ("uri", .str input.uri), ("content_type", .str input.contentType)] ++
    optItem "size_bytes" input.sizeBytes .int ++ optItem "content_hash" input.contentHash .str ++
    optItem "metadata" input.metadata .dict

def managedPath (discloseContentHash : Bool) : List Char :=
  let query := [("mode".toList, "managed".toList)] ++
    if discloseContentHash then [("disclose_content_hash".toList, "true".toList)] else []
  "/v1/storage/artifacts?".toList ++ urlencode query

/-- `put`. -/
def put : PutArtifactInput → StorageRequest
  | .pointer input => ⟨⟨"POST", "/v1/storage/artifacts".toList, some (pointerPayload input)⟩,
      some "application/json", none, none⟩
  | .managed input => ⟨⟨"POST", managedPath input.discloseContentHash, none⟩,
      some input.contentType, input.metadata, some input.body⟩

/-- `capabilities`. -/
def capabilities : StorageRequest :=
  .ofHttp ⟨"GET", "/v1/storage/capabilities".toList, none⟩

/-- `delete` of the asynchronous client, which writes the policy as it is. -/
def asyncDelete (ref : ArtifactRef) (policy : Option DeleteArtifactPolicy) :
    Except StorageClientError HttpRequest := do
  let artifactId ← requireArtifactId ref
  let path := match policy with
    | some policy => artifactPath artifactId ++ "?policy=".toList ++ policy.text.toList
    | none => artifactPath artifactId
  .ok ⟨"DELETE", path, none⟩

theorem asyncDelete_eq (ref : ArtifactRef) (policy : Option DeleteArtifactPolicy) :
    asyncDelete ref policy = delete ref policy := by
  have hquery (policy : DeleteArtifactPolicy) : "?policy=".toList ++ policy.text.toList =
      '?' :: urlencode [("policy".toList, policy.text.toList)] := by
    cases policy <;> decide
  unfold asyncDelete delete deletePath
  cases policy with
  | none => rfl
  | some policy => simp only [List.append_assoc, hquery]

inductive StorageOperation
  | capabilities
  | put (input : PutArtifactInput)
  | get (ref : ArtifactRef)
  | delete (ref : ArtifactRef) (policy : Option DeleteArtifactPolicy)
  | verify (ref : ArtifactRef)

inductive Client
  | sync
  | async

namespace StorageOperation

@[reducible] def Result : StorageOperation → Type
  | capabilities => StorageCapabilities
  | put _ | get _ => StoredArtifact
  | delete _ _ => DeleteArtifactResult
  | verify _ => VerificationResult

/-- The request that it sends, or the error of a reference without an id. -/
def request (client : Client) : StorageOperation → Except StorageClientError StorageRequest
  | capabilities => .ok StorageClient.capabilities
  | put input => .ok (StorageClient.put input)
  | get ref => (StorageClient.get ref).map .ofHttp
  | delete ref policy =>
    match client with
    | .sync => (StorageClient.delete ref policy).map .ofHttp
    | .async => (asyncDelete ref policy).map .ofHttp
  | verify ref => (StorageClient.verify ref).map .ofHttp

def artifactId : StorageOperation → Option String
  | capabilities | put _ => none
  | get ref | delete ref _ | verify ref => ref.artifactId

end StorageOperation

section

variable (httpx : Httpx) (python : Python) (py : ResponsePydantic)

/-- `_network_error`. -/
def networkError (request : StorageRequest) (text : String) : StorageError :=
  ⟨⟨"Network error while calling " ++ request.method ++ " " ++ String.ofList request.path ++ ": " ++
      text, "network_error", 0⟩, .storageClientError, ""⟩

/-- `_request`; what is sent meets a response or an `httpx.RequestError` with its text. -/
def sendRequest (send : StorageRequest → Except String RawResponse) (request : StorageRequest)
    (artifactId : Option String) : StorageResult RawResponse :=
  match send request with
  | .error text => .error (.storage (networkError request text))
  | .ok response =>
    if response.isSuccess then .ok response
    else .error (raiseForStorageResponse httpx python response artifactId)

def jsonResponse (response : RawResponse) : StorageResult PyValue :=
  match httpx.json response with
  | .ok v => .ok v
  | .error e =>
    if e.isJsonDecodeError then
      .error (.storage ⟨⟨"storage API response is not valid JSON", "invalid_storage_response",
        response.status⟩, .storageClientError, httpx.text response⟩)
    else .error (.json e)

def StorageOperation.receive : (op : StorageOperation) → PyValue → StorageResult op.Result
  | .capabilities, raw =>
    validateResponseModel (modelOf (StorageCapabilities.ofItems py)) raw "StorageCapabilities"
  | .put _, raw | .get _, raw => mapStoredArtifact py raw
  | .delete _ _, raw => mapDeleteResult python raw
  | .verify _, raw => mapVerifyResult python raw

def StorageOperation.run (client : Client) (send : StorageRequest → Except String RawResponse)
    (op : StorageOperation) : StorageResult op.Result := do
  let request ← (op.request client).mapError fun e => .storage ⟨e, .storageClientError, ""⟩
  let response ← sendRequest httpx python send request op.artifactId
  let raw ← jsonResponse httpx response
  op.receive python py raw

/-- The body of a success, or the text of an error that has any, is JSON, or the parser raises
a `JSONDecodeError` on it. -/
def Readable (response : RawResponse) : Prop :=
  if response.isSuccess then SyntaxErrorOnly (httpx.json response)
  else httpx.text response = "" ∨ SyntaxErrorOnly (httpx.loads (httpx.text response))

theorem receive_contained (op : StorageOperation) (raw : PyValue) :
    Contained (op.receive python py raw) := by
  cases op with
  | capabilities => exact validateResponseModel_contained _ _ _
  | put input => exact mapStoredArtifact_contained py raw
  | get ref => exact mapStoredArtifact_contained py raw
  | delete ref policy => exact mapDeleteResult_contained python raw
  | verify ref => exact mapVerifyResult_contained python raw

theorem contained_error_iff {α : Type} (e : StorageRaised) :
    Contained (.error e : StorageResult α) ↔ ∃ error, e = .storage error :=
  Except.raises_error_iff

theorem jsonResponse_contained_iff (response : RawResponse) :
    Contained (jsonResponse httpx response) ↔ SyntaxErrorOnly (httpx.json response) := by
  unfold jsonResponse SyntaxErrorOnly
  cases hjson : httpx.json response with
  | ok v =>
    refine ⟨fun _ e he => ?_, fun _ => contained_ok v⟩
    cases he
  | error e =>
    cases he : e.isJsonDecodeError with
    | true =>
      simp only [he, if_true]
      refine ⟨fun _ e' he' => ?_, fun _ => contained_storage _⟩
      cases he'
      exact he
    | false =>
      simp only [he, Bool.false_eq_true, if_false, contained_error_iff, reduceCtorEq, exists_false,
        false_iff]
      intro h
      rw [h e rfl] at he
      cases he

theorem receive_response_iff (op : StorageOperation) (response : RawResponse) :
    Contained ((if response.isSuccess then .ok response
        else .error (raiseForStorageResponse httpx python response op.artifactId)) >>= fun response =>
      jsonResponse httpx response >>= op.receive python py) ↔ Readable httpx response := by
  unfold Readable
  cases response.isSuccess with
  | true =>
    simp only [if_true]
    rw [← jsonResponse_contained_iff]
    show Contained (jsonResponse httpx response >>= op.receive python py) ↔ _
    apply Except.raises_bind_iff
    intro raw _
    exact receive_contained python py op raw
  | false =>
    simp only [Bool.false_eq_true, if_false]
    rw [← raiseForStorageResponse_storage_iff httpx python response op.artifactId]
    exact contained_error_iff _

/-- An operation ends in its model or in a storage error exactly when the response to its
request is readable. -/
theorem run_contained_iff (client : Client)
    (send : StorageRequest → Except String RawResponse) (op : StorageOperation) :
    (∀ e, op.run httpx python py client send = .error e → ∃ error, e = .storage error) ↔
      ∀ request response, op.request client = .ok request → send request = .ok response →
        Readable httpx response := by
  change Contained (op.run httpx python py client send) ↔ _
  unfold StorageOperation.run
  cases hrequest : op.request client with
  | error e =>
    refine ⟨fun _ request response h => ?_, fun _ => contained_storage _⟩
    cases h
  | ok request =>
    cases hsend : send request with
    | error text =>
      simp only [Except.mapError, bind, Except.bind, sendRequest, hsend]
      refine ⟨fun _ request' response h h' => ?_, fun _ => contained_storage _⟩
      cases h
      rw [hsend] at h'
      cases h'
    | ok response =>
      have hsent : sendRequest httpx python send request op.artifactId =
          if response.isSuccess then .ok response
          else .error (raiseForStorageResponse httpx python response op.artifactId) := by
        rw [sendRequest, hsend]
      change Contained (sendRequest httpx python send request op.artifactId >>= fun response =>
        jsonResponse httpx response >>= op.receive python py) ↔ _
      rw [hsent]
      refine (receive_response_iff httpx python py op response).trans ?_
      constructor
      · intro h request' response' hr hs
        cases hr
        rw [hsend] at hs
        cases hs
        exact h
      · intro h
        exact h request response rfl hsend

/-- A success whose body is not UTF-8. -/
theorem run_undecodable :
    ¬∀ e, StorageOperation.capabilities.run .reference .reference .reference .sync
      (fun _ => .ok ⟨200, [], [0xff]⟩) = .error e → ∃ error, e = .storage error := by
  intro h
  obtain ⟨error, herror⟩ := h _ rfl
  cases herror

end

end AtomicMemory.StorageClient
