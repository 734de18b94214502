import AtomicMemory.Entities.Types

-- The operations of the entities clients, each of which is a request and what is made of the
-- body of its response, end in the validated model or in the clients' one error.

open PercentEncoding
open PyValue hiding none

namespace AtomicMemory.EntitiesClient

/-- `EntitiesClientError` with its message, which is left out where it has the `repr` of a
rejected argument. -/
structure EntitiesError extends EntitiesClientError where
  message : Option String
  bodyText : String

inductive EntitiesRaised
  | entities (e : EntitiesError)
  /-- A failure of the JSON parser that nothing has caught. -/
  | json (e : JsonFailure)

abbrev EntitiesResult (α : Type) : Type := Except EntitiesRaised α

/-- `list`. -/
def list (entityType : Option String) (page pageSize : Option ℤ) : HttpRequest :=
  let param (key : String) (value : Option String) :=
    (value.map fun value => (key.toList, value.toList)).toList
  let params := param "entity_type" entityType ++ param "page" (page.map toString) ++
    param "page_size" (pageSize.map toString)
  ⟨"GET", "/v1/entities".toList ++ queryString params, none⟩

/-- `merge`. -/
def merge (sourceEntityId targetEntityId sourceEntityType targetEntityType : String) :
    Except EntitiesClientError HttpRequest := do
  let sourceType ← validateEntityType sourceEntityType
  let targetType ← validateEntityType targetEntityType
  .ok ⟨"POST", "/v1/entities/merge".toList, some [
    ("source", .dict [("entity_type", .str sourceType.text), ("entity_id", .str sourceEntityId)]),
    ("target", .dict [("entity_type", .str targetType.text), ("entity_id", .str targetEntityId)])]⟩

section

variable (httpx : Httpx) (py : ResponsePydantic)

/-- `isinstance(exc, ValueError)`: of `json.loads` it is true of every failure. -/
def isValueError : JsonFailure → Bool
  | .jsonDecodeError _ | .unicodeDecodeError _ | .valueError _ => true

def invalidResponse (message : String) : EntitiesRaised :=
  .entities ⟨⟨"invalid_entities_response", 200⟩, some message, ""⟩

def decodeJson (request : HttpRequest) (response : RawResponse) : EntitiesResult PyValue :=
  match httpx.json response with
  | .ok v => .ok v
  | .error e =>
    if isValueError e then
      let preview := String.ofList ((httpx.text response).toList.take 200)
      .error (.entities ⟨⟨"invalid_entities_response", response.status⟩,
        some ("EntitiesClient: " ++ request.method ++ " " ++ String.ofList request.path ++
          " — server returned invalid JSON: " ++ e.message), preview⟩)
    else .error (.json e)

/-- `_validate_response`, with the validation of the model. -/
def validateResponse {α : Type} (ofItems : Items → Option α) (data : PyValue)
    (typeName : String) : EntitiesResult α :=
  match data with
  | .dict items =>
    match ofItems items with
    | some m => .ok m
    | none => .error (invalidResponse (typeName ++ ": server response failed validation"))
  | _ => .error (invalidResponse (typeName ++ ": server response is not a JSON object"))

def decodeAttributesEnvelope (body : PyValue) : EntitiesResult (List EntityAttribute) :=
  match body with
  | .dict items =>
    match Items.get items "attributes" with
    | .none => .ok []
    | .list rawAttrs =>
      rawAttrs.mapM fun item => validateResponse EntityAttribute.ofItems item "EntityAttribute"
    | _ => .error
      (invalidResponse "EntityAttribute: 'attributes' envelope value is not a list")
  | _ => .error (invalidResponse "EntityAttribute: server response is not a JSON object")

/-- `_network_error`. -/
def networkError (request : HttpRequest) (text : String) : EntitiesError :=
  ⟨⟨"network_error", 0⟩, some ("Network error while calling " ++ request.method ++ " " ++
    String.ofList request.path ++ ": " ++ text), ""⟩

/-- `_http_error`. -/
def httpError (request : HttpRequest) (response : RawResponse) : EntitiesError :=
  ⟨⟨"entities_request_failed", response.status⟩,
    some ("EntitiesClient: " ++ request.method ++ " " ++ String.ofList request.path ++
      " failed with " ++ toString response.status ++ ": " ++ httpx.text response),
    httpx.text response⟩

/-- `_request`; what is sent meets a response or an `httpx.RequestError` with its text. -/
def sendRequest (send : HttpRequest → Except String RawResponse) (request : HttpRequest) :
    EntitiesResult RawResponse :=
  match send request with
  | .error text => .error (.entities (networkError request text))
  | .ok response =>
    if response.isSuccess then .ok response
    else .error (.entities (httpError httpx request response))

inductive EntitiesOperation
  | profile (entityId entityType : String)
  | list (entityType : Option String) (page pageSize : Option ℤ)
  | get (entityId entityType : String)
  | delete (entityId entityType : String)
  | attributes (entityId entityType : String) (attributeName entity : Option String)
      (limit : Option ℤ)
  | memoryHistory (entityId memoryId entityType : String)
  | patchSettings (entityId entityType : String) (extractionPrompt : Option String)
      (memoryKinds : Option (List String)) (decayEnabled : Option Bool)
  | merge (sourceEntityId targetEntityId sourceEntityType targetEntityType : String)

namespace EntitiesOperation

@[reducible] def Result : EntitiesOperation → Type
  | profile .. => EntityProfile
  | list .. => EntityListResult
  | get .. => EntityDetail
  | delete .. => DeleteEntityResult
  | attributes .. => List EntityAttribute
  | memoryHistory .. => MemoryHistory
  | patchSettings .. => EntitySettings
  | merge .. => MergeEntitiesResult

def request : EntitiesOperation → Except EntitiesClientError HttpRequest
  | profile entityId entityType => EntitiesClient.profile entityId entityType
  | list entityType page pageSize => .ok (EntitiesClient.list entityType page pageSize)
  | get entityId entityType => EntitiesClient.get entityId entityType
  | delete entityId entityType => EntitiesClient.delete entityId entityType
  | attributes entityId entityType attributeName entity limit =>
    EntitiesClient.attributes entityId entityType attributeName entity limit
  | memoryHistory entityId memoryId entityType =>
    EntitiesClient.memoryHistory entityId memoryId entityType
  | patchSettings entityId entityType extractionPrompt memoryKinds decayEnabled =>
    EntitiesClient.patchSettings entityId entityType extractionPrompt memoryKinds decayEnabled
  | merge sourceEntityId targetEntityId sourceEntityType targetEntityType =>
    EntitiesClient.merge sourceEntityId targetEntityId sourceEntityType targetEntityType

def receive : (op : EntitiesOperation) → PyValue → EntitiesResult op.Result
  | profile .., data => validateResponse (EntityProfile.ofItems py) data "EntityProfile"
  | list .., data => validateResponse (EntityListResult.ofItems py) data "EntityListResult"
  | get .., data => validateResponse (EntityDetail.ofItems py) data "EntityDetail"
  | delete .., data => validateResponse (DeleteEntityResult.ofItems py) data "DeleteEntityResult"
  | attributes .., data => decodeAttributesEnvelope data
  | memoryHistory .., data => validateResponse MemoryHistory.ofItems data "MemoryHistory"
  | patchSettings .., data => validateResponse (EntitySettings.ofItems py) data "EntitySettings"
  | merge .., data => validateResponse (MergeEntitiesResult.ofItems py) data "MergeEntitiesResult"

/-- The call of a client; the asynchronous one awaits the response and does the same. -/
def run (send : HttpRequest → Except String RawResponse) (op : EntitiesOperation) :
    EntitiesResult op.Result := do
  let request ← op.request.mapError fun e => .entities ⟨e, none, ""⟩
  let response ← sendRequest httpx send request
  let data ← decodeJson httpx request response
  op.receive py data

def Validated : (op : EntitiesOperation) → PyValue → op.Result → Prop
  | profile .., data, result => modelOf (EntityProfile.ofItems py) data = some result
  | list .., data, result => modelOf (EntityListResult.ofItems py) data = some result
  | get .., data, result => modelOf (EntityDetail.ofItems py) data = some result
  | delete .., data, result => modelOf (DeleteEntityResult.ofItems py) data = some result
  | attributes .., data, result => ∃ body : Items, data = .dict body ∧
      (body.get "attributes" = .none ∧ result = [] ∨
        ∃ rawAttrs, body.get "attributes" = .list rawAttrs ∧
          List.Forall₂ (fun item attr => modelOf EntityAttribute.ofItems item = some attr)
            rawAttrs result)
  | memoryHistory .., data, result => modelOf MemoryHistory.ofItems data = some result
  | patchSettings .., data, result => modelOf (EntitySettings.ofItems py) data = some result
  | merge .., data, result => modelOf (MergeEntitiesResult.ofItems py) data = some result

end EntitiesOperation

def Contained {α : Type} (result : EntitiesResult α) : Prop :=
  result.Raises fun e => ∃ error, e = .entities error

theorem contained_ok {α : Type} (a : α) : Contained (.ok a) := Except.raises_ok a

theorem contained_error {α : Type} (error : EntitiesError) :
    Contained (.error (.entities error) : EntitiesResult α) :=
  Except.raises_error_iff.mpr ⟨error, rfl⟩

theorem validateResponse_contained {α : Type} (ofItems : Items → Option α) (data : PyValue)
    (typeName : String) : Contained (validateResponse ofItems data typeName) := by
  unfold validateResponse
  split
  · split
    · exact contained_ok _
    · exact contained_error _
  · exact contained_error _

theorem decodeAttributesEnvelope_contained (body : PyValue) :
    Contained (decodeAttributesEnvelope body) := by
  unfold decodeAttributesEnvelope
  split
  · split
    · exact contained_ok []
    · apply Except.raises_mapM
      intro item _
      exact validateResponse_contained _ item _
    · exact contained_error _
  · exact contained_error _

theorem decodeJson_contained (request : HttpRequest) (response : RawResponse) :
    Contained (decodeJson httpx request response) := by
  unfold decodeJson
  split
  · exact contained_ok _
  · rename_i e _
    have hvalue : isValueError e = true := by cases e <;> rfl
    rw [if_pos hvalue]
    exact contained_error _

theorem sendRequest_contained (send : HttpRequest → Except String RawResponse)
    (request : HttpRequest) : Contained (sendRequest httpx send request) := by
  unfold sendRequest
  split
  · exact contained_error _
  · split
    · exact contained_ok _
    · exact contained_error _

theorem receive_contained (op : EntitiesOperation) (data : PyValue) :
    Contained (op.receive py data) := by
  cases op with
  | attributes => exact decodeAttributesEnvelope_contained data
  | _ => exact validateResponse_contained _ _ _

theorem run_contained (send : HttpRequest → Except String RawResponse) (op : EntitiesOperation) :
    Contained (op.run httpx py send) := by
  unfold EntitiesOperation.run
  apply Except.raises_bind
  · cases op.request with
    | ok request => exact contained_ok request
    | error e => exact contained_error _
  · intro request _
    apply Except.raises_bind (sendRequest_contained httpx send request)
    intro response _
    apply Except.raises_bind (decodeJson_contained httpx request response)
    intro data _
    exact receive_contained py op data

theorem validateResponse_ok {α : Type} {ofItems : Items → Option α} {data : PyValue}
    {typeName : String} {m : α} (h : validateResponse ofItems data typeName = .ok m) :
    modelOf ofItems data = some m := by
  unfold validateResponse at h
  split at h
  · split at h
    · rename_i items m' hm
      cases h
      exact hm
    · cases h
  · cases h

theorem decodeAttributesEnvelope_ok {data : PyValue} {attrs : List EntityAttribute}
    (h : decodeAttributesEnvelope data = .ok attrs) : ∃ body : Items, data = .dict body ∧
      (body.get "attributes" = .none ∧ attrs = [] ∨
        ∃ rawAttrs, body.get "attributes" = .list rawAttrs ∧
          List.Forall₂ (fun item attr => modelOf EntityAttribute.ofItems item = some attr)
            rawAttrs attrs) := by
  unfold decodeAttributesEnvelope at h
  split at h
  · rename_i body
    refine ⟨body, rfl, ?_⟩
    split at h
    · rename_i hnone
      cases h
      exact .inl ⟨hnone, rfl⟩
    · rename_i rawAttrs hattrs
      exact .inr ⟨rawAttrs, hattrs, (Except.mapM_ok h).imp fun _ _ => validateResponse_ok⟩
    · cases h
  · cases h

theorem receive_ok {op : EntitiesOperation} {data : PyValue} {result : op.Result}
    (h : op.receive py data = .ok result) : op.Validated py data result := by
  cases op with
  | attributes => exact decodeAttributesEnvelope_ok h
  | _ => exact validateResponse_ok h

theorem sendRequest_ok {send : HttpRequest → Except String RawResponse} {request : HttpRequest}
    {response : RawResponse} (h : sendRequest httpx send request = .ok response) :
    send request = .ok response ∧ response.isSuccess = true := by
  unfold sendRequest at h
  split at h
  · cases h
  · rename_i response' hsend
    split at h
    · rename_i hsuccess
      cases h
      exact ⟨hsend, hsuccess⟩
    · cases h

theorem decodeJson_ok {request : HttpRequest} {response : RawResponse} {data : PyValue}
    (h : decodeJson httpx request response = .ok data) : httpx.json response = .ok data := by
  unfold decodeJson at h
  split at h
  · rename_i v hv
    rw [hv, Except.ok.inj h]
  · split at h
    · cases h
    · cases h

/-- Whatever the transport does, a call returns what validation makes of a successful body, or
it raises an entities error. -/
theorem run_validated_or_error (send : HttpRequest → Except String RawResponse)
    (op : EntitiesOperation) :
    (∃ result request response data, op.run httpx py send = .ok result ∧
        op.request = .ok request ∧ send request = .ok response ∧ response.isSuccess = true ∧
        httpx.json response = .ok data ∧ op.Validated py data result) ∨
      ∃ error, op.run httpx py send = .error (.entities error) := by
  cases hrun : op.run httpx py send with
  | error e =>
    obtain ⟨error, rfl⟩ := run_contained httpx py send op e hrun
    exact .inr ⟨error, rfl⟩
  | ok result =>
    left
    obtain ⟨request, hrequest, h⟩ := Except.bind_ok hrun
    obtain ⟨response, hresponse, h⟩ := Except.bind_ok h
    obtain ⟨data, hdata, hreceive⟩ := Except.bind_ok h
    obtain ⟨hsend, hsuccess⟩ := sendRequest_ok httpx hresponse
    exact ⟨result, request, response, data, rfl, Except.ok_of_mapError hrequest, hsend, hsuccess,
      decodeJson_ok httpx hdata, receive_ok py hreceive⟩

end

end AtomicMemory.EntitiesClient
