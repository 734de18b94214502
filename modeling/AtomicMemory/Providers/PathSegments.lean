import AtomicMemory.Entities.EntitiesClient
import AtomicMemory.Lib.DotSegments
import AtomicMemory.Providers.AtomicMemoryHandle
import AtomicMemory.Providers.HindsightProvider
import AtomicMemory.Storage.StorageClient

-- The routes that quote their ids, as whoever splits the path that is sent sees them.

open PercentEncoding

namespace AtomicMemory

/-- The path of an API's base URL, without the `/` at its end. -/
structure BasePath where
  text : List Char
  rooted : Rooted text

structure Clients where
  base : BasePath
  handle : AtomicMemoryHandle.Handle
  entitiesBase : BasePath
  storageBase : BasePath
  hindsightBase : BasePath
  hindsight : HindsightProvider.Provider
  hindsightConfig : HindsightProvider.Config
  python : Python
  pydantic : Pydantic
  bool : PyValue → Option Bool

/-- The calls that put an id, an entity or a user into their path. -/
inductive PathCall
  | handleGet (id : String) (scope : AtomicMemoryHandle.MemoryScope String)
  | handleDelete (id : String) (scope : AtomicMemoryHandle.MemoryScope String)
  | entityProfile (entityId entityType : String)
  | entityGet (entityId entityType : String)
  | entityDelete (entityId entityType : String)
  | entityAttributes (entityId entityType : String) (attributeName entity : Option String)
      (limit : Option ℤ)
  | entityMemoryHistory (entityId memoryId entityType : String)
  | entityPatchSettings (entityId entityType : String) (extractionPrompt : Option String)
      (memoryKinds : Option (List String)) (decayEnabled : Option Bool)
  | storageGet (ref : StorageClient.ArtifactRef)
  | storageGetContent (ref : StorageClient.ArtifactRef)
  | storageHead (ref : StorageClient.ArtifactRef)
  | storageDelete (ref : StorageClient.ArtifactRef)
      (policy : Option StorageClient.DeleteArtifactPolicy)
  | storageVerify (ref : StorageClient.ArtifactRef)
  | hindsightGet (ref : MemoryRef)
  | hindsightDelete (ref : MemoryRef)
  | hindsightRetain (input : IngestInput)
  | hindsightRecall (request : SearchRequest)
  | hindsightList (request : ListRequest)

inductive ClientKind
  | handle
  | entities
  | storage
  | hindsight

inductive Method
  | get
  | head
  | post
  | delete
  | patch

def Method.text : Method → String
  | get => "GET"
  | head => "HEAD"
  | post => "POST"
  | delete => "DELETE"
  | patch => "PATCH"

namespace PathCall

section

variable (c : Clients)

def request : PathCall → Option HttpRequest
  | handleGet id scope => some (c.handle.get c.python c.pydantic id scope).request
  | handleDelete id scope => some (c.handle.delete id scope).request
  | entityProfile entityId entityType => (EntitiesClient.profile entityId entityType).toOption
  | entityGet entityId entityType => (EntitiesClient.get entityId entityType).toOption
  | entityDelete entityId entityType => (EntitiesClient.delete entityId entityType).toOption
  | entityAttributes entityId entityType attributeName entity limit =>
    (EntitiesClient.attributes entityId entityType attributeName entity limit).toOption
  | entityMemoryHistory entityId memoryId entityType =>
    (EntitiesClient.memoryHistory entityId memoryId entityType).toOption
  | entityPatchSettings entityId entityType extractionPrompt memoryKinds decayEnabled =>
    (EntitiesClient.patchSettings entityId entityType extractionPrompt memoryKinds
      decayEnabled).toOption
  | storageGet ref => (StorageClient.get ref).toOption
  | storageGetContent ref => (StorageClient.getContent ref).toOption
  | storageHead ref => (StorageClient.head ref).toOption
  | storageDelete ref policy => (StorageClient.delete ref policy).toOption
  | storageVerify ref => (StorageClient.verify ref).toOption
  | hindsightGet ref => ((c.hindsight.get c.python ref).map (·.request)).toOption
  | hindsightDelete ref => ((c.hindsight.delete ref).map (·.request)).toOption
  | hindsightRetain input => ((c.hindsight.ingest c.pydantic c.bool input).map (·.request)).toOption
  | hindsightRecall request =>
    ((c.hindsight.search c.python c.pydantic c.hindsightConfig request).map (·.request)).toOption
  | hindsightList request => ((c.hindsight.list c.python request).map (·.request)).toOption

end

def client : PathCall → ClientKind
  | handleGet .. | handleDelete .. => .handle
  | entityProfile .. | entityGet .. | entityDelete .. | entityAttributes ..
  | entityMemoryHistory .. | entityPatchSettings .. => .entities
  | storageGet .. | storageGetContent .. | storageHead .. | storageDelete .. | storageVerify .. =>
    .storage
  | hindsightGet .. | hindsightDelete .. | hindsightRetain .. | hindsightRecall ..
  | hindsightList .. => .hindsight

def method : PathCall → Method
  | handleGet .. | entityProfile .. | entityGet .. | entityAttributes .. | entityMemoryHistory ..
  | storageGet .. | storageGetContent .. | hindsightGet .. | hindsightList .. => .get
  | storageHead .. => .head
  | storageVerify .. | hindsightRetain .. | hindsightRecall .. => .post
  | handleDelete .. | entityDelete .. | storageDelete .. | hindsightDelete .. => .delete
  | entityPatchSettings .. => .patch

def entityPieces (entityType entityId : String) : List Piece :=
  [.literal "v1".toList, .literal "entities".toList, .literal entityType.toList,
    .argument entityId.toList]

def artifactPieces (ref : StorageClient.ArtifactRef) : List Piece :=
  [.literal "v1".toList, .literal "storage".toList, .literal "artifacts".toList,
    .argument (ref.artifactId.getD "").toList]

def bankPieces (scope : Scope String) : List Piece :=
  [.literal "banks".toList, .argument (scope.user.getD "").toList, .literal "memories".toList]

def pieces : PathCall → List Piece
  | handleGet id _ | handleDelete id _ => [.literal "memories".toList, .argument id.toList]
  | entityProfile entityId entityType =>
    entityPieces entityType entityId ++ [.literal "profile".toList]
  | entityGet entityId entityType | entityDelete entityId entityType =>
    entityPieces entityType entityId
  | entityAttributes entityId entityType .. =>
    entityPieces entityType entityId ++ [.literal "attributes".toList]
  | entityMemoryHistory entityId memoryId entityType =>
    entityPieces entityType entityId ++
      [.literal "memories".toList, .argument memoryId.toList, .literal "history".toList]
  | entityPatchSettings entityId entityType .. =>
    entityPieces entityType entityId ++ [.literal "settings".toList]
  | storageGet ref | storageHead ref | storageDelete ref _ => artifactPieces ref
  | storageGetContent ref => artifactPieces ref ++ [.literal "content".toList]
  | storageVerify ref => artifactPieces ref ++ [.literal "verify".toList]
  | hindsightGet ref | hindsightDelete ref => bankPieces ref.scope ++ [.argument ref.id.toList]
  | hindsightRetain input => bankPieces input.scope
  | hindsightRecall request => bankPieces request.scope ++ [.literal "recall".toList]
  | hindsightList request => bankPieces request.scope ++ [.literal "list".toList]

def arguments (call : PathCall) : ℕ := call.pieces.countP Piece.isArgument

/-- The other routes of the handle that are read with `GET` at `/memories/{name}`. -/
def fixedReads : List String := ["list", "cap", "stats", "lessons", "health"]

/-- The paths of the client's other routes with the call's method and no argument. -/
def fixedPaths : PathCall → List (List Segment)
  | handleGet .. => fixedReads.map fun name => ["memories".toList, name.toList]
  | _ => []

section

variable (c : Clients)

def base : PathCall → BasePath
  | handleGet .. | handleDelete .. => c.base
  | entityProfile .. | entityGet .. | entityDelete .. | entityAttributes ..
  | entityMemoryHistory .. | entityPatchSettings .. => c.entitiesBase
  | storageGet .. | storageGetContent .. | storageHead .. | storageDelete .. | storageVerify .. =>
    c.storageBase
  | hindsightGet .. | hindsightDelete .. | hindsightRetain .. | hindsightRecall ..
  | hindsightList .. => c.hindsightBase

def pathPrefix (call : PathCall) : List Char :=
  match call.client with
  | .handle => AtomicMemoryProvider.normalizeApiVersion c.handle.apiVersion
  | .entities | .storage => []
  | .hindsight => '/' :: c.hindsight.apiVersion ++ '/' :: c.hindsight.projectId

def root (call : PathCall) : List Char := (call.base c).text ++ call.pathPrefix c

def target (call : PathCall) (request : HttpRequest) : List Char :=
  (call.base c).text ++ request.path

/-- The path that is sent has the route's segments after what the client is configured
with, each decoding to what the call put there; it is the path of no fixed route; and a
call of the client and method that it also fits asks for the same, or for more. -/
def Integrity (call : PathCall) (request : HttpRequest) : Prop :=
  ∃ segs, Reaches (call.root c) (call.target c request) segs ∧
    List.Forall₂ Piece.Fits call.pieces segs ∧ segs ∉ call.fixedPaths ∧
    ∀ other : PathCall, other.client = call.client → other.method = call.method →
      List.Forall₂ Piece.Fits other.pieces segs →
        other.pieces = call.pieces ∨ call.arguments < other.arguments

/-- The call's id is not the name of a fixed route in its place. -/
def Unshared : PathCall → Prop
  | handleGet id _ => id ∉ fixedReads
  | hindsightGet ref => ref.id ≠ "list"
  | _ => True

end

def QueryTail (tail : List Char) : Prop := tail = [] ∨ ∃ query, tail = '?' :: query

/-- The request's method is the route's, and its path the route's pieces after `root`. -/
def MadeOf (request : HttpRequest) (method : Method) (root : List Char) (pieces : List Piece) :
    Prop :=
  request.method = method.text ∧ ∃ tail, QueryTail tail ∧
    request.path = root ++ absolutePath (pieces.map Piece.segment) ++ tail

theorem toOption_ok {ε α : Type} {x : Except ε α} {a : α} (h : x.toOption = some a) :
    x = .ok a := by
  cases x with
  | error e => cases h
  | ok b => exact congrArg Except.ok (Option.some.inj h)

theorem validateEntityType_ok {value : String} {entityType : EntitiesClient.EntityType}
    (h : EntitiesClient.validateEntityType value = .ok entityType) : entityType.text = value := by
  unfold EntitiesClient.validateEntityType at h
  split at h
  · rename_i hvalue
    cases h
    exact hvalue.symm
  split at h
  · rename_i hvalue
    cases h
    exact hvalue.symm
  split at h
  · rename_i hvalue
    cases h
    exact hvalue.symm
  · cases h

theorem madeOf_handle (h : AtomicMemoryHandle.Handle) (id : String)
    (scope : AtomicMemoryHandle.MemoryScope String) (method : Method) :
    MadeOf ⟨method.text, h.memoryPath id scope, none⟩ method
      (AtomicMemoryProvider.normalizeApiVersion h.apiVersion)
      [.literal "memories".toList, .argument id.toList] := by
  refine ⟨rfl, '?' :: urlencode (AtomicMemoryHandle.scopeToQueryPairs
    (AtomicMemoryHandle.stripReadFilters scope) false false), .inr ⟨_, rfl⟩, ?_⟩
  have hliteral : "/memories/".toList = '/' :: ("memories".toList ++ ['/']) := by decide
  simp only [AtomicMemoryHandle.Handle.memoryPath, AtomicMemoryHandle.Handle.route, hliteral,
    List.map_cons, List.map_nil, Piece.segment, absolutePath_cons, absolutePath_nil,
    List.append_nil, List.append_assoc, List.cons_append, List.nil_append]

theorem entityPath_eq (entityType : EntitiesClient.EntityType) (entityId : String) :
    EntitiesClient.entityPath entityType entityId =
      absolutePath ((entityPieces entityType.text entityId).map Piece.segment) := by
  have hliteral : "/v1/entities/".toList =
      '/' :: ("v1".toList ++ '/' :: ("entities".toList ++ ['/'])) := rfl
  unfold EntitiesClient.entityPath entityPieces
  rw [hliteral]
  generalize "v1".toList = version
  generalize "entities".toList = entities
  simp [Piece.segment]

theorem artifactPath_eq {ref : StorageClient.ArtifactRef} {artifactId : String}
    (h : StorageClient.requireArtifactId ref = .ok artifactId) :
    StorageClient.artifactPath artifactId =
      absolutePath ((artifactPieces ref).map Piece.segment) := by
  have hid : ref.artifactId.getD "" = artifactId := by
    unfold StorageClient.requireArtifactId at h
    split at h
    · rename_i hid
      cases h
      rw [hid]
      rfl
    · cases h
  have hliteral : "/v1/storage/artifacts/".toList =
      '/' :: ("v1".toList ++ '/' :: ("storage".toList ++ '/' :: ("artifacts".toList ++ ['/']))) :=
    rfl
  unfold StorageClient.artifactPath artifactPieces
  rw [hliteral, hid]
  generalize "v1".toList = version
  generalize "storage".toList = storage
  generalize "artifacts".toList = artifacts
  simp [Piece.segment]

theorem bankPath_eq (p : HindsightProvider.Provider) (scope : Scope String) :
    p.bankPath scope ++ "/memories".toList =
      '/' :: p.apiVersion ++ '/' :: p.projectId ++
        absolutePath ((bankPieces scope).map Piece.segment) := by
  have hbanks : "/banks/".toList = '/' :: ("banks".toList ++ ['/']) := by decide
  have hmemories : "/memories".toList = '/' :: "memories".toList := by decide
  simp only [HindsightProvider.Provider.bankPath, HindsightProvider.Provider.route,
    HindsightProvider.bankIdForScope, hbanks, hmemories, bankPieces, List.map_cons, List.map_nil,
    Piece.segment, absolutePath_cons, absolutePath_nil, List.append_nil, List.append_assoc,
    List.cons_append, List.nil_append]

theorem bankRoute_eq (p : HindsightProvider.Provider) (scope : Scope String) (piece : Piece) :
    p.bankPath scope ++ ("/memories".toList ++ '/' :: piece.segment) =
      '/' :: p.apiVersion ++ '/' :: p.projectId ++
        absolutePath ((bankPieces scope ++ [piece]).map Piece.segment) := by
  rw [← List.append_assoc, bankPath_eq, List.append_assoc, List.map_append, absolutePath_append]
  simp

theorem queryTail_queryString (params : List (List Char × List Char)) :
    QueryTail (EntitiesClient.queryString params) := by
  unfold EntitiesClient.queryString
  split
  · exact .inl rfl
  · exact .inr ⟨_, rfl⟩

theorem madeOf_entity {entityId value : String} {method : Method} {request : HttpRequest}
    {build : EntitiesClient.EntityType → HttpRequest} (rest : List Piece) {tail : List Char}
    (htail : QueryTail tail)
    (hmethod : ∀ entityType, (build entityType).method = method.text)
    (hpath : ∀ entityType, (build entityType).path =
      EntitiesClient.entityPath entityType entityId ++
        absolutePath (rest.map Piece.segment) ++ tail)
    (h : (do
      let entityType ← EntitiesClient.validateEntityType value
      .ok (build entityType) : Except EntitiesClient.EntitiesClientError HttpRequest).toOption =
        some request) :
    MadeOf request method [] (entityPieces value entityId ++ rest) := by
  obtain ⟨entityType, htype, hbuild⟩ := Except.bind_ok (toOption_ok h)
  cases hbuild
  refine ⟨hmethod entityType, tail, htail, ?_⟩
  rw [hpath, entityPath_eq, validateEntityType_ok htype, List.map_append, absolutePath_append]
  rfl

theorem madeOf_artifact {ref : StorageClient.ArtifactRef} {method : Method}
    {request : HttpRequest} {build : String → HttpRequest} (rest : List Piece) {tail : List Char}
    (htail : QueryTail tail) (hmethod : ∀ artifactId, (build artifactId).method = method.text)
    (hpath : ∀ artifactId, (build artifactId).path =
      StorageClient.artifactPath artifactId ++ absolutePath (rest.map Piece.segment) ++ tail)
    (h : (do
      let artifactId ← StorageClient.requireArtifactId ref
      .ok (build artifactId) : Except StorageClient.StorageClientError HttpRequest).toOption =
        some request) :
    MadeOf request method [] (artifactPieces ref ++ rest) := by
  obtain ⟨artifactId, hid, hbuild⟩ := Except.bind_ok (toOption_ok h)
  cases hbuild
  refine ⟨hmethod artifactId, tail, htail, ?_⟩
  rw [hpath, artifactPath_eq hid, List.map_append, absolutePath_append]
  rfl

theorem madeOf_path {request : HttpRequest} {method : Method} {root : List Char}
    {pieces : List Piece} (hmethod : request.method = method.text)
    (hpath : request.path = root ++ absolutePath (pieces.map Piece.segment)) :
    MadeOf request method root pieces := by
  refine ⟨hmethod, [], .inl rfl, ?_⟩
  rw [hpath, List.append_nil]

theorem hindsight_request {α : Type} {initialized : Bool} {required : List String}
    {operation : String} {scope : Scope String} {method : Except PyError (Call α)}
    {request : HttpRequest}
    (h : ((runOperation initialized required operation scope method).map (·.request)).toOption =
      some request) : ∃ inner, method = .ok inner ∧ inner.request = request := by
  obtain ⟨call, hcall, rfl⟩ := Except.of_map_ok (toOption_ok h)
  obtain ⟨inner, hinner, hrequest, -, -⟩ := runOperation_ok hcall
  exact ⟨inner, hinner, hrequest.symm⟩

section

variable {c : Clients} {call : PathCall} {request : HttpRequest}

theorem madeOf_request (h : call.request c = some request) :
    MadeOf request call.method (call.pathPrefix c) call.pieces := by
  cases call with
  | handleGet id scope =>
    cases h
    exact madeOf_handle c.handle id scope .get
  | handleDelete id scope =>
    cases h
    exact madeOf_handle c.handle id scope .delete
  | entityProfile entityId entityType =>
    exact madeOf_entity [.literal "profile".toList] (.inl rfl) (fun _ => rfl)
      (fun _ => (List.append_nil _).symm) h
  | entityGet entityId entityType =>
    exact madeOf_entity [] (.inl rfl) (fun _ => rfl) (fun _ => by simp) h
  | entityDelete entityId entityType =>
    exact madeOf_entity [] (.inl rfl) (fun _ => rfl) (fun _ => by simp) h
  | entityAttributes entityId entityType attributeName entity limit =>
    exact madeOf_entity [.literal "attributes".toList]
      (queryTail_queryString (EntitiesClient.attributeParams attributeName entity limit))
      (fun _ => rfl) (fun _ => rfl) h
  | entityMemoryHistory entityId memoryId entityType =>
    refine madeOf_entity [.literal "memories".toList, .argument memoryId.toList,
      .literal "history".toList] (.inl rfl) (fun _ => rfl) (fun entityType => ?_) h
    have hmemories : "/memories/".toList = '/' :: ("memories".toList ++ ['/']) := rfl
    have hhistory : "/history".toList = '/' :: "history".toList := rfl
    rw [hmemories, hhistory]
    generalize "memories".toList = memories
    generalize "history".toList = history
    simp [Piece.segment]
  | entityPatchSettings entityId entityType extractionPrompt memoryKinds decayEnabled =>
    exact madeOf_entity [.literal "settings".toList] (.inl rfl) (fun _ => rfl)
      (fun _ => (List.append_nil _).symm) h
  | storageGet ref =>
    exact madeOf_artifact [] (.inl rfl) (fun _ => rfl) (fun _ => by simp) h
  | storageGetContent ref =>
    exact madeOf_artifact [.literal "content".toList] (.inl rfl) (fun _ => rfl)
      (fun _ => (List.append_nil _).symm) h
  | storageHead ref =>
    exact madeOf_artifact [] (.inl rfl) (fun _ => rfl) (fun _ => by simp) h
  | storageDelete ref policy =>
    cases policy with
    | none => exact madeOf_artifact [] (.inl rfl) (fun _ => rfl) (fun _ => by simp [
        StorageClient.deletePath]) h
    | some policy =>
      refine madeOf_artifact [] (.inr ⟨urlencode [("policy".toList, policy.text.toList)], rfl⟩)
        (fun _ => rfl) (fun artifactId => ?_) h
      simp [StorageClient.deletePath]
  | storageVerify ref =>
    exact madeOf_artifact [.literal "verify".toList] (.inl rfl) (fun _ => rfl)
      (fun _ => (List.append_nil _).symm) h
  | hindsightGet ref =>
    obtain ⟨inner, hinner, rfl⟩ := hindsight_request h
    obtain ⟨_, -, hcall⟩ := Except.bind_ok hinner
    cases hcall
    exact madeOf_path rfl
      ((List.append_assoc ..).trans (bankRoute_eq c.hindsight ref.scope (.argument ref.id.toList)))
  | hindsightDelete ref =>
    obtain ⟨inner, hinner, rfl⟩ := hindsight_request h
    obtain ⟨_, -, hcall⟩ := Except.bind_ok hinner
    cases hcall
    exact madeOf_path rfl
      ((List.append_assoc ..).trans (bankRoute_eq c.hindsight ref.scope (.argument ref.id.toList)))
  | hindsightRetain input =>
    obtain ⟨inner, hinner, rfl⟩ := hindsight_request h
    unfold HindsightProvider.Provider.doIngest at hinner
    split at hinner
    · cases hinner
    obtain ⟨_, -, hcall⟩ := Except.bind_ok hinner
    cases hcall
    exact madeOf_path rfl (bankPath_eq c.hindsight input.scope)
  | hindsightRecall request =>
    obtain ⟨inner, hinner, rfl⟩ := hindsight_request h
    obtain ⟨_, -, hcall⟩ := Except.bind_ok hinner
    cases hcall
    exact madeOf_path rfl (bankRoute_eq c.hindsight request.scope (.literal "recall".toList))
  | hindsightList request =>
    obtain ⟨inner, hinner, hrequest⟩ := hindsight_request h
    obtain ⟨offset, -, hinner⟩ := Except.bind_ok hinner
    obtain ⟨_, -, hcall⟩ := Except.bind_ok hinner
    cases hcall
    rw [← hrequest]
    refine ⟨rfl, _, .inr ⟨HindsightProvider.Provider.listQuery
      (HindsightProvider.Provider.limitOf request) offset, rfl⟩, ?_⟩
    have hliteral : "/memories/list?".toList =
        "/memories".toList ++ '/' :: (Piece.literal "list".toList).segment ++ ['?'] := rfl
    have hroute := bankRoute_eq c.hindsight request.scope (.literal "list".toList)
    show c.hindsight.bankPath request.scope ++ "/memories/list?".toList ++ _ = _
    rw [hliteral, ← List.append_assoc, hroute, List.append_assoc]
    rfl

theorem plain_entityPieces {value entityId : String} {entityType : EntitiesClient.EntityType}
    (h : entityType.text = value) {rest : List Piece} (hrest : ∀ piece ∈ rest, piece.Plain) :
    ∀ piece ∈ entityPieces value entityId ++ rest, piece.Plain := by
  subst h
  refine List.forall_mem_append.mpr ⟨?_, hrest⟩
  have htype : (Piece.literal entityType.text.toList).Plain := by cases entityType <;> decide
  simp only [entityPieces, List.forall_mem_cons]
  exact ⟨by decide, by decide, htype, trivial, List.forall_mem_nil _⟩

theorem plain_artifactPieces (ref : StorageClient.ArtifactRef) {rest : List Piece}
    (hrest : ∀ piece ∈ rest, piece.Plain) : ∀ piece ∈ artifactPieces ref ++ rest, piece.Plain := by
  refine List.forall_mem_append.mpr ⟨?_, hrest⟩
  simp only [artifactPieces, List.forall_mem_cons]
  exact ⟨by decide, by decide, by decide, trivial, List.forall_mem_nil _⟩

theorem plain_bankPieces (scope : Scope String) {rest : List Piece}
    (hrest : ∀ piece ∈ rest, piece.Plain) : ∀ piece ∈ bankPieces scope ++ rest, piece.Plain := by
  refine List.forall_mem_append.mpr ⟨?_, hrest⟩
  simp only [bankPieces, List.forall_mem_cons]
  exact ⟨by decide, trivial, by decide, List.forall_mem_nil _⟩

theorem plain_pieces (h : call.request c = some request) :
    ∀ piece ∈ call.pieces, piece.Plain := by
  have hnil : ∀ piece ∈ ([] : List Piece), piece.Plain := List.forall_mem_nil _
  cases call with
  | handleGet id scope | handleDelete id scope =>
    exact List.forall_mem_cons.mpr ⟨by decide, List.forall_mem_singleton.mpr trivial⟩
  | entityGet entityId value | entityDelete entityId value =>
    obtain ⟨entityType, htype, -⟩ := Except.bind_ok (toOption_ok h)
    exact plain_entityPieces (validateEntityType_ok htype) hnil
  | entityProfile entityId value | entityAttributes entityId value
  | entityPatchSettings entityId value =>
    obtain ⟨entityType, htype, -⟩ := Except.bind_ok (toOption_ok h)
    exact plain_entityPieces (validateEntityType_ok htype)
      (List.forall_mem_singleton.mpr (by decide))
  | entityMemoryHistory entityId memoryId value =>
    obtain ⟨entityType, htype, -⟩ := Except.bind_ok (toOption_ok h)
    refine plain_entityPieces (validateEntityType_ok htype) ?_
    simp only [List.forall_mem_cons]
    exact ⟨by decide, trivial, by decide, hnil⟩
  | storageGet ref | storageHead ref | storageDelete ref =>
    exact plain_artifactPieces ref hnil
  | storageGetContent ref | storageVerify ref =>
    exact plain_artifactPieces ref (List.forall_mem_singleton.mpr (by decide))
  | hindsightGet ref | hindsightDelete ref =>
    exact plain_bankPieces ref.scope (List.forall_mem_singleton.mpr trivial)
  | hindsightRetain input => exact plain_bankPieces input.scope hnil
  | hindsightRecall request | hindsightList request =>
    exact plain_bankPieces request.scope (List.forall_mem_singleton.mpr (by decide))

end

@[simp] theorem fits_argument (s t : List Char) :
    (Piece.argument s).Fits (Piece.argument t).segment ↔ t = s := by
  show unquote (quote t) = utf8 s ↔ t = s
  rw [unquote_quote]
  exact ⟨utf8_injective, congrArg utf8⟩

@[simp] theorem fits_literal (s t : List Char) :
    (Piece.literal s).Fits (Piece.literal t).segment ↔ t = s := Iff.rfl

/-- Calls of one client and method that one path fits ask for the same, but for a
Hindsight memory and the list of its bank. -/
theorem pieces_of_fits {call other : PathCall} (hclient : other.client = call.client)
    (hmethod : other.method = call.method)
    (hfits : List.Forall₂ Piece.Fits other.pieces (call.pieces.map Piece.segment)) :
    other.pieces = call.pieces ∨
      (∃ ref request, call = hindsightGet ref ∧ other = hindsightList request) ∨
      ∃ ref request, call = hindsightList request ∧ other = hindsightGet ref := by
  cases call <;> cases other <;> cases hclient <;> cases hmethod
  case hindsightGet.hindsightList.refl.refl ref request =>
    exact .inr (.inl ⟨ref, request, rfl, rfl⟩)
  case hindsightList.hindsightGet.refl.refl request ref =>
    exact .inr (.inr ⟨ref, request, rfl, rfl⟩)
  -- the others differ in length or in a literal segment, or are the same route
  all_goals
    simp only [pieces, entityPieces, artifactPieces, bankPieces, List.cons_append, List.nil_append,
      List.map_cons, List.map_nil, List.forall₂_cons, List.forall₂_nil_left_iff,
      List.forall₂_nil_right_iff, fits_argument, fits_literal] at hfits ⊢
    simp_all

theorem quote_fixedReads {name : String} (h : name ∈ fixedReads) :
    quote name.toList = name.toList := by
  have hall : ∀ name ∈ fixedReads, quote name.toList = name.toList := by decide
  exact hall name h

theorem handleGet_fixed_iff (id : String) (scope : AtomicMemoryHandle.MemoryScope String) :
    (handleGet id scope).pieces.map Piece.segment ∈ (handleGet id scope).fixedPaths ↔
      id ∈ fixedReads := by
  constructor
  · intro h
    obtain ⟨name, hname, hpath⟩ := List.mem_map.mp h
    have hsegment : name.toList = quote id.toList := (List.cons.inj (List.cons.inj hpath).2).1
    rw [← quote_fixedReads hname] at hsegment
    rwa [← String.toList_injective (quote_injective hsegment)]
  · intro h
    refine List.mem_map.mpr ⟨id, h, ?_⟩
    show ["memories".toList, id.toList] = ["memories".toList, quote id.toList]
    rw [quote_fixedReads h]

/-- The path of a call is read as a call for it, or for more, exactly when its id is not
the name of a fixed route. -/
theorem unshared_iff (call : PathCall) :
    (call.pieces.map Piece.segment ∉ call.fixedPaths ∧
      ∀ other : PathCall, other.client = call.client → other.method = call.method →
        List.Forall₂ Piece.Fits other.pieces (call.pieces.map Piece.segment) →
          other.pieces = call.pieces ∨ call.arguments < other.arguments) ↔ call.Unshared := by
  have hlist : quote "list".toList = "list".toList := by decide
  constructor
  · rintro ⟨hfixed, hothers⟩
    cases call with
    | handleGet id scope => exact fun h => hfixed ((handleGet_fixed_iff id scope).mpr h)
    | hindsightGet ref =>
      intro hid
      have hfits : List.Forall₂ Piece.Fits (hindsightList ⟨ref.scope, none, none⟩).pieces
          ((hindsightGet ref).pieces.map Piece.segment) := by
        refine .cons rfl (.cons (unquote_quote _) (.cons rfl (.cons ?_ .nil)))
        show quote ref.id.toList = "list".toList
        rw [hid, hlist]
      obtain h | h := hothers (hindsightList ⟨ref.scope, none, none⟩) rfl rfl hfits
      · cases h
      · exact absurd h (by show ¬ 2 < 1; decide)
    | _ => trivial
  · intro h
    refine ⟨?_, fun other hclient hmethod hfits => ?_⟩
    · cases call with
      | handleGet id scope => exact fun hmem => h ((handleGet_fixed_iff id scope).mp hmem)
      | _ => exact List.not_mem_nil
    · obtain hsame | ⟨ref, request, rfl, rfl⟩ | ⟨ref, request, rfl, rfl⟩ :=
        pieces_of_fits hclient hmethod hfits
      · exact .inl hsame
      · simp only [pieces, bankPieces, List.cons_append, List.nil_append, List.map_cons,
          List.map_nil, List.forall₂_cons] at hfits
        have hid : quote ref.id.toList = "list".toList := hfits.2.2.2.1
        rw [← hlist] at hid
        exact absurd (String.toList_injective (quote_injective hid)) h
      · exact .inr (by show 1 < 2; decide)

section

variable {c : Clients} {call : PathCall} {request : HttpRequest}

theorem rooted_append {s t : List Char} (hs : Rooted s) (ht : Rooted t) : Rooted (s ++ t) := by
  obtain rfl | ⟨rest, rfl⟩ := hs
  · exact ht
  · exact .inr ⟨rest ++ t, rfl⟩

theorem rooted_normalizeApiVersion (apiVersion : List Char) :
    Rooted (AtomicMemoryProvider.normalizeApiVersion apiVersion) := by
  unfold AtomicMemoryProvider.normalizeApiVersion
  dsimp only
  split
  · exact .inl rfl
  · exact .inr ⟨_, rfl⟩

theorem rooted_root : Rooted (call.root c) := by
  refine rooted_append (call.base c).rooted ?_
  unfold pathPrefix
  split
  · exact rooted_normalizeApiVersion _
  · exact .inl rfl
  · exact .inl rfl
  · exact .inr ⟨_, rfl⟩

/-- A call keeps the integrity of its path exactly when what the client is configured with
is text of a path, no argument is a dot segment, and its id does not name a fixed route. -/
theorem integrity_iff (h : call.request c = some request) :
    call.Integrity c request ↔
      PathText (call.root c) ∧ (∀ text, .argument text ∈ call.pieces → ¬ IsDots text) ∧
        call.Unshared := by
  obtain ⟨-, tail, htail, hpath⟩ := madeOf_request h
  have htarget : call.target c request =
      call.root c ++ absolutePath (call.pieces.map Piece.segment) ++ tail := by
    rw [target, hpath, root]
    simp only [List.append_assoc]
  have hne : call.pieces ≠ [] := by cases call <;> exact List.cons_ne_nil _ _
  have hrooted : Rooted (call.root c) := rooted_root
  have hreaches := reaches_iff (plain_pieces h) hrooted hne htail
  rw [← htarget] at hreaches
  have hfits : List.Forall₂ Piece.Fits call.pieces (call.pieces.map Piece.segment) := by
    rw [List.forall₂_map_right_iff]
    exact List.forall₂_same.mpr fun piece _ => piece.fits_segment
  constructor
  · rintro ⟨segs, hsegs, -, hshared⟩
    obtain ⟨rfl, hroot, hdots⟩ := (hreaches segs).mp hsegs
    exact ⟨hroot, hdots, (unshared_iff call).mp hshared⟩
  · rintro ⟨hroot, hdots, hshared⟩
    refine ⟨_, (hreaches _).mpr ⟨rfl, hroot, hdots⟩, hfits, ?_⟩
    exact (unshared_iff call).mpr hshared

/-- Calls that keep the integrity of their paths ask for the same when they are sent to the
same path of a client with the same method. -/
theorem Integrity.pieces_eq {other : PathCall} {otherRequest : HttpRequest}
    (h : call.Integrity c request) (hother : other.Integrity c otherRequest)
    (hclient : other.client = call.client) (hmethod : other.method = call.method)
    (hroot : other.root c = call.root c)
    (hsent : sentSegments (other.target c otherRequest) = sentSegments (call.target c request)) :
    other.pieces = call.pieces := by
  obtain ⟨segs, hsegs, hfits, -, hcall⟩ := h
  obtain ⟨otherSegs, hotherSegs, hotherFits, -, hother⟩ := hother
  rw [hsegs.2, hotherSegs.2, hroot] at hsent
  obtain rfl := List.append_cancel_left hsent
  obtain heq | hlt := hcall other hclient hmethod hotherFits
  · exact heq
  obtain heq | hgt := hother call hclient.symm hmethod.symm hfits
  · exact heq.symm
  · exact absurd hlt (Nat.lt_asymm hgt)

end

def rootClients : Clients where
  base := ⟨[], .inl rfl⟩
  handle := ⟨"v1".toList⟩
  entitiesBase := ⟨[], .inl rfl⟩
  storageBase := ⟨[], .inl rfl⟩
  hindsightBase := ⟨[], .inl rfl⟩
  hindsight := ⟨"v1".toList, "default".toList, true⟩
  hindsightConfig := ⟨none, none⟩
  python := .reference
  pydantic := .reference
  bool := fun _ => none

/-- A deletion of an ordinary memory. -/
theorem integrity_iff_delete :
    ∃ request, (handleDelete "m1" (.user "u1" none)).request rootClients = some request ∧
      (handleDelete "m1" (.user "u1" none)).Integrity rootClients request := by
  refine ⟨_, rfl, (integrity_iff rfl).mpr ⟨?_, ?_, trivial⟩⟩
  · exact (by decide : PathText "/v1".toList)
  · intro text htext
    simp only [pieces, List.mem_cons, List.not_mem_nil, reduceCtorEq, Piece.argument.injEq,
      false_or, or_false] at htext
    subst htext
    decide

/-- The deletion of the memory `..` is sent to the parent of the memories. -/
theorem not_always_integrity :
    ∃ request, (handleDelete ".." (.user "u1" none)).request rootClients = some request ∧
      request.method = "DELETE" ∧
      sentPath ((handleDelete ".." (.user "u1" none)).target rootClients request) =
        "/v1/".toList ∧
      ¬ (handleDelete ".." (.user "u1" none)).Integrity rootClients request := by
  have hsent : sentPath "/v1/memories/..?user_id=u1".toList = "/v1/".toList := by
    have hpath : targetPath "/v1/memories/..?user_id=u1".toList =
        absolutePath ["v1".toList, "memories".toList, "..".toList] := by decide
    have hslash : NoSlash ["v1".toList, "memories".toList, "..".toList] := by
      unfold NoSlash
      decide
    rw [sentPath, hpath]
    exact (removeDotSegments_absolutePath hslash (List.forall_mem_nil _)).trans (by decide)
  refine ⟨_, rfl, rfl, hsent, ?_⟩
  rintro ⟨segs, ⟨-, hsegs⟩, hfits, -⟩
  -- what is sent has one segment after the version, and the route has two
  have hlength : segs.length = 2 := hfits.length_eq.symm
  have hsegs : segments "/v1/".toList = resolved (segments "/v1".toList) ++ segs :=
    (congrArg segments hsent).symm.trans hsegs
  have hcount := congrArg List.length hsegs
  rw [List.length_append, hlength] at hcount
  exact absurd hcount (by decide)

end PathCall

end AtomicMemory
