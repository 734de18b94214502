import AtomicMemory.Lib.PercentEncoding
import AtomicMemory.Lib.RequestTarget
import AtomicMemory.Providers.Http

-- The requests of `EntitiesClient`'s methods on one entity, which `AsyncEntitiesClient` makes
-- too.

open PercentEncoding
open PyValue hiding none

namespace AtomicMemory.EntitiesClient

/-- `EntitiesClientError`, without the message's `repr` of a rejected value. -/
structure EntitiesClientError where
  errorCode : String
  status : ℕ
  deriving DecidableEq

inductive EntityType
  | user
  | agent
  | session
  deriving DecidableEq

def EntityType.text : EntityType → String
  | user => "user"
  | agent => "agent"
  | session => "session"

/-- `_validate_entity_type`. -/
def validateEntityType (value : String) : Except EntitiesClientError EntityType :=
  if value = "user" then .ok .user
  else if value = "agent" then .ok .agent
  else if value = "session" then .ok .session
  else .error ⟨"invalid_entities_input", 0⟩

/-- `/v1/entities/{entity_type}/{_quote(entity_id)}`. -/
def entityPath (entityType : EntityType) (entityId : String) : List Char :=
  "/v1/entities/".toList ++ entityType.text.toList ++ '/' :: quote entityId.toList

/-- `_qs(params) if params else ""`. -/
def queryString (params : List (List Char × List Char)) : List Char :=
  if params = [] then [] else '?' :: urlencode params

/-- The parameters of `attributes` that are given. -/
def attributeParams (attributeName entity : Option String) (limit : Option ℤ) :
    List (List Char × List Char) :=
  let param (key : String) (value : Option String) :=
    (value.map fun value => (key.toList, value.toList)).toList
  param "attribute" attributeName ++ param "entity" entity ++ param "limit" (limit.map toString)

/-- `_settings_body`. -/
def settingsBody (extractionPrompt : Option String) (memoryKinds : Option (List String))
    (decayEnabled : Option Bool) : Items :=
  optItem "extraction_prompt" extractionPrompt .str ++
    optItem "memory_kinds" memoryKinds (fun kinds => .list (kinds.map .str)) ++
    optItem "decay_enabled" decayEnabled .bool

/-- `profile`. -/
def profile (entityId entityType : String) : Except EntitiesClientError HttpRequest := do
  let entityType ← validateEntityType entityType
  .ok ⟨"GET", entityPath entityType entityId ++ "/profile".toList, none⟩

/-- `get`. -/
def get (entityId entityType : String) : Except EntitiesClientError HttpRequest := do
  let entityType ← validateEntityType entityType
  .ok ⟨"GET", entityPath entityType entityId, none⟩

/-- `delete`. -/
def delete (entityId entityType : String) : Except EntitiesClientError HttpRequest := do
  let entityType ← validateEntityType entityType
  .ok ⟨"DELETE", entityPath entityType entityId, none⟩

/-- `attributes`. -/
def attributes (entityId entityType : String) (attributeName entity : Option String)
    (limit : Option ℤ) : Except EntitiesClientError HttpRequest := do
  let entityType ← validateEntityType entityType
  .ok ⟨"GET", entityPath entityType entityId ++ "/attributes".toList ++
    queryString (attributeParams attributeName entity limit), none⟩

/-- `memory_history`. -/
def memoryHistory (entityId memoryId entityType : String) :
    Except EntitiesClientError HttpRequest := do
  let entityType ← validateEntityType entityType
  .ok ⟨"GET", entityPath entityType entityId ++ "/memories/".toList ++ quote memoryId.toList ++
    "/history".toList, none⟩

/-- `patch_settings`. -/
def patchSettings (entityId entityType : String) (extractionPrompt : Option String)
    (memoryKinds : Option (List String)) (decayEnabled : Option Bool) :
    Except EntitiesClientError HttpRequest := do
  let entityType ← validateEntityType entityType
  .ok ⟨"PATCH", entityPath entityType entityId ++ "/settings".toList,
    some (settingsBody extractionPrompt memoryKinds decayEnabled)⟩

end AtomicMemory.EntitiesClient
