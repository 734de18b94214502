import AtomicMemory.Core.Responses
import AtomicMemory.Entities.EntitiesClient
import AtomicMemory.Lib.Literal

-- The models of entities responses, and how Pydantic validates a dict against them: other keys
-- are ignored.

open PyValue hiding none

namespace AtomicMemory.EntitiesClient

instance : Literal EntityType where
  all := [.user, .agent, .session]
  text := EntityType.text
  mem_all entityType := by cases entityType <;> decide
  text_injective := by decide

structure EntityAttribute where
  entity : String
  attributeName : String
  value : String
  type : String
  sourceMemoryId : Option String
  observedAt : String

structure EntityRelation where
  targetEntityId : String
  relationType : String
  confidence : ℚ
  validTo : Option String

structure EntityCard where
  entityName : String
  cardText : String
  version : ℤ
  updatedAt : String

structure EntityProfileBlock where
  summary : String
  preferences : List String
  instructions : List String
  openCommitments : List String

structure EntityProfile where
  entityType : EntityType
  entityId : String
  profile : Option EntityProfileBlock
  attributes : List EntityAttribute
  memoryCount : ℤ
  lastActive : Option String
  updatedAt : Option String

structure EntitySummary where
  entityType : EntityType
  entityId : String
  memoryCount : ℤ
  lastActive : Option String

structure EntityListResult where
  entities : List EntitySummary
  total : ℤ
  page : ℤ
  pageSize : ℤ

structure EntityDetail where
  entityType : EntityType
  entityId : String
  memoryCount : ℤ
  attributes : List EntityAttribute
  relations : List EntityRelation
  recentCards : List EntityCard
  updatedAt : Option String

structure DeletedCounts where
  memories : ℤ
  entityAttributes : ℤ
  profile : ℤ
  entities : ℤ
  entityEdges : ℤ
  entityCards : ℤ

structure DeleteEntityResult where
  deleted : DeletedCounts

structure MemoryHistoryEntry where
  versionId : String
  event : String
  content : String
  timestamp : String
  supersededBy : Option String

structure MemoryHistory where
  memoryId : String
  history : List MemoryHistoryEntry

structure EntitySettings where
  entityId : String
  extractionPrompt : Option String
  memoryKinds : Option (List String)
  decayEnabled : Bool
  updatedAt : String

structure MergedCounts where
  memoriesMoved : ℤ
  attributesMoved : ℤ
  cardsMoved : ℤ

structure MergeEntitiesResult where
  merged : MergedCounts
  targetEntityId : String

def EntityAttribute.ofItems (items : Items) : Option EntityAttribute := do
  let entity ← field str? items "entity"
  let attributeName ← field str? items "attribute"
  let value ← field str? items "value"
  let type ← field str? items "type"
  let sourceMemoryId ← field (nullable str?) items "source_memory_id"
  let observedAt ← field str? items "observed_at"
  some ⟨entity, attributeName, value, type, sourceMemoryId, observedAt⟩

def EntityProfileBlock.ofItems (items : Items) : Option EntityProfileBlock := do
  let summary ← field str? items "summary"
  let preferences ← defaultField (list? str?) [] items "preferences"
  let instructions ← defaultField (list? str?) [] items "instructions"
  let openCommitments ← defaultField (list? str?) [] items "open_commitments"
  some ⟨summary, preferences, instructions, openCommitments⟩

def MemoryHistoryEntry.ofItems (items : Items) : Option MemoryHistoryEntry := do
  let versionId ← field str? items "version_id"
  let event ← field str? items "event"
  let content ← field str? items "content"
  let timestamp ← field str? items "timestamp"
  let supersededBy ← field (nullable str?) items "superseded_by"
  some ⟨versionId, event, content, timestamp, supersededBy⟩

def MemoryHistory.ofItems (items : Items) : Option MemoryHistory := do
  let memoryId ← field str? items "memory_id"
  let history ← defaultField (list? (modelOf MemoryHistoryEntry.ofItems)) [] items "history"
  some ⟨memoryId, history⟩

section

variable (py : ResponsePydantic)

def EntityRelation.ofItems (items : Items) : Option EntityRelation := do
  let targetEntityId ← field str? items "target_entity_id"
  let relationType ← field str? items "relation_type"
  let confidence ← field py.float items "confidence"
  let validTo ← field (nullable str?) items "valid_to"
  some ⟨targetEntityId, relationType, confidence, validTo⟩

def EntityCard.ofItems (items : Items) : Option EntityCard := do
  let entityName ← field str? items "entity_name"
  let cardText ← field str? items "card_text"
  let version ← field py.int items "version"
  let updatedAt ← field str? items "updated_at"
  some ⟨entityName, cardText, version, updatedAt⟩

def EntityProfile.ofItems (items : Items) : Option EntityProfile := do
  let entityType ← field literal items "entity_type"
  let entityId ← field str? items "entity_id"
  let profile ← field (nullable (modelOf EntityProfileBlock.ofItems)) items "profile"
  let attributes ← defaultField (list? (modelOf EntityAttribute.ofItems)) [] items "attributes"
  let memoryCount ← field py.int items "memory_count"
  let lastActive ← field (nullable str?) items "last_active"
  let updatedAt ← field (nullable str?) items "updated_at"
  some ⟨entityType, entityId, profile, attributes, memoryCount, lastActive, updatedAt⟩

def EntitySummary.ofItems (items : Items) : Option EntitySummary := do
  let entityType ← field literal items "entity_type"
  let entityId ← field str? items "entity_id"
  let memoryCount ← field py.int items "memory_count"
  let lastActive ← field (nullable str?) items "last_active"
  some ⟨entityType, entityId, memoryCount, lastActive⟩

def EntityListResult.ofItems (items : Items) : Option EntityListResult := do
  let entities ← defaultField (list? (modelOf (EntitySummary.ofItems py))) [] items "entities"
  let total ← field py.int items "total"
  let page ← field py.int items "page"
  let pageSize ← field py.int items "page_size"
  some ⟨entities, total, page, pageSize⟩

def EntityDetail.ofItems (items : Items) : Option EntityDetail := do
  let entityType ← field literal items "entity_type"
  let entityId ← field str? items "entity_id"
  let memoryCount ← field py.int items "memory_count"
  let attributes ← defaultField (list? (modelOf EntityAttribute.ofItems)) [] items "attributes"
  let relations ← defaultField (list? (modelOf (EntityRelation.ofItems py))) [] items "relations"
  let recentCards ← defaultField (list? (modelOf (EntityCard.ofItems py))) [] items "recent_cards"
  let updatedAt ← field (nullable str?) items "updated_at"
  some ⟨entityType, entityId, memoryCount, attributes, relations, recentCards, updatedAt⟩

def DeletedCounts.ofItems (items : Items) : Option DeletedCounts := do
  let memories ← field py.int items "memories"
  let entityAttributes ← field py.int items "entity_attributes"
  let profile ← field py.int items "profile"
  let entities ← field py.int items "entities"
  let entityEdges ← field py.int items "entity_edges"
  let entityCards ← field py.int items "entity_cards"
  some ⟨memories, entityAttributes, profile, entities, entityEdges, entityCards⟩

def DeleteEntityResult.ofItems (items : Items) : Option DeleteEntityResult := do
  let deleted ← field (modelOf (DeletedCounts.ofItems py)) items "deleted"
  some ⟨deleted⟩

def EntitySettings.ofItems (items : Items) : Option EntitySettings := do
  let entityId ← field str? items "entity_id"
  let extractionPrompt ← field (nullable str?) items "extraction_prompt"
  let memoryKinds ← field (nullable (list? str?)) items "memory_kinds"
  let decayEnabled ← field py.bool items "decay_enabled"
  let updatedAt ← field str? items "updated_at"
  some ⟨entityId, extractionPrompt, memoryKinds, decayEnabled, updatedAt⟩

def MergedCounts.ofItems (items : Items) : Option MergedCounts := do
  let memoriesMoved ← field py.int items "memories_moved"
  let attributesMoved ← field py.int items "attributes_moved"
  let cardsMoved ← field py.int items "cards_moved"
  some ⟨memoriesMoved, attributesMoved, cardsMoved⟩

def MergeEntitiesResult.ofItems (items : Items) : Option MergeEntitiesResult := do
  let merged ← field (modelOf (MergedCounts.ofItems py)) items "merged"
  let targetEntityId ← field str? items "target_entity_id"
  some ⟨merged, targetEntityId⟩

end

end AtomicMemory.EntitiesClient
