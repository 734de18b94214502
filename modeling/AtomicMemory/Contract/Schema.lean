import AtomicMemory.Contract.V1
import AtomicMemory.Lib.JsonSchema

-- The definitions of `contract/v1/provider-contract.schema.json` that the codec reads and
-- writes. A constant is an enumeration of one text.

namespace AtomicMemory.Contract

def scopeSchema : Schema :=
  .object [("user", .string), ("agent", .string), ("namespace", .string), ("thread", .string)] []
    false

def provenanceSchema : Schema :=
  .object [("source", .string), ("sourceUrl", .string), ("sourceId", .string),
    ("extractor", .string)] [] false

def memoryKindSchema : Schema := .enum ["fact", "episode", "summary", "procedure", "document"]

def memorySchema : Schema :=
  .object [("id", .string), ("content", .string), ("scope", scopeSchema),
    ("kind", memoryKindSchema), ("createdAt", .dateTime), ("updatedAt", .dateTime),
    ("provenance", provenanceSchema), ("metadata", .object [] [] true)]
    ["id", "content", "scope", "createdAt"] false

def searchResultSchema : Schema :=
  .object [("memory", memorySchema), ("score", .number none none),
    ("similarity", .number none none), ("rankingScore", .number none none),
    ("relevance", .number (some 0) (some 1)), ("version_id", .nullableString),
    ("observed_at", .dateTime)]
    ["memory", "score"] false

def retrievalReceiptSchema : Schema :=
  .object [("embedding_provider", .string), ("embedding_model", .string),
    ("embedding_model_version", .string), ("embedding_dimensions", .integer 1),
    ("query_text", .string), ("candidate_ids", .array .string), ("trace_id", .string)]
    ["embedding_model", "embedding_model_version", "embedding_dimensions", "query_text",
      "candidate_ids", "trace_id"] false

def searchResultPageSchema : Schema :=
  .object [("results", .array searchResultSchema), ("cursor", .string),
    ("retrieval", retrievalReceiptSchema)]
    ["results"] false

def ingestResultSchema : Schema :=
  .object [("created", .array .string), ("updated", .array .string), ("unchanged", .array .string)]
    ["created", "updated", "unchanged"] false

def contentClassSchema : Schema := .enum ["summary", "redacted", "raw"]

def messageSchema : Schema :=
  .object [("role", .enum ["user", "assistant", "system", "tool"]), ("content", .string),
    ("name", .string)] ["role", "content"] false

def textIngestSchema : Schema :=
  .object [("mode", .enum ["text"]), ("content", .string), ("scope", scopeSchema),
    ("provenance", provenanceSchema), ("metadata", .object [] [] true)]
    ["mode", "content", "scope"] false

def messageIngestSchema : Schema :=
  .object [("mode", .enum ["messages"]), ("messages", .array messageSchema),
    ("scope", scopeSchema), ("provenance", provenanceSchema), ("metadata", .object [] [] true)]
    ["mode", "messages", "scope"] false

def verbatimIngestSchema : Schema :=
  .object [("mode", .enum ["verbatim"]), ("content", .string), ("kind", memoryKindSchema),
    ("content_class", contentClassSchema), ("scope", scopeSchema),
    ("provenance", provenanceSchema), ("metadata", .object [] [] true)]
    ["mode", "content", "scope"] false

/-- The `oneOf` of `IngestInput`. -/
def ingestInputBranches : List Schema := [textIngestSchema, messageIngestSchema, verbatimIngestSchema]

def propertyKeys : Schema → List String
  | .object properties _ _ => properties.map Prod.fst
  | _ => []

theorem wireKeys_eq_propertyKeys :
    memoryWireKeys = propertyKeys memorySchema ∧
      provenanceWireKeys = propertyKeys provenanceSchema ∧
      searchResultWireKeys = propertyKeys searchResultSchema ∧
      searchResultPageWireKeys = propertyKeys searchResultPageSchema ∧
      ingestResultWireKeys = propertyKeys ingestResultSchema :=
  ⟨rfl, rfl, rfl, rfl, rfl⟩

end AtomicMemory.Contract
