import AtomicMemory.Core.Errors
import AtomicMemory.Lib.PyValue
import Mathlib.Algebra.Ring.Int.Defs

-- The Pydantic models of the memory layer, how they are validated from a dict and how they
-- are dumped to one.

open Calendar
open PyValue hiding none

namespace AtomicMemory

/-- `Scope`; `nameSpace` is its field `namespace`. Its labels are strings, except where a
backend's values were copied in without validation. -/
structure Scope (α : Type) where
  user : Option α
  agent : Option α
  nameSpace : Option α
  thread : Option α
  deriving DecidableEq

def Scope.map {α β : Type} (f : α → β) (s : Scope α) : Scope β :=
  ⟨s.user.map f, s.agent.map f, s.nameSpace.map f, s.thread.map f⟩

structure Provenance where
  source : Option String
  sourceUrl : Option String
  sourceId : Option String
  extractor : Option String
  deriving DecidableEq

inductive MemoryKind
  | fact
  | episode
  | summary
  | procedure
  | document
  deriving DecidableEq

structure Memory (α : Type) where
  id : String
  content : String
  scope : Scope α
  kind : Option MemoryKind
  createdAt : DateTime
  updatedAt : Option DateTime
  provenance : Option Provenance
  metadata : Option Items

structure SearchResult (α : Type) where
  memory : Memory α
  score : ℚ
  similarity : Option ℚ
  rankingScore : Option ℚ
  relevance : Option ℚ
  versionId : Option String
  observedAt : Option String

structure RetrievalReceipt where
  embeddingProvider : Option String
  embeddingModel : String
  embeddingModelVersion : String
  embeddingDimensions : ℤ
  queryText : String
  candidateIds : List String
  traceId : String
  deriving DecidableEq

structure SearchResultPage (α : Type) where
  results : List (SearchResult α)
  cursor : Option String
  retrieval : Option RetrievalReceipt

structure ListResultPage (α : Type) where
  memories : List (Memory α)
  cursor : Option String

structure IngestResult where
  created : List String
  updated : List String
  unchanged : List String
  deriving DecidableEq

structure ContextPackage (α : Type) where
  text : String
  results : List (SearchResult α)
  tokens : ℤ
  budgetConstrained : Bool

inductive MemoryVersionEvent
  | created
  | updated
  | superseded
  | invalidated
  deriving DecidableEq

structure MemoryVersion where
  id : String
  content : String
  createdAt : DateTime
  parentId : Option String
  event : MemoryVersionEvent

structure MemoryRef where
  id : String
  scope : Scope String

structure SearchRequest where
  query : String
  scope : Scope String
  limit : Option ℤ
  threshold : Option ℚ

inductive PackageFormat
  | flat
  | tiered
  | structured
  deriving DecidableEq

structure PackageRequest extends SearchRequest where
  tokenBudget : Option ℤ
  format : Option PackageFormat

structure ListRequest where
  scope : Scope String
  limit : Option ℤ
  cursor : Option String

def ExactFloat (n : ℤ) : Prop := ∃ (m : ℤ) (k : ℕ), m.natAbs < 2 ^ 53 ∧ k ≤ 971 ∧ n = m * 2 ^ k

/-- What the models use of Pydantic: how it coerces to `float`, `int` and `datetime`, and
what its JSON dump makes of a datetime and of a value of type `Any`. -/
structure Pydantic where
  float : PyValue → Option ℚ
  int : PyValue → Option ℤ
  datetime : PyValue → Option DateTime
  jsonDatetime : DateTime → String
  jsonAny : PyValue → PyValue
  float_float : ∀ q, float (.float q) = some q
  float_int : ∀ n, ExactFloat n → float (.int n) = some (n : ℚ)
  int_int : ∀ n, int (.int n) = some n
  int_float : ∀ n : ℤ, n.natAbs < 2 ^ 63 → int (.float n) = some n
  datetime_datetime : ∀ d, datetime (.datetime d) = some d
  datetime_str : ∀ s d, parseRfc3339 s.toList = some d → datetime (.str s) = some d

def str? : PyValue → Option String
  | .str s => some s
  | _ => none

def dict? : PyValue → Option Items
  | .dict items => some items
  | _ => none

def int? : PyValue → Option ℤ
  | .int n => some n
  | _ => none

def float? : PyValue → Option ℚ
  | .float q => some q
  | _ => none

def list? {α : Type} (f : PyValue → Option α) : PyValue → Option (List α)
  | .list xs => xs.mapM f
  | _ => none

def field {α : Type} (f : PyValue → Option α) (items : Items) (key : String) : Option α :=
  (items.lookup key).bind f

/-- A value of type `T | None`. -/
def nullable {α : Type} (f : PyValue → Option α) : PyValue → Option (Option α)
  | .none => some none
  | v => (f v).map some

/-- A field of type `T | None` that defaults to `None`. -/
def optField {α : Type} (f : PyValue → Option α) (items : Items) (key : String) :
    Option (Option α) :=
  match items.lookup key with
  | none => some none
  | some v => nullable f v

def defaultField {α : Type} (f : PyValue → Option α) (default : α) (items : Items)
    (key : String) : Option α :=
  match items.lookup key with
  | none => some default
  | some v => f v

/-- `extra="forbid"`: the items have no other keys. -/
def forbidExtra {α : Type} (allowed : List String) (f : Items → Option α) (items : Items) :
    Option α :=
  if ∀ key ∈ Items.keys items, key ∈ allowed then f items else none

theorem forbidExtra_ok {α : Type} {allowed : List String} {f : Items → Option α} {items : Items}
    {m : α} (h : forbidExtra allowed f items = some m) :
    (∀ key ∈ Items.keys items, key ∈ allowed) ∧ f items = some m := by
  unfold forbidExtra at h
  split at h
  · exact ⟨‹_›, h⟩
  · cases h

theorem forbidExtra_eq {α : Type} {allowed : List String} {items : Items}
    (h : ∀ key ∈ Items.keys items, key ∈ allowed) (f : Items → Option α) :
    forbidExtra allowed f items = f items := if_pos h

def scopeKeys : List String := ["user", "agent", "namespace", "thread"]

def Scope.ofItems : Items → Option (Scope String) :=
  forbidExtra scopeKeys fun items => do
    let user ← optField str? items "user"
    let agent ← optField str? items "agent"
    let nameSpace ← optField str? items "namespace"
    let thread ← optField str? items "thread"
    some ⟨user, agent, nameSpace, thread⟩

def Scope.ofValue (v : PyValue) : Option (Scope String) := (dict? v).bind Scope.ofItems

def provenanceKeys : List String := ["source", "source_url", "source_id", "extractor"]

def Provenance.ofItems : Items → Option Provenance :=
  forbidExtra provenanceKeys fun items => do
    let source ← optField str? items "source"
    let sourceUrl ← optField str? items "source_url"
    let sourceId ← optField str? items "source_id"
    let extractor ← optField str? items "extractor"
    some ⟨source, sourceUrl, sourceId, extractor⟩

def Provenance.ofValue (v : PyValue) : Option Provenance := (dict? v).bind Provenance.ofItems

def MemoryKind.ofValue : PyValue → Option MemoryKind
  | .str "fact" => some fact
  | .str "episode" => some episode
  | .str "summary" => some summary
  | .str "procedure" => some procedure
  | .str "document" => some document
  | _ => none

def Memory.ofItems (py : Pydantic) (items : Items) : Option (Memory String) := do
  let id ← field str? items "id"
  let content ← field str? items "content"
  let scope ← field Scope.ofValue items "scope"
  let kind ← optField MemoryKind.ofValue items "kind"
  let createdAt ← field py.datetime items "created_at"
  let updatedAt ← optField py.datetime items "updated_at"
  let provenance ← optField Provenance.ofValue items "provenance"
  let metadata ← optField dict? items "metadata"
  some ⟨id, content, scope, kind, createdAt, updatedAt, provenance, metadata⟩

def Memory.ofValue (py : Pydantic) (v : PyValue) : Option (Memory String) :=
  (dict? v).bind (Memory.ofItems py)

def SearchResult.ofItems (py : Pydantic) (items : Items) : Option (SearchResult String) := do
  let memory ← field (Memory.ofValue py) items "memory"
  let score ← field py.float items "score"
  let similarity ← optField py.float items "similarity"
  let rankingScore ← optField py.float items "ranking_score"
  let relevance ← optField py.float items "relevance"
  let versionId ← optField str? items "version_id"
  let observedAt ← optField str? items "observed_at"
  some ⟨memory, score, similarity, rankingScore, relevance, versionId, observedAt⟩

def SearchResult.ofValue (py : Pydantic) (v : PyValue) : Option (SearchResult String) :=
  (dict? v).bind (SearchResult.ofItems py)

def RetrievalReceipt.ofItems (py : Pydantic) (items : Items) : Option RetrievalReceipt := do
  let embeddingProvider ← optField str? items "embedding_provider"
  let embeddingModel ← field str? items "embedding_model"
  let embeddingModelVersion ← field str? items "embedding_model_version"
  let embeddingDimensions ← field py.int items "embedding_dimensions"
  let queryText ← field str? items "query_text"
  let candidateIds ← defaultField (list? str?) [] items "candidate_ids"
  let traceId ← field str? items "trace_id"
  some ⟨embeddingProvider, embeddingModel, embeddingModelVersion, embeddingDimensions,
    queryText, candidateIds, traceId⟩

def RetrievalReceipt.ofValue (py : Pydantic) (v : PyValue) : Option RetrievalReceipt :=
  (dict? v).bind (RetrievalReceipt.ofItems py)

def SearchResultPage.ofItems (py : Pydantic) (items : Items) :
    Option (SearchResultPage String) := do
  let results ← defaultField (list? (SearchResult.ofValue py)) [] items "results"
  let cursor ← optField str? items "cursor"
  let retrieval ← optField (RetrievalReceipt.ofValue py) items "retrieval"
  some ⟨results, cursor, retrieval⟩

def IngestResult.ofItems (items : Items) : Option IngestResult := do
  let created ← defaultField (list? str?) [] items "created"
  let updated ← defaultField (list? str?) [] items "updated"
  let unchanged ← defaultField (list? str?) [] items "unchanged"
  some ⟨created, updated, unchanged⟩

/-- `Model.model_validate(data)`. -/
def modelValidate {α : Type} (model : String) (result : Option α) : Except PyError α :=
  match result with
  | some m => .ok m
  | none => .error (.validationError model)

-- A field that is given a model object keeps it as it is; the others are validated.

def Memory.create {α : Type} (id content : PyValue) (scope : Scope α) (kind : Option MemoryKind)
    (createdAt : DateTime) (updatedAt : Option DateTime) (provenance : Option Provenance)
    (metadata : PyValue) : Except PyError (Memory α) :=
  modelValidate "Memory" do
    let id ← str? id
    let content ← str? content
    let metadata ← nullable dict? metadata
    some ⟨id, content, scope, kind, createdAt, updatedAt, provenance, metadata⟩

theorem modelValidate_ok {α : Type} {model : String} {result : Option α} {m : α}
    (h : modelValidate model result = .ok m) : result = some m := by
  unfold modelValidate at h
  split at h
  · rw [Except.ok.inj h]
  · cases h

theorem Memory.create_ok {α : Type} {id content : PyValue} {scope : Scope α}
    {kind : Option MemoryKind} {createdAt : DateTime} {updatedAt : Option DateTime}
    {provenance : Option Provenance} {metadata : PyValue} {m : Memory α}
    (h : Memory.create id content scope kind createdAt updatedAt provenance metadata = .ok m) :
    id = .str m.id ∧ m.scope = scope := by
  have h := modelValidate_ok h
  obtain ⟨mid, hid, h⟩ := Option.bind_eq_some_iff.mp h
  obtain ⟨mcontent, -, h⟩ := Option.bind_eq_some_iff.mp h
  obtain ⟨mmetadata, -, h⟩ := Option.bind_eq_some_iff.mp h
  cases h
  refine ⟨?_, rfl⟩
  cases id with
  | str s => rw [Option.some.inj hid]
  | _ => cases hid

def SearchResult.create {α : Type} (py : Pydantic) (memory : Memory α)
    (score similarity rankingScore relevance versionId observedAt : PyValue) :
    Except PyError (SearchResult α) :=
  modelValidate "SearchResult" do
    let score ← py.float score
    let similarity ← nullable py.float similarity
    let rankingScore ← nullable py.float rankingScore
    let relevance ← nullable py.float relevance
    let versionId ← nullable str? versionId
    let observedAt ← nullable str? observedAt
    some ⟨memory, score, similarity, rankingScore, relevance, versionId, observedAt⟩

theorem SearchResult.create_ok {α : Type} {py : Pydantic} {memory : Memory α}
    {score similarity rankingScore relevance versionId observedAt : PyValue} {r : SearchResult α}
    (h : SearchResult.create py memory score similarity rankingScore relevance versionId
      observedAt = .ok r) : r.memory = memory := by
  have h := modelValidate_ok h
  obtain ⟨_, -, h⟩ := Option.bind_eq_some_iff.mp h
  obtain ⟨_, -, h⟩ := Option.bind_eq_some_iff.mp h
  obtain ⟨_, -, h⟩ := Option.bind_eq_some_iff.mp h
  obtain ⟨_, -, h⟩ := Option.bind_eq_some_iff.mp h
  obtain ⟨_, -, h⟩ := Option.bind_eq_some_iff.mp h
  obtain ⟨_, -, h⟩ := Option.bind_eq_some_iff.mp h
  cases h
  rfl

def ContextPackage.create {α : Type} (py : Pydantic) (text : PyValue)
    (results : List (SearchResult α)) (tokens : PyValue) (budgetConstrained : Bool) :
    Except PyError (ContextPackage α) :=
  modelValidate "ContextPackage" do
    let text ← str? text
    let tokens ← py.int tokens
    some ⟨text, results, tokens, budgetConstrained⟩

theorem ContextPackage.create_ok {α : Type} {py : Pydantic} {text tokens : PyValue}
    {results : List (SearchResult α)} {budgetConstrained : Bool} {c : ContextPackage α}
    (h : ContextPackage.create py text results tokens budgetConstrained = .ok c) :
    c.results = results := by
  have h := modelValidate_ok h
  obtain ⟨_, -, h⟩ := Option.bind_eq_some_iff.mp h
  obtain ⟨_, -, h⟩ := Option.bind_eq_some_iff.mp h
  cases h
  rfl

def MemoryVersion.create (id content : PyValue) (createdAt : DateTime) (parentId : PyValue)
    (event : MemoryVersionEvent) : Except PyError MemoryVersion :=
  modelValidate "MemoryVersion" do
    let id ← str? id
    let content ← str? content
    let parentId ← nullable str? parentId
    some ⟨id, content, createdAt, parentId, event⟩

/-- What a dump makes of datetimes and of values of type `Any`. -/
structure DumpMode where
  datetime : DateTime → PyValue
  any : PyValue → PyValue

/-- `model_dump()`. -/
def pythonMode : DumpMode := ⟨.datetime, id⟩

/-- `model_dump(mode="json")`. -/
def Pydantic.jsonMode (py : Pydantic) : DumpMode := ⟨fun d => .str (py.jsonDatetime d), py.jsonAny⟩

/-- An optional field under `exclude_none`. -/
def optItem {α : Type} (key : String) (x : Option α) (f : α → PyValue) : Items :=
  match x with
  | none => []
  | some a => [(key, f a)]

def Scope.dump (s : Scope String) : Items :=
  optItem "user" s.user .str ++ optItem "agent" s.agent .str ++
    optItem "namespace" s.nameSpace .str ++ optItem "thread" s.thread .str

def Provenance.dump (p : Provenance) : Items :=
  optItem "source" p.source .str ++ optItem "source_url" p.sourceUrl .str ++
    optItem "source_id" p.sourceId .str ++ optItem "extractor" p.extractor .str

def MemoryKind.text : MemoryKind → String
  | fact => "fact"
  | episode => "episode"
  | summary => "summary"
  | procedure => "procedure"
  | document => "document"

/-- `exclude_none` drops no item of a dict-typed field. -/
def Memory.dump (mode : DumpMode) (m : Memory String) : Items :=
  [("id", .str m.id), ("content", .str m.content), ("scope", .dict m.scope.dump)] ++
    optItem "kind" m.kind (fun kind => .str kind.text) ++
    [("created_at", mode.datetime m.createdAt)] ++
    optItem "updated_at" m.updatedAt mode.datetime ++
    optItem "provenance" m.provenance (fun p => .dict p.dump) ++
    optItem "metadata" m.metadata
      (fun items => .dict (items.map fun item => (item.1, mode.any item.2)))

def SearchResult.dump (mode : DumpMode) (r : SearchResult String) : Items :=
  [("memory", .dict (r.memory.dump mode)), ("score", .float r.score)] ++
    optItem "similarity" r.similarity .float ++ optItem "ranking_score" r.rankingScore .float ++
    optItem "relevance" r.relevance .float ++ optItem "version_id" r.versionId .str ++
    optItem "observed_at" r.observedAt .str

def RetrievalReceipt.dump (r : RetrievalReceipt) : Items :=
  optItem "embedding_provider" r.embeddingProvider .str ++
    [("embedding_model", .str r.embeddingModel),
      ("embedding_model_version", .str r.embeddingModelVersion),
      ("embedding_dimensions", .int r.embeddingDimensions), ("query_text", .str r.queryText),
      ("candidate_ids", .list (r.candidateIds.map .str)), ("trace_id", .str r.traceId)]

theorem lookup_optItem {α : Type} (key k : String) (x : Option α) (f : α → PyValue) :
    (optItem k x f).lookup key = if key = k then x.map f else none := by
  cases x with
  | none => simp [optItem]
  | some a =>
    rw [optItem, Items.lookup_cons]
    rfl

theorem optItem_eq {α : Type} (key : String) (x : Option α) (f : α → PyValue) :
    optItem key x f = Items.ofEntries [(key, x.map f)] := by
  cases x <;> rfl

theorem entry_of_if (p : Prop) [Decidable p] (key : String) (v : PyValue) :
    (if p then [(key, v)] else []) = Items.ofEntries [(key, if p then some v else none)] := by
  split <;> rfl

section

variable {α : Type} {entries : List (String × Option PyValue)}
  (hnodup : (entries.map Prod.fst).Nodup) {key : String}

include hnodup

theorem field_entry {x : Option α} {f : α → PyValue} {g : PyValue → Option α}
    (hx : (entries.lookup key).join = x.map f) (hread : ∀ a, g (f a) = some a) :
    field g (Items.ofEntries entries) key = x := by
  rw [field, Items.lookup_ofEntries hnodup, hx]
  cases x with
  | none => rfl
  | some a => exact hread a

theorem field_given {v : PyValue} {a : α} {g : PyValue → Option α}
    (hv : (entries.lookup key).join = some v) (hread : g v = some a) :
    field g (Items.ofEntries entries) key = some a := by
  rw [field, Items.lookup_ofEntries hnodup, hv]
  exact hread

end

theorem keys_optItem {α : Type} {key k : String} {x : Option α} {f : α → PyValue}
    (h : key ∈ Items.keys (optItem k x f)) : key = k := by
  cases x with
  | none => cases h
  | some a => simpa [optItem, Items.keys] using h

theorem keys_append (xs ys : Items) :
    Items.keys (xs ++ ys) = Items.keys xs ++ Items.keys ys := List.map_append

theorem nullable_eq {α : Type} {f : PyValue → Option α} {v : PyValue} {a : α} (hne : v ≠ .none)
    (hf : f v = some a) : nullable f v = some (some a) := by
  unfold nullable
  split
  · exact absurd rfl hne
  · rw [hf]
    rfl

theorem optField_map {α : Type} {f : PyValue → Option α} {g : α → PyValue} {items : Items}
    {key : String} {x : Option α} (h : items.lookup key = x.map g)
    (hf : ∀ a, x = some a → g a ≠ .none ∧ f (g a) = some a) : optField f items key = some x := by
  unfold optField
  rw [h]
  cases x with
  | none => rfl
  | some a =>
    obtain ⟨hne, hfa⟩ := hf a rfl
    exact nullable_eq hne hfa

theorem mapM_eq_some_iff {α β : Type} {f : α → Option β} {xs : List α} {ys : List β} :
    xs.mapM f = some ys ↔ List.Forall₂ (fun x y => f x = some y) xs ys := by
  induction xs generalizing ys with
  | nil => cases ys <;> simp
  | cons x xs ih =>
    rw [List.mapM_cons]
    constructor
    · intro h
      obtain ⟨y, hy, h⟩ := Option.bind_eq_some_iff.mp h
      obtain ⟨ys', hys, h⟩ := Option.bind_eq_some_iff.mp h
      cases h
      exact .cons hy (ih.mp hys)
    · rintro (_ | ⟨hy, hys⟩)
      rw [hy, ih.mpr hys]
      rfl

theorem mapM_map {α : Type} {f : PyValue → Option α} {g : α → PyValue}
    (hf : ∀ a, f (g a) = some a) (xs : List α) : (xs.map g).mapM f = some xs := by
  rw [mapM_eq_some_iff, List.forall₂_map_left_iff]
  exact List.forall₂_same.mpr fun x _ => hf x

theorem Scope.keys_dump (s : Scope String) : ∀ key ∈ Items.keys s.dump, key ∈ scopeKeys := by
  intro key h
  simp only [Scope.dump, keys_append, List.mem_append] at h
  rcases h with ((h | h) | h) | h <;> rw [keys_optItem h] <;> decide

theorem Scope.ofItems_dump (s : Scope String) : Scope.ofItems s.dump = some s := by
  have hfield (key : String) (x : Option String) (h : s.dump.lookup key = x.map .str) :
      optField str? s.dump key = some x := optField_map h fun a _ => ⟨nofun, rfl⟩
  unfold Scope.ofItems
  rw [forbidExtra_eq s.keys_dump, hfield "user" s.user, hfield "agent" s.agent,
    hfield "namespace" s.nameSpace, hfield "thread" s.thread]
  · rfl
  all_goals simp [Scope.dump, Items.lookup_append, lookup_optItem]

theorem Provenance.keys_dump (p : Provenance) :
    ∀ key ∈ Items.keys p.dump, key ∈ provenanceKeys := by
  intro key h
  simp only [Provenance.dump, keys_append, List.mem_append] at h
  rcases h with ((h | h) | h) | h <;> rw [keys_optItem h] <;> decide

theorem Provenance.ofItems_dump (p : Provenance) : Provenance.ofItems p.dump = some p := by
  have hfield (key : String) (x : Option String) (h : p.dump.lookup key = x.map .str) :
      optField str? p.dump key = some x := optField_map h fun a _ => ⟨nofun, rfl⟩
  unfold Provenance.ofItems
  rw [forbidExtra_eq p.keys_dump, hfield "source" p.source, hfield "source_url" p.sourceUrl,
    hfield "source_id" p.sourceId, hfield "extractor" p.extractor]
  · rfl
  all_goals simp [Provenance.dump, Items.lookup_append, lookup_optItem]

theorem MemoryKind.ofValue_text (kind : MemoryKind) :
    MemoryKind.ofValue (.str kind.text) = some kind := by
  cases kind <;> rfl

theorem field_eq {α : Type} {f : PyValue → Option α} {items : Items} {key : String} {v : PyValue}
    {a : α} (h : items.lookup key = some v) (hf : f v = some a) : field f items key = some a := by
  rw [field, h, Option.bind_some, hf]

section

variable (py : Pydantic)

theorem Memory.ofItems_dump (m : Memory String) :
    Memory.ofItems py (m.dump pythonMode) = some m := by
  unfold Memory.ofItems
  rw [field_eq (a := m.id) (v := .str m.id) _ rfl,
    field_eq (a := m.content) (v := .str m.content) _ rfl,
    field_eq (a := m.scope) (v := .dict m.scope.dump) _ (Scope.ofItems_dump m.scope),
    optField_map (x := m.kind) (g := fun kind => .str kind.text) _
      fun kind _ => ⟨nofun, MemoryKind.ofValue_text kind⟩,
    field_eq (a := m.createdAt) (v := .datetime m.createdAt) _ (py.datetime_datetime _),
    optField_map (x := m.updatedAt) (g := .datetime) _ fun d _ => ⟨nofun, py.datetime_datetime d⟩,
    optField_map (x := m.provenance) (g := fun p => .dict p.dump) _
      fun p _ => ⟨nofun, Provenance.ofItems_dump p⟩,
    optField_map (x := m.metadata) (g := .dict) _ fun items _ => ⟨nofun, rfl⟩]
  · rfl
  all_goals simp [Memory.dump, pythonMode, Items.lookup_cons, Items.lookup_append, lookup_optItem]

theorem SearchResult.ofItems_dump (r : SearchResult String) :
    SearchResult.ofItems py (r.dump pythonMode) = some r := by
  unfold SearchResult.ofItems
  rw [field_eq (a := r.memory) (v := .dict (r.memory.dump pythonMode)) _
      (Memory.ofItems_dump py r.memory),
    field_eq (a := r.score) (v := .float r.score) _ (py.float_float _),
    optField_map (x := r.similarity) (g := .float) _ fun q _ => ⟨nofun, py.float_float q⟩,
    optField_map (x := r.rankingScore) (g := .float) _ fun q _ => ⟨nofun, py.float_float q⟩,
    optField_map (x := r.relevance) (g := .float) _ fun q _ => ⟨nofun, py.float_float q⟩,
    optField_map (x := r.versionId) (g := .str) _ fun text _ => ⟨nofun, rfl⟩,
    optField_map (x := r.observedAt) (g := .str) _ fun text _ => ⟨nofun, rfl⟩]
  · rfl
  all_goals simp [SearchResult.dump, Items.lookup_cons, Items.lookup_append, lookup_optItem]

theorem RetrievalReceipt.ofItems_dump (r : RetrievalReceipt) :
    RetrievalReceipt.ofItems py r.dump = some r := by
  have hcandidates : defaultField (list? str?) [] r.dump "candidate_ids" = some r.candidateIds := by
    have hlookup : r.dump.lookup "candidate_ids" = some (.list (r.candidateIds.map .str)) := by
      simp [RetrievalReceipt.dump, Items.lookup_append, Items.lookup_cons, lookup_optItem]
    unfold defaultField
    rw [hlookup]
    exact mapM_map (f := str?) (g := .str) (fun _ => rfl) r.candidateIds
  unfold RetrievalReceipt.ofItems
  rw [optField_map (x := r.embeddingProvider) (g := .str) _ fun text _ => ⟨nofun, rfl⟩,
    field_eq (a := r.embeddingModel) (v := .str r.embeddingModel) _ rfl,
    field_eq (a := r.embeddingModelVersion) (v := .str r.embeddingModelVersion) _ rfl,
    field_eq (v := .int r.embeddingDimensions) _ (py.int_int _),
    field_eq (a := r.queryText) (v := .str r.queryText) _ rfl, hcandidates,
    field_eq (a := r.traceId) (v := .str r.traceId) _ rfl]
  · rfl
  all_goals
    simp [RetrievalReceipt.dump, Items.lookup_cons, Items.lookup_append, lookup_optItem]

end

theorem mem_keys_of_field {α : Type} {f : PyValue → Option α} {items : Items} {key : String}
    {a : α} (h : field f items key = some a) : key ∈ Items.keys items := by
  obtain ⟨v, hv, -⟩ := Option.bind_eq_some_iff.mp h
  exact Items.mem_keys_of_lookup hv

/-- The coercions on the values they are documented for: numbers, booleans, datetimes and
RFC 3339 texts. -/
def Pydantic.reference : Pydantic where
  float
    | .float q => some q
    | .int n => some n
    | .bool b => some (if b then 1 else 0)
    | _ => none
  int
    | .int n => some n
    | .bool b => some (if b then 1 else 0)
    | .float q => if q.den = 1 ∧ q.num.natAbs < 2 ^ 63 then some q.num else none
    | _ => none
  datetime
    | .datetime d => some d
    | .str s => parseRfc3339 s.toList
    | _ => none
  jsonDatetime d := String.ofList d.isoMillis
  jsonAny := id
  float_float _ := rfl
  float_int _ _ := rfl
  int_int _ := rfl
  int_float _ h := if_pos ⟨rfl, h⟩
  datetime_datetime _ := rfl
  datetime_str _ _ h := h

end AtomicMemory
