import AtomicMemory.Contract.Jsonify
import AtomicMemory.Contract.RoundTrip
import AtomicMemory.Memory.IngestInput

-- `encode_ingest_input`, for the three modes with all their optional fields, and the branches
-- of the schema that its results satisfy.

open Calendar
open PyValue hiding none
open Schema

namespace AtomicMemory

def Message.dump (m : Message) : Items :=
  [("role", .str m.role.text), ("content", .str m.content)] ++ optItem "name" m.name .str

def IngestInput.mode (input : IngestInput) : String :=
  match input.content with
  | .text _ => "text"
  | .messages _ => "messages"
  | .verbatim _ _ => "verbatim"

def IngestInput.dump (mode : DumpMode) (input : IngestInput) : Items :=
  [("scope", .dict input.scope.dump)] ++
    optItem "provenance" input.provenance (fun p => .dict p.dump) ++
    optItem "metadata" input.metadata
      (fun items => .dict (items.map fun item => (item.1, mode.any item.2))) ++
    optItem "content_class" input.contentClass (fun c => .str c.text) ++
    [("mode", .str input.mode)] ++
    match input.content with
    | .text content => [("content", .str content)]
    | .messages messages => [("messages", .list (messages.map fun m => .dict m.dump))]
    | .verbatim content kind =>
      [("content", .str content)] ++ optItem "kind" kind fun kind => .str kind.text

namespace Contract

section

variable (py : Pydantic)

/-- `content_class` is refused on the modes whose schema has no such field. -/
def contentClassError (input : IngestInput) (c : ContentClass) : PyError :=
  .valueError ("content_class='" ++ c.text ++ "' is only valid on verbatim ingest in the v1 wire " ++
    "schema (mode='" ++ input.mode ++ "' is additionalProperties: false " ++
    "without it). Drop it, or use mode='verbatim'.")

def encodeIngestInput (input : IngestInput) : Except PyError Items :=
  match input.contentClass, input.isVerbatim with
  | some c, false => .error (contentClassError input c)
  | _, _ => do
    let data : Items := input.dump py.jsonMode
    let data :=
      match data.lookup "provenance" with
      | some (.dict _) =>
        data.setSome "provenance" (input.provenance.map fun p => .dict (encodeProvenance p))
      | _ => data
    match data.get "metadata" with
    | .none => .ok data
    | _ => do
      let metadata ← jsonify ((input.metadata.map .dict).getD .none)
      .ok (data.set "metadata" metadata)

def ingestKeys : List String :=
  ["scope", "provenance", "metadata", "content_class", "mode", "content", "messages", "kind"]

/-- What `encodeIngestInput` emits when it raises nothing. -/
def wireIngestInput (input : IngestInput) : Items :=
  let data : Items := input.dump py.jsonMode
  let data := data.setSome "provenance" (input.provenance.map fun p => .dict (encodeProvenance p))
  data.setSome "metadata" (input.metadata.map fun items => .dict (itemsIsoForm items))

theorem lookup_dump (mode : DumpMode) (input : IngestInput) (key : String) :
    (input.dump mode).lookup key =
      if key = "scope" then some (.dict input.scope.dump)
      else if key = "provenance" then input.provenance.map fun p => .dict p.dump
      else if key = "metadata" then input.metadata.map fun items =>
        .dict (items.map fun item => (item.1, mode.any item.2))
      else if key = "content_class" then input.contentClass.map fun c => .str c.text
      else if key = "mode" then some (.str input.mode)
      else match input.content with
        | .text content => if key = "content" then some (.str content) else none
        | .messages messages =>
          if key = "messages" then some (.list (messages.map fun m => .dict m.dump)) else none
        | .verbatim content kind =>
          if key = "content" then some (.str content)
          else if key = "kind" then kind.map fun kind => .str kind.text
          else none := by
  unfold IngestInput.dump
  -- each name occurs once, and only after those before it are ruled out
  by_cases hkey : key ∈ ingestKeys
  · simp only [ingestKeys, List.mem_cons, List.not_mem_nil, or_false] at hkey
    cases input.content <;> rcases hkey with rfl | rfl | rfl | rfl | rfl | rfl | rfl | rfl <;>
      simp [Items.lookup_append, Items.lookup_cons, lookup_optItem]
  · simp only [ingestKeys, List.mem_cons, List.not_mem_nil, or_false, not_or] at hkey
    cases input.content <;>
      simp [Items.lookup_append, Items.lookup_cons, lookup_optItem, hkey]

theorem lookup_wireIngestInput (input : IngestInput) (key : String) :
    (wireIngestInput py input).lookup key =
      if key = "metadata" then input.metadata.map fun items => .dict (itemsIsoForm items)
      else if key = "provenance" then input.provenance.map fun p => .dict (encodeProvenance p)
      else (input.dump py.jsonMode).lookup key := by
  unfold wireIngestInput
  simp only [Items.lookup_setSome]
  by_cases hmeta : key = "metadata"
  · cases hm : input.metadata with
    | none => simp [hmeta, lookup_dump, hm]
    | some items => simp [hmeta]
  · by_cases hprov : key = "provenance"
    · cases hp : input.provenance with
      | none => simp [hprov, lookup_dump, hp]
      | some p => simp [hprov]
    · simp [hmeta, hprov]

theorem encodeIngestInput_refused {input : IngestInput} {c : ContentClass}
    (hclass : input.contentClass = some c) (hmode : input.isVerbatim = false) :
    encodeIngestInput py input = .error (contentClassError input c) := by
  unfold encodeIngestInput
  rw [hclass, hmode]

/-- What `encodeIngestInput` has made before it writes the metadata. -/
def ingestData (input : IngestInput) : Items :=
  let data : Items := input.dump py.jsonMode
  match data.lookup "provenance" with
  | some (.dict _) =>
    data.setSome "provenance" (input.provenance.map fun p => .dict (encodeProvenance p))
  | _ => data

theorem ingestData_eq (input : IngestInput) : ingestData py input =
    (input.dump py.jsonMode).setSome "provenance"
      (input.provenance.map fun p => .dict (encodeProvenance p)) := by
  unfold ingestData
  dsimp only
  rw [lookup_dump]
  cases input.provenance <;> rfl

theorem encodeIngestInput_accepted {input : IngestInput}
    (hclass : input.contentClass = none ∨ input.isVerbatim = true) :
    encodeIngestInput py input = writeMetadata input.metadata (ingestData py input) := by
  unfold encodeIngestInput
  rcases hclass with hclass | hmode
  · rw [hclass]
    rfl
  · rw [hmode]
    cases input.contentClass <;> rfl

theorem encodeIngestInput_eq {input : IngestInput}
    (hclass : input.contentClass = none ∨ input.isVerbatim = true)
    (hrange : ∀ items ∈ input.metadata, itemsInRange items = true) :
    encodeIngestInput py input = .ok (wireIngestInput py input) := by
  have hlookup : (ingestData py input).lookup "metadata" = input.metadata.map fun items =>
      .dict (items.map fun item => (item.1, py.jsonMode.any item.2)) := by
    simp [ingestData_eq, Items.lookup_setSome, lookup_dump]
  rw [encodeIngestInput_accepted py hclass, writeMetadata_eq hlookup hrange, ingestData_eq]
  rfl

end

section

variable {items : Items} {key : String} {s : Schema}

theorem valid_of_some {w : PyValue} (h : items.lookup key = some w) (hw : s.Valid w) :
    ∀ v, items.lookup key = some v → s.Valid v := by
  intro v hv
  rw [h] at hv
  cases hv
  exact hw

theorem valid_of_map {α : Type} {x : Option α} {g : α → PyValue}
    (h : items.lookup key = x.map g) (hg : ∀ a, s.Valid (g a)) :
    ∀ v, items.lookup key = some v → s.Valid v := by
  intro v hv
  rw [h] at hv
  obtain ⟨a, -, rfl⟩ := Option.map_eq_some_iff.mp hv
  exact hg a

end

theorem valid_scope (scope : Scope String) : scopeSchema.Valid (.dict scope.dump) := by
  have hfield (key : String) (x : Option String) (h : scope.dump.lookup key = x.map .str) :
      ∀ v, scope.dump.lookup key = some v → Schema.string.Valid v :=
    valid_of_map h fun _ => trivial
  refine ⟨⟨nofun, fun _ => scope.keys_dump⟩, hfield "user" scope.user ?_,
    hfield "agent" scope.agent ?_, hfield "namespace" scope.nameSpace ?_,
    hfield "thread" scope.thread ?_, trivial⟩
  all_goals simp [Scope.dump, Items.lookup_append, lookup_optItem]

theorem valid_provenance (p : Provenance) :
    provenanceSchema.Valid (.dict (encodeProvenance p)) := by
  have hfield (key : String) (x : Option String)
      (h : (encodeProvenance p).lookup key = x.map .str) :
      ∀ v, (encodeProvenance p).lookup key = some v → Schema.string.Valid v :=
    valid_of_map h fun _ => trivial
  refine ⟨⟨nofun, fun _ => keys_encodeProvenance p⟩, hfield "source" p.source ?_,
    hfield "sourceUrl" p.sourceUrl ?_, hfield "sourceId" p.sourceId ?_,
    hfield "extractor" p.extractor ?_, trivial⟩
  all_goals simp [encodeProvenance, Items.lookup_rename, Provenance.dump, Items.lookup_append,
    lookup_optItem]

theorem valid_message (m : Message) : messageSchema.Valid (.dict m.dump) := by
  have hrole : m.role.text ∈ ["user", "assistant", "system", "tool"] := by
    cases m.role <;> decide
  have hkeys : ∀ key ∈ Items.keys m.dump, key ∈ propertyKeys messageSchema := by
    intro key hkey
    simp only [Message.dump, keys_append, List.mem_append] at hkey
    rcases hkey with hkey | hkey
    · exact List.mem_append_left ["name"] hkey
    · rw [keys_optItem hkey]
      decide
  refine ⟨⟨?_, fun _ => hkeys⟩, valid_of_some (w := .str m.role.text) rfl hrole,
    valid_of_some (w := .str m.content) rfl trivial,
    valid_of_map (x := m.name) (g := .str) ?_ fun _ => trivial, trivial⟩
  · simp [Message.dump, Items.keys]
  · simp [Message.dump, Items.lookup_cons, lookup_optItem]

theorem valid_kind (kind : MemoryKind) : memoryKindSchema.Valid (.str kind.text) := by
  have hkind : kind.text ∈ ["fact", "episode", "summary", "procedure", "document"] := by
    cases kind <;> decide
  exact hkind

theorem valid_contentClass (c : ContentClass) : contentClassSchema.Valid (.str c.text) := by
  have hclass : c.text ∈ ["summary", "redacted", "raw"] := by
    cases c <;> decide
  exact hclass

def ingestBranch (input : IngestInput) : Schema :=
  match input.content with
  | .text _ => textIngestSchema
  | .messages _ => messageIngestSchema
  | .verbatim _ _ => verbatimIngestSchema

section

variable (py : Pydantic) (input : IngestInput)

theorem valid_common :
    (∀ v, (wireIngestInput py input).lookup "scope" = some v → scopeSchema.Valid v) ∧
    (∀ v, (wireIngestInput py input).lookup "provenance" = some v → provenanceSchema.Valid v) ∧
    ∀ v, (wireIngestInput py input).lookup "metadata" = some v →
      (Schema.object [] [] true).Valid v := by
  refine ⟨valid_of_some (w := .dict input.scope.dump) ?_ (valid_scope _),
    valid_of_map (x := input.provenance) (g := fun p => .dict (encodeProvenance p)) ?_
      valid_provenance,
    valid_of_map (x := input.metadata) (g := fun items => .dict (itemsIsoForm items)) ?_
      fun items => ⟨⟨nofun, nofun⟩, trivial⟩⟩
  all_goals simp [lookup_wireIngestInput, lookup_dump]

theorem lookup_mode :
    (wireIngestInput py input).lookup "mode" = some (.str input.mode) := by
  simp [lookup_wireIngestInput, lookup_dump]

theorem keys_ingestBranch (hclass : input.contentClass = none ∨ input.isVerbatim = true) :
    ∀ key ∈ Items.keys (wireIngestInput py input), key ∈ propertyKeys (ingestBranch input) := by
  rw [Items.keys_subset_iff]
  intro key hkey
  rw [lookup_wireIngestInput, lookup_dump]
  unfold ingestBranch at hkey
  cases hcontent : input.content with
  | verbatim content kind =>
    simp only [hcontent, propertyKeys, verbatimIngestSchema, List.map_cons, List.map_nil,
      List.mem_cons, List.not_mem_nil, or_false, not_or] at hkey
    simp [hkey]
  | text content =>
    have hnone : input.contentClass = none :=
      hclass.resolve_right (by simp [IngestInput.isVerbatim, hcontent])
    simp only [hcontent, propertyKeys, textIngestSchema, List.map_cons, List.map_nil,
      List.mem_cons, List.not_mem_nil, or_false, not_or] at hkey
    simp [hkey, hnone]
  | messages messages =>
    have hnone : input.contentClass = none :=
      hclass.resolve_right (by simp [IngestInput.isVerbatim, hcontent])
    simp only [hcontent, propertyKeys, messageIngestSchema, List.map_cons, List.map_nil,
      List.mem_cons, List.not_mem_nil, or_false, not_or] at hkey
    simp [hkey, hnone]

theorem valid_ingestBranch (hclass : input.contentClass = none ∨ input.isVerbatim = true) :
    (ingestBranch input).Valid (.dict (wireIngestInput py input)) := by
  obtain ⟨hscope, hprovenance, hmetadata⟩ := valid_common py input
  have hkeys := keys_ingestBranch py input hclass
  have hlookup (key : String) : (wireIngestInput py input).lookup key = _ :=
    (lookup_wireIngestInput py input key).trans (by rw [lookup_dump])
  have hmode := lookup_mode py input
  have hscopeKey : (wireIngestInput py input).lookup "scope" = some (.dict input.scope.dump) := by
    simp [hlookup]
  unfold ingestBranch at hkeys ⊢
  unfold IngestInput.mode at hmode
  cases hcontent : input.content with
  | text content =>
    rw [hcontent] at hkeys hmode
    have htext : (wireIngestInput py input).lookup "content" = some (.str content) := by
      simp [hlookup, hcontent]
    refine ⟨⟨?_, fun _ => hkeys⟩, valid_of_some hmode (List.mem_singleton_self _),
      valid_of_some htext trivial, hscope, hprovenance, hmetadata, trivial⟩
    simp [Items.mem_keys_of_lookup hmode, Items.mem_keys_of_lookup htext,
      Items.mem_keys_of_lookup hscopeKey]
  | messages messages =>
    rw [hcontent] at hkeys hmode
    have hmessages : (wireIngestInput py input).lookup "messages" =
        some (.list (messages.map fun m => .dict m.dump)) := by
      simp [hlookup, hcontent]
    have hvalid : (Schema.array messageSchema).Valid
        (.list (messages.map fun m => .dict m.dump)) := by
      refine ⟨trivial, fun x hx => ?_⟩
      obtain ⟨m, -, rfl⟩ := List.mem_map.mp hx
      exact valid_message m
    refine ⟨⟨?_, fun _ => hkeys⟩, valid_of_some hmode (List.mem_singleton_self _),
      valid_of_some hmessages hvalid, hscope, hprovenance, hmetadata, trivial⟩
    simp [Items.mem_keys_of_lookup hmode, Items.mem_keys_of_lookup hmessages,
      Items.mem_keys_of_lookup hscopeKey]
  | verbatim content kind =>
    rw [hcontent] at hkeys hmode
    have htext : (wireIngestInput py input).lookup "content" = some (.str content) := by
      simp [hlookup, hcontent]
    have hkind : (wireIngestInput py input).lookup "kind" =
        kind.map fun kind => .str kind.text := by
      simp [hlookup, hcontent]
    have hcontentClass : (wireIngestInput py input).lookup "content_class" =
        input.contentClass.map fun c => .str c.text := by
      simp [hlookup]
    refine ⟨⟨?_, fun _ => hkeys⟩, valid_of_some hmode (List.mem_singleton_self _),
      valid_of_some htext trivial, valid_of_map hkind valid_kind,
      valid_of_map hcontentClass valid_contentClass, hscope, hprovenance, hmetadata, trivial⟩
    simp [Items.mem_keys_of_lookup hmode, Items.mem_keys_of_lookup htext,
      Items.mem_keys_of_lookup hscopeKey]

theorem branch_unique {s : Schema} (hs : s ∈ ingestInputBranches)
    (hvalid : s.Valid (.dict (wireIngestInput py input))) : s = ingestBranch input := by
  have hconst (text : String) (properties : List (String × Schema)) (required : List String)
      (h : (Schema.object (("mode", .enum [text]) :: properties) required false).Valid
        (.dict (wireIngestInput py input))) : input.mode = text :=
    List.mem_singleton.mp (h.2.1 _ (lookup_mode py input))
  have hmode : s = textIngestSchema ∧ input.mode = "text" ∨
      s = messageIngestSchema ∧ input.mode = "messages" ∨
      s = verbatimIngestSchema ∧ input.mode = "verbatim" := by
    simp only [ingestInputBranches, List.mem_cons, List.not_mem_nil, or_false] at hs
    rcases hs with rfl | rfl | rfl
    · exact .inl ⟨rfl, hconst _ _ _ hvalid⟩
    · exact .inr (.inl ⟨rfl, hconst _ _ _ hvalid⟩)
    · exact .inr (.inr ⟨rfl, hconst _ _ _ hvalid⟩)
  unfold IngestInput.mode at hmode
  unfold ingestBranch
  cases hcontent : input.content <;> simpa [hcontent] using hmode

/-- The wire object carries the values of the model; its provenance is read under the names
of the wire, and the datetimes of its metadata are texts. -/
structure Carries (input : IngestInput) (wire : Items) : Prop where
  mode : wire.lookup "mode" = some (.str input.mode)
  scope : wire.lookup "scope" = some (.dict input.scope.dump)
  provenance : optField (ofDict readProvenance) wire "provenance" = some input.provenance
  metadata : wire.lookup "metadata" = input.metadata.map fun items => .dict (itemsIsoForm items)
  contentClass : wire.lookup "content_class" = input.contentClass.map fun c => .str c.text
  content : match input.content with
    | .text content => wire.lookup "content" = some (.str content)
    | .messages messages =>
      wire.lookup "messages" = some (.list (messages.map fun m => .dict m.dump))
    | .verbatim content kind => wire.lookup "content" = some (.str content) ∧
      wire.lookup "kind" = kind.map fun kind => .str kind.text

theorem carries_wireIngestInput : Carries input (wireIngestInput py input) where
  mode := lookup_mode py input
  scope := by simp [lookup_wireIngestInput, lookup_dump]
  provenance := by
    refine optField_map (g := fun p => .dict (encodeProvenance p)) ?_
      fun p _ => ⟨nofun, readProvenance_encode p⟩
    simp [lookup_wireIngestInput]
  metadata := by simp [lookup_wireIngestInput]
  contentClass := by simp [lookup_wireIngestInput, lookup_dump]
  content := by
    cases hcontent : input.content with
    | verbatim content kind => constructor <;> simp [lookup_wireIngestInput, lookup_dump, hcontent]
    | _ => simp [lookup_wireIngestInput, lookup_dump, hcontent]

end

/-- With metadata whose datetimes have a UTC form in years 1 to 9999, a `content_class` is
refused on every mode but verbatim, and all else is emitted under exactly one branch of the
schema. -/
theorem encode_ingest_input_branch (py : Pydantic) (input : IngestInput)
    (hrange : ∀ items ∈ input.metadata, itemsInRange items = true) :
    if input.contentClass.isSome ∧ input.isVerbatim = false then
      ∃ message, encodeIngestInput py input = .error (.valueError message)
    else
      ∃ wire, encodeIngestInput py input = .ok wire ∧ Carries input wire ∧
        ∃ branch ∈ ingestInputBranches, branch.Valid (.dict wire) ∧
          branch.StrictKeys (.dict wire) ∧
          ∀ other ∈ ingestInputBranches, other.Valid (.dict wire) → other = branch := by
  split
  · rename_i hrefused
    obtain ⟨c, hc⟩ := Option.isSome_iff_exists.mp hrefused.1
    exact ⟨_, encodeIngestInput_refused py hc hrefused.2⟩
  · rename_i hnot
    have hclass : input.contentClass = none ∨ input.isVerbatim = true := by
      by_contra hboth
      rw [not_or] at hboth
      exact hnot ⟨Option.isSome_iff_ne_none.mpr hboth.1, by simpa using hboth.2⟩
    have hvalid := valid_ingestBranch py input hclass
    refine ⟨_, encodeIngestInput_eq py hclass hrange, carries_wireIngestInput py input,
      ingestBranch input, ?_, hvalid, strictKeys_of_valid hvalid, fun other hother h =>
        branch_unique py input hother h⟩
    unfold ingestBranch ingestInputBranches
    cases input.content <;> simp

def firstDatetime : DateTime := .utc 0 (Nat.succ_pos _)

def sampleVerbatim : IngestInput :=
  ⟨⟨some "u1", none, none, none⟩, some ⟨none, none, some "s1", none⟩,
    some [("at", .list [.datetime firstDatetime])], some .summary,
    .verbatim "text" (some .fact)⟩

theorem encode_ingest_input_branch_verbatim :
    ∃ wire, encodeIngestInput Pydantic.reference sampleVerbatim = .ok wire ∧
      Carries sampleVerbatim wire ∧ ∃ branch ∈ ingestInputBranches, branch.Valid (.dict wire) ∧
        branch.StrictKeys (.dict wire) ∧
        ∀ other ∈ ingestInputBranches, other.Valid (.dict wire) → other = branch := by
  have hrange : ∀ items ∈ sampleVerbatim.metadata, itemsInRange items = true := by
    rintro _ ⟨⟩
    decide
  exact encode_ingest_input_branch Pydantic.reference sampleVerbatim hrange

/-- A datetime in the metadata that has no UTC form in years 1 to 9999. -/
theorem not_always_encoded :
    encodeIngestInput Pydantic.reference
        ⟨⟨none, none, none, none⟩, none, some [("at", .datetime earlyDatetime)], none,
          .text "text"⟩ = .error .overflowError :=
  rfl

end Contract

end AtomicMemory
