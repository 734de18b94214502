import AtomicMemory.Providers.AtomicMemoryHandle

-- What the entry points that write a memory make of a response with status 202.

open PyValue hiding none

namespace AtomicMemory

/-- `afetch_json`. -/
def afetchJson : HttpOutcome → Except PyError PyValue
  | .timeout | .requestError => .error .networkError
  | .response status body => do
    raiseForStatus status
    jsonBody body

/-- `afetch_json` with `require_completed=True`. -/
def afetchJsonCompleted : HttpOutcome → Except PyError PyValue
  | .timeout | .requestError => .error .networkError
  | .response status body => do
    raiseForStatus status
    if status = 202 then .error .pendingIngestError else jsonBody body

namespace AsyncAtomicMemoryProvider

/-- `AsyncAtomicMemoryProvider.do_ingest`. -/
def doIngest (p : AtomicMemoryProvider.Provider) (input : IngestInput) :
    Except PyError (Call IngestResult) := do
  requireClient p.initialized
  .ok
    { request := p.post
        (if input.isVerbatim then "/memories/ingest/quick" else "/memories/ingest").toList
        (AtomicMemoryProvider.buildIngestBody input)
      receive := fun outcome => do
        let raw ← afetchJsonCompleted outcome
        AtomicMemoryProvider.toIngestResult raw }

/-- `ingest`, in the `_run_operation` of the async base class. -/
def ingest (p : AtomicMemoryProvider.Provider) (input : IngestInput) :
    Except PyError (Call IngestResult) :=
  runOperation p.initialized AtomicMemoryProvider.requiredScope "ingest" input.scope
    (doIngest p input)

theorem ingest_eq (p : AtomicMemoryProvider.Provider) (input : IngestInput) :
    ingest p input = p.ingest input := rfl

end AsyncAtomicMemoryProvider

namespace AsyncAtomicMemoryHandle
open AtomicMemoryHandle

variable (h : Handle) (py : Pydantic) (input : AtomicMemoryIngestInput) (scope : MemoryScope String)

/-- `AsyncAtomicMemoryHandle._post_ingest`. -/
def postIngest (path : List Char) (skipExtraction : Bool) :
    Except ValidationError (Call AtomicMemoryIngestResult) := do
  assertScopeAllowsVisibility scope input.visibility
  let body := scopeToFields scope false true ++
    [("conversation", .str input.conversation), ("source_site", .str input.sourceSite),
      ("source_url", .str (input.sourceUrl.getD ""))] ++
    (if scope.isWorkspace then
      optItem "visibility" input.visibility fun visibility => .str visibility.text
    else []) ++
    optItem "config_override" input.configOverride .dict ++
    if skipExtraction then [("skip_extraction", .bool true)] else []
  .ok
    { request := ⟨"POST", path, some body⟩
      receive := fun outcome => do
        let raw ← afetchJson outcome
        modelValidate "AtomicMemoryIngestResult"
          ((dict? raw).bind (AtomicMemoryIngestResult.ofItems py)) }

/-- `ingest_full`. -/
def ingestFull : Except ValidationError (Call AtomicMemoryIngestResult) :=
  postIngest py input scope (h.route "/memories/ingest".toList) false

/-- `ingest_quick`. -/
def ingestQuick (skipExtraction : Bool) : Except ValidationError (Call AtomicMemoryIngestResult) :=
  postIngest py input scope (h.route "/memories/ingest/quick".toList) skipExtraction

theorem postIngest_eq (path : List Char) (skipExtraction : Bool) :
    postIngest py input scope path skipExtraction =
      Handle.postIngest py path input scope skipExtraction := rfl

theorem ingestFull_eq : ingestFull h py input scope = h.ingestFull py input scope :=
  postIngest_eq py input scope _ _

theorem ingestQuick_eq (skipExtraction : Bool) :
    ingestQuick h py input scope skipExtraction = h.ingestQuick py input scope skipExtraction :=
  postIngest_eq py input scope _ _

end AsyncAtomicMemoryHandle

inductive Style
  | sync
  | async

inductive IngestEntry
  | ingest (style : Style) (input : IngestInput)
  | ingestFull (style : Style) (input : AtomicMemoryHandle.AtomicMemoryIngestInput)
      (scope : AtomicMemoryHandle.MemoryScope String)
  | ingestQuick (style : Style) (input : AtomicMemoryHandle.AtomicMemoryIngestInput)
      (scope : AtomicMemoryHandle.MemoryScope String) (skipExtraction : Bool)

namespace IngestEntry

/-- The result of V3's `ingest`, or of the handle's. -/
abbrev Result := IngestResult ⊕ AtomicMemoryHandle.AtomicMemoryIngestResult

section

variable (p : AtomicMemoryProvider.Provider) (h : AtomicMemoryHandle.Handle) (py : Pydantic)

/-- The call that an entry point makes of an input that passes its checks. -/
def call : IngestEntry → Option (Call Result)
  | ingest .sync input => (p.ingest input).toOption.map fun call => call.map .inl
  | ingest .async input =>
    (AsyncAtomicMemoryProvider.ingest p input).toOption.map fun call => call.map .inl
  | ingestFull .sync input scope =>
    (h.ingestFull py input scope).toOption.map fun call => call.map .inr
  | ingestFull .async input scope =>
    (AsyncAtomicMemoryHandle.ingestFull h py input scope).toOption.map fun call => call.map .inr
  | ingestQuick .sync input scope skipExtraction =>
    (h.ingestQuick py input scope skipExtraction).toOption.map fun call => call.map .inr
  | ingestQuick .async input scope skipExtraction =>
    (AsyncAtomicMemoryHandle.ingestQuick h py input scope skipExtraction).toOption.map
      fun call => call.map .inr

end

def isV3 : IngestEntry → Bool
  | ingest .. => true
  | ingestFull .. | ingestQuick .. => false

theorem receive_postIngest {py : Pydantic} {path : List Char}
    {input : AtomicMemoryHandle.AtomicMemoryIngestInput}
    {scope : AtomicMemoryHandle.MemoryScope String} {skipExtraction : Bool}
    {call : Call AtomicMemoryHandle.AtomicMemoryIngestResult}
    (h : AtomicMemoryHandle.Handle.postIngest py path input scope skipExtraction = .ok call)
    (body : Option PyValue) :
    call.receive (.response 202 body) = (do
      let raw ← jsonBody body
      modelValidate "AtomicMemoryIngestResult"
        ((dict? raw).bind (AtomicMemoryHandle.AtomicMemoryIngestResult.ofItems py))) := by
  obtain ⟨_, -, hcall⟩ := Except.bind_ok h
  cases hcall
  rfl

theorem modelValidate_ne_pending {α : Type} (model : String) (result : Option α) :
    modelValidate model result ≠ .error .pendingIngestError := by
  cases result <;> exact nofun

theorem receive_postIngest_ne {py : Pydantic} {path : List Char}
    {input : AtomicMemoryHandle.AtomicMemoryIngestInput}
    {scope : AtomicMemoryHandle.MemoryScope String} {skipExtraction : Bool}
    {call : Call AtomicMemoryHandle.AtomicMemoryIngestResult}
    (h : AtomicMemoryHandle.Handle.postIngest py path input scope skipExtraction = .ok call)
    (body : Option PyValue) :
    call.receive (.response 202 body) ≠ .error .pendingIngestError := by
  rw [receive_postIngest h]
  cases body with
  | none => exact nofun
  | some raw => exact modelValidate_ne_pending _ _

theorem receive_ingest {p : AtomicMemoryProvider.Provider} {input : IngestInput}
    {call : Call IngestResult} (h : p.ingest input = .ok call) (body : Option PyValue) :
    call.receive (.response 202 body) = .error .pendingIngestError := by
  unfold AtomicMemoryProvider.Provider.ingest runOperation at h
  split at h
  · cases h
  split at h
  · cases h
  split at h
  · cases h
  · rename_i inner hinner
    obtain ⟨_, -, hinner⟩ := Except.bind_ok hinner
    cases hinner
    cases h
    rfl

theorem map_receive_iff {α β : Type} (call : Call α) (f : α → β) (outcome : HttpOutcome)
    (e : PyError) :
    (call.map f).receive outcome = .error e ↔ call.receive outcome = .error e := by
  show (call.receive outcome).map f = .error e ↔ _
  cases call.receive outcome with
  | error e' => simp only [Except.map, Except.error.injEq]
  | ok a => exact ⟨nofun, nofun⟩

section

variable {p : AtomicMemoryProvider.Provider} {handle : AtomicMemoryHandle.Handle} {py : Pydantic}
  {entry : IngestEntry} {result : Call Result}

theorem toOption_map_ok {ε α β : Type} {x : Except ε α} {f : α → β} {b : β}
    (h : x.toOption.map f = some b) : ∃ a, x = .ok a ∧ f a = b := by
  cases x with
  | error e => cases h
  | ok a => exact ⟨a, rfl, Option.some.inj h⟩

/-- A call raises `PendingIngestError` for a response with status 202 exactly when it is
V3's, whatever the body. -/
theorem pending_iff_isV3 (h : entry.call p handle py = some result) (body : Option PyValue) :
    result.receive (.response 202 body) = .error .pendingIngestError ↔ entry.isV3 = true := by
  cases entry with
  | ingest style input =>
    obtain ⟨call, hcall, rfl⟩ : ∃ call, p.ingest input = .ok call ∧ call.map Sum.inl = result := by
      cases style with
      | sync => exact toOption_map_ok h
      | async =>
        obtain ⟨call, hcall, hmap⟩ := toOption_map_ok h
        exact ⟨call, AsyncAtomicMemoryProvider.ingest_eq p input ▸ hcall, hmap⟩
    rw [map_receive_iff]
    exact iff_of_true (receive_ingest hcall body) rfl
  | ingestFull style input scope =>
    obtain ⟨call, hcall, rfl⟩ : ∃ call, handle.ingestFull py input scope = .ok call ∧
        call.map Sum.inr = result := by
      cases style with
      | sync => exact toOption_map_ok h
      | async =>
        obtain ⟨call, hcall, hmap⟩ := toOption_map_ok h
        exact ⟨call, AsyncAtomicMemoryHandle.ingestFull_eq handle py input scope ▸ hcall, hmap⟩
    rw [map_receive_iff]
    exact iff_of_false (receive_postIngest_ne hcall body) nofun
  | ingestQuick style input scope skipExtraction =>
    obtain ⟨call, hcall, rfl⟩ : ∃ call, handle.ingestQuick py input scope skipExtraction = .ok call ∧
        call.map Sum.inr = result := by
      cases style with
      | sync => exact toOption_map_ok h
      | async =>
        obtain ⟨call, hcall, hmap⟩ := toOption_map_ok h
        rw [AsyncAtomicMemoryHandle.ingestQuick_eq] at hcall
        exact ⟨call, hcall, hmap⟩
    rw [map_receive_iff]
    exact iff_of_false (receive_postIngest_ne hcall body) nofun

end

def sampleProvider : AtomicMemoryProvider.Provider := ⟨"/v1".toList, true, none⟩

def sampleText : IngestEntry :=
  ingest .sync ⟨⟨some "u1", none, none, none⟩, none, none, none, .text "hi"⟩

theorem pending_iff_isV3_ingest :
    ∃ result, sampleText.call sampleProvider ⟨"v1".toList⟩ .reference = some result ∧
      result.receive (.response 202 none) = .error .pendingIngestError := by
  have hcall : sampleText.call sampleProvider ⟨"v1".toList⟩ .reference = some _ := rfl
  exact ⟨_, hcall, (pending_iff_isV3 hcall none).mpr rfl⟩

/-- The body of an accepted write that nothing was extracted from yet. -/
def acceptedBody : PyValue :=
  .dict [("episode_id", .str "e1"), ("facts_extracted", .int 0), ("memories_stored", .int 0),
    ("memories_updated", .int 0), ("memories_deleted", .int 0), ("memories_skipped", .int 0),
    ("links_created", .int 0), ("composites_created", .int 0)]

/-- An accepted write of the handle is reported as one that stored nothing. -/
theorem pending_reported_as_result :
    ∃ result, (ingestQuick .async ⟨"user: hi", "sdk", none, none, none⟩ (.user "u1" none) true).call
        sampleProvider ⟨"v1".toList⟩ .reference = some result ∧
      result.receive (.response 202 (some acceptedBody)) =
        .ok (.inr ⟨"e1", 0, 0, 0, 0, 0, [], [], 0, 0⟩) :=
  ⟨_, rfl, rfl⟩

end IngestEntry

end AtomicMemory
