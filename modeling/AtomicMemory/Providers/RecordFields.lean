import AtomicMemory.Providers.AtomicMemoryHandle

-- Which records `to_memory` of the provider and `_to_atomic_memory` of the handle accept, field by
-- field, and what a thread adds to what the former asks.

open Calendar
open PyValue hiding none

namespace AtomicMemory

/-- A field of type `T | None` takes what the record has under the key. -/
def AcceptsField {α : Type} (f : PyValue → Option α) (raw : Items) (key : String) : Prop :=
  Items.get raw key = .none ∨ ∃ a, f (Items.get raw key) = some a

theorem optField_isSome {α : Type} {f : PyValue → Option α} {raw : Items} {key : String} :
    (∃ x, optField f raw key = some x) ↔ AcceptsField f raw key := by
  unfold optField AcceptsField Items.get
  cases raw.lookup key with
  | none => exact ⟨fun _ => .inl rfl, fun _ => ⟨none, rfl⟩⟩
  | some v =>
    show (∃ x, nullable f v = some x) ↔ v = .none ∨ ∃ a, f v = some a
    by_cases hv : v = .none
    · rw [hv]
      exact ⟨fun _ => .inl rfl, fun _ => ⟨none, rfl⟩⟩
    · constructor
      · rintro ⟨x, hx⟩
        unfold nullable at hx
        split at hx
        · exact absurd rfl hv
        · obtain ⟨a, ha, -⟩ := Option.map_eq_some_iff.mp hx
          exact .inr ⟨a, ha⟩
      · rintro (h | ⟨a, ha⟩)
        · exact absurd h hv
        · exact ⟨some a, nullable_eq hv ha⟩

theorem str?_isSome {v : PyValue} : (∃ text, str? v = some text) ↔ ∃ text, v = .str text := by
  constructor
  · rintro ⟨text, h⟩
    cases v with
    | str s => exact ⟨s, rfl⟩
    | _ => cases h
  · rintro ⟨text, rfl⟩
    exact ⟨text, rfl⟩

section

variable {α β ε : Type}

/-- A chain succeeds when its first step does and the rest goes through whatever that gives. -/
theorem exists_bind_some {x : Option α} {f : α → Option β} {rest : Prop}
    (h : ∀ a, x = some a → ((∃ b, f a = some b) ↔ rest)) :
    (∃ b, (x >>= f) = some b) ↔ (∃ a, x = some a) ∧ rest := by
  constructor
  · rintro ⟨b, hb⟩
    obtain ⟨a, ha, hb⟩ := Option.bind_eq_some_iff.mp hb
    exact ⟨⟨a, ha⟩, (h a ha).mp ⟨b, hb⟩⟩
  · rintro ⟨⟨a, ha⟩, hrest⟩
    obtain ⟨b, hb⟩ := (h a ha).mpr hrest
    exact ⟨b, Option.bind_eq_some_iff.mpr ⟨a, ha, hb⟩⟩

theorem exists_bind_ok {x : Except ε α} {f : α → Except ε β} {rest : Prop}
    (h : ∀ a, x = .ok a → ((∃ b, f a = .ok b) ↔ rest)) :
    (∃ b, (x >>= f) = .ok b) ↔ (∃ a, x = .ok a) ∧ rest := by
  constructor
  · rintro ⟨b, hb⟩
    obtain ⟨a, ha, hb⟩ := Except.bind_ok hb
    exact ⟨⟨a, ha⟩, (h a ha).mp ⟨b, hb⟩⟩
  · rintro ⟨⟨a, ha⟩, hrest⟩
    obtain ⟨b, hb⟩ := (h a ha).mpr hrest
    exact ⟨b, Except.bind_intro ha hb⟩

theorem exists_modelValidate {model : String} {x : Option α} :
    (∃ a, modelValidate model x = .ok a) ↔ ∃ a, x = some a := by
  constructor
  · rintro ⟨a, h⟩
    exact ⟨a, modelValidate_ok h⟩
  · rintro ⟨a, rfl⟩
    exact ⟨a, rfl⟩

end

def ReadsTime (python : Python) (raw : Items) (key : String) : Prop :=
  ∃ time, AtomicMemoryProvider.parseIso python (Items.get raw key) = .ok time

structure CommonFields (python : Python) (raw : Items) : Prop where
  id : ∃ id, raw.lookup "id" = some (.str id)
  createdAt : ReadsTime python raw "created_at"
  sourceSite : AcceptsField str? raw "source_site"
  sourceUrl : AcceptsField str? raw "source_url"

/-- What `to_memory` asks of a record. -/
structure ProviderFields (python : Python) (raw : Items) : Prop extends
    CommonFields python raw where
  content : ∃ content, raw.lookup "content" = some (.str content)

/-- What `_to_atomic_memory` asks of a record. -/
structure HandleFields (python : Python) (py : Pydantic) (raw : Items) : Prop extends
    CommonFields python raw where
  content : (Items.get raw "content").truthy = true →
    ∃ content, Items.get raw "content" = .str content
  updatedAt : (Items.get raw "updated_at").truthy = true → ReadsTime python raw "updated_at"
  importance : AcceptsField py.float raw "importance"
  episodeId : AcceptsField str? raw "episode_id"
  visibility : AcceptsField AtomicMemoryHandle.Visibility.ofValue raw "visibility"
  metadata : AcceptsField dict? raw "metadata"

namespace AtomicMemoryHandle

variable {python : Python} {py : Pydantic} {raw : Items}

theorem ofItems_isSome {id : PyValue} {scope : MemoryScope PyValue} {createdAt : DateTime}
    {updatedAt : Option DateTime} :
    (∃ m, AtomicMemoryMemory.ofItems py raw id scope createdAt updatedAt = some m) ↔
      (∃ text, str? id = some text) ∧
      (∃ text, str? (if (Items.get raw "content").truthy then Items.get raw "content"
        else .str "") = some text) ∧
      (∃ x, optField py.float raw "importance" = some x) ∧
      (∃ x, optField str? raw "source_site" = some x) ∧
      (∃ x, optField str? raw "source_url" = some x) ∧
      (∃ x, optField str? raw "episode_id" = some x) ∧
      (∃ x, optField Visibility.ofValue raw "visibility" = some x) ∧
      (∃ x, optField dict? raw "metadata" = some x) ∧ True :=
  exists_bind_some fun _ _ => exists_bind_some fun _ _ => exists_bind_some fun _ _ =>
    exists_bind_some fun _ _ => exists_bind_some fun _ _ => exists_bind_some fun _ _ =>
    exists_bind_some fun _ _ => exists_bind_some fun _ _ => ⟨fun _ => trivial, fun _ => ⟨_, rfl⟩⟩

theorem content_isSome :
    (∃ text, str? (if (Items.get raw "content").truthy then Items.get raw "content"
      else .str "") = some text) ↔
      ((Items.get raw "content").truthy = true →
        ∃ content, Items.get raw "content" = .str content) := by
  rw [str?_isSome]
  by_cases htruthy : (Items.get raw "content").truthy = true
  · rw [if_pos htruthy]
    exact ⟨fun h _ => h, fun h => h htruthy⟩
  · rw [if_neg htruthy]
    exact ⟨fun _ h => absurd h htruthy, fun _ => ⟨"", rfl⟩⟩

theorem updatedAt_isOk :
    (∃ time, updatedAtOf python raw = .ok time) ↔
      ((Items.get raw "updated_at").truthy = true → ReadsTime python raw "updated_at") := by
  unfold updatedAtOf
  by_cases htruthy : (Items.get raw "updated_at").truthy = true
  · rw [if_pos htruthy]
    exact ⟨fun h _ => h, fun h => h htruthy⟩
  · rw [if_neg htruthy]
    exact ⟨fun _ h => absurd h htruthy, fun _ => ⟨_, rfl⟩⟩

theorem buildMemoryScope_unfiltered (raw : Items) (user : String) :
    buildMemoryScope raw (.user user none) =
      .ok (.user user (if (Items.get raw "session_id").truthy then
        some (Items.get raw "session_id") else none)) := by
  unfold buildMemoryScope
  by_cases htruthy : (Items.get raw "session_id").truthy = true
  · simp [MemoryScope.thread, MemoryScope.withThread, htruthy]
  · simp [MemoryScope.thread, MemoryScope.withThread, htruthy]

theorem toAtomicMemory_isOk {user : String} :
    (∃ m, toAtomicMemory python py (.dict raw) (.user user none) = .ok m) ↔
      HandleFields python py raw := by
  have hvalid (id : PyValue) (hid : item raw "id" = .ok id) :
      (∃ text, str? id = some text) ↔ ∃ text, raw.lookup "id" = some (.str text) := by
    rw [str?_isSome, item_ok hid]
    simp
  unfold toAtomicMemory
  dsimp only
  rw [buildMemoryScope_unfiltered]
  refine (exists_bind_ok fun id hid => exists_bind_ok fun _ _ => exists_bind_ok fun _ _ =>
    exists_bind_ok fun _ _ => exists_modelValidate.trans
      (ofItems_isSome.trans (and_congr_left' (hvalid id hid)))).trans ⟨?_, ?_⟩
  · rintro ⟨-, -, hcreatedAt, hupdatedAt, hid, hcontent, himportance, hsourceSite, hsourceUrl,
      hepisodeId, hvisibility, hmetadata, -⟩
    exact
      { id := hid
        createdAt := hcreatedAt
        sourceSite := optField_isSome.mp hsourceSite
        sourceUrl := optField_isSome.mp hsourceUrl
        content := content_isSome.mp hcontent
        updatedAt := updatedAt_isOk.mp hupdatedAt
        importance := optField_isSome.mp himportance
        episodeId := optField_isSome.mp hepisodeId
        visibility := optField_isSome.mp hvisibility
        metadata := optField_isSome.mp hmetadata }
  · intro h
    obtain ⟨id, hid⟩ := h.id
    exact ⟨⟨.str id, by rw [item, hid]⟩, ⟨_, rfl⟩, h.createdAt, updatedAt_isOk.mpr h.updatedAt,
      ⟨id, hid⟩, content_isSome.mpr h.content, optField_isSome.mpr h.importance,
      optField_isSome.mpr h.sourceSite, optField_isSome.mpr h.sourceUrl,
      optField_isSome.mpr h.episodeId, optField_isSome.mpr h.visibility,
      optField_isSome.mpr h.metadata, trivial⟩

end AtomicMemoryHandle

namespace AtomicMemoryProvider

variable {python : Python} {raw : Items}

/-- The scope of a user, with a thread or without one. -/
def threadScope (user : String) (thread : Option String) : Scope String :=
  ⟨some user, none, none, thread⟩

/-- The labels of a memory that was asked for without a thread. -/
def unfilteredLabels (raw : Items) (user : String) : Scope PyValue :=
  ⟨some (.str user), none,
    if (Items.get raw "namespace").truthy then some (Items.get raw "namespace") else none,
    if (Items.get raw "session_id").truthy then some (Items.get raw "session_id") else none⟩

theorem buildScope_unfiltered (raw : Items) (user : String) :
    buildScope raw (threadScope user none) = .ok (unfilteredLabels raw user) := by
  unfold buildScope threadScope unfilteredLabels
  simp [Scope.map]

theorem buildScope_thread (raw : Items) (user thread : String) :
    (thread ≠ "" ∧ Items.get raw "session_id" = .str thread ∧
      buildScope raw (threadScope user (some thread)) = .ok (unfilteredLabels raw user)) ∨
    (¬ (thread ≠ "" ∧ Items.get raw "session_id" = .str thread) ∧
      ∃ message,
        buildScope raw (threadScope user (some thread)) = .error (.valueError message)) := by
  by_cases hsession : thread ≠ "" ∧ Items.get raw "session_id" = .str thread
  · obtain ⟨hne, hsession⟩ := hsession
    refine .inl ⟨hne, hsession, ?_⟩
    have htruthy : (Items.get raw "session_id").truthy = true := by
      rw [hsession]
      exact decide_eq_true hne
    have htext : isText (Items.get raw "session_id") thread = true := isText_iff.mpr hsession
    unfold buildScope threadScope unfilteredLabels
    simp [Scope.map, htruthy, htext]
  · refine .inr ⟨hsession, ?_⟩
    unfold buildScope threadScope
    simp only [Option.any_none, Bool.false_eq_true, if_false, Option.any_some, Option.isSome_some,
      Bool.true_and]
    split
    · exact ⟨_, rfl⟩
    rename_i htruthy
    split
    · exact ⟨_, rfl⟩
    rename_i htext
    have heq : Items.get raw "session_id" = .str thread :=
      isText_iff.mp (by simpa using htext)
    refine absurd ⟨?_, heq⟩ hsession
    rintro rfl
    rw [heq] at htruthy
    exact htruthy rfl

/-- An entry that is left out when its value is `None`. -/
def someEntry (target : String) (v : PyValue) : Items := if v.isNone then [] else [(target, v)]

theorem get_someEntry_self (target : String) (v : PyValue) {rest : Items}
    (hrest : Items.get rest target = .none) :
    Items.get (someEntry target v ++ rest) target = v := by
  unfold someEntry
  by_cases hnone : v.isNone = true
  · rw [if_pos hnone, (isNone_iff v).mp hnone]
    exact hrest
  · rw [if_neg hnone]
    unfold Items.get
    rw [List.cons_append, Items.lookup_cons, if_pos rfl]
    rfl

theorem get_someEntry_ne {target key : String} (hne : key ≠ target) (v : PyValue) (rest : Items) :
    Items.get (someEntry target v ++ rest) key = Items.get rest key := by
  unfold someEntry
  split
  · rfl
  · unfold Items.get
    rw [List.cons_append, Items.lookup_cons, if_neg hne, List.nil_append]

def provenanceFields (raw : Items) : Items :=
  someEntry "source" (Items.get raw "source_site") ++
    (someEntry "source_url" (Items.get raw "source_url") ++ [])

theorem buildProvenance_eq (raw : Items) :
    buildProvenance raw =
      if provenanceFields raw = [] then .ok none
      else (modelValidate "Provenance" (Provenance.ofItems (provenanceFields raw))).map some := by
  unfold provenanceFields
  rw [List.append_nil]
  rfl

theorem get_provenanceFields (raw : Items) :
    Items.get (provenanceFields raw) "source" = Items.get raw "source_site" ∧
      Items.get (provenanceFields raw) "source_url" = Items.get raw "source_url" ∧
      Items.get (provenanceFields raw) "source_id" = .none ∧
      Items.get (provenanceFields raw) "extractor" = .none := by
  unfold provenanceFields
  refine ⟨get_someEntry_self _ _ ?_, ?_, ?_, ?_⟩
  · rw [get_someEntry_ne (by decide)]
    rfl
  · rw [get_someEntry_ne (by decide)]
    exact get_someEntry_self _ _ rfl
  · rw [get_someEntry_ne (by decide), get_someEntry_ne (by decide)]
    rfl
  · rw [get_someEntry_ne (by decide), get_someEntry_ne (by decide)]
    rfl

theorem keys_provenanceFields (raw : Items) :
    ∀ key ∈ Items.keys (provenanceFields raw), key ∈ provenanceKeys := by
  intro key hkey
  have hentry {target : String} {v : PyValue} (h : key ∈ Items.keys (someEntry target v)) :
      key = target := by
    unfold someEntry at h
    split at h
    · cases h
    · exact List.mem_singleton.mp h
  unfold provenanceFields at hkey
  rw [List.append_nil, keys_append, List.mem_append] at hkey
  rcases hkey with h | h
  · rw [hentry h]
    decide
  · rw [hentry h]
    decide

theorem provenance_isSome (raw : Items) :
    (∃ provenance, Provenance.ofItems (provenanceFields raw) = some provenance) ↔
      AcceptsField str? raw "source_site" ∧ AcceptsField str? raw "source_url" := by
  obtain ⟨hsource, hurl, hid, hextractor⟩ := get_provenanceFields raw
  unfold Provenance.ofItems
  rw [forbidExtra_eq (keys_provenanceFields raw)]
  refine (exists_bind_some fun _ _ => exists_bind_some fun _ _ => exists_bind_some fun _ _ =>
    exists_bind_some fun _ _ => ⟨fun _ => trivial, fun _ => ⟨_, rfl⟩⟩).trans ?_
  rw [optField_isSome, optField_isSome, optField_isSome, optField_isSome]
  unfold AcceptsField
  rw [hsource, hurl, hid, hextractor]
  exact ⟨fun ⟨hsource, hurl, _⟩ => ⟨hsource, hurl⟩,
    fun ⟨hsource, hurl⟩ => ⟨hsource, hurl, .inl rfl, .inl rfl, trivial⟩⟩

theorem buildProvenance_isOk :
    (∃ provenance, buildProvenance raw = .ok provenance) ↔
      AcceptsField str? raw "source_site" ∧ AcceptsField str? raw "source_url" := by
  rw [buildProvenance_eq, ← provenance_isSome]
  by_cases hempty : provenanceFields raw = []
  · rw [if_pos hempty, hempty]
    exact ⟨fun _ => ⟨_, rfl⟩, fun _ => ⟨_, rfl⟩⟩
  · rw [if_neg hempty]
    constructor
    · rintro ⟨_, h⟩
      obtain ⟨provenance, hprovenance, -⟩ := Except.of_map_ok h
      exact ⟨provenance, modelValidate_ok hprovenance⟩
    · rintro ⟨provenance, h⟩
      rw [h]
      exact ⟨_, rfl⟩

theorem buildMetadata_isSome : ∃ metadata, nullable dict? (buildMetadata raw) = some metadata := by
  have hmetadata (items : Items) :
      ∃ metadata, nullable dict? (if items = [] then .none else .dict items) = some metadata := by
    by_cases hempty : items = []
    · rw [if_pos hempty]
      exact ⟨none, rfl⟩
    · rw [if_neg hempty]
      exact ⟨some items, rfl⟩
  exact hmetadata _

/-- What `to_memory` does once the labels are there. -/
def finishMemory (python : Python) (raw : Items) (createdAt : Option DateTime)
    (id content : PyValue) (labels : Scope PyValue) : Except PyError (Memory PyValue) := do
  let provenance ← buildProvenance raw
  Memory.create id content labels none (createdAt.getD (python.clock 0)) none provenance
    (buildMetadata raw)

theorem toMemory_dict (python : Python) (raw : Items) (scope : Scope String) :
    toMemory python scope 0 (.dict raw) = (do
      let createdAt ← parseIso python (Items.get raw "created_at")
      let id ← item raw "id"
      let content ← item raw "content"
      let labels ← buildScope raw scope
      finishMemory python raw createdAt id content labels) := rfl

theorem finishMemory_isOk {createdAt : Option DateTime} {id content : PyValue}
    {labels : Scope PyValue} :
    (∃ m, finishMemory python raw createdAt id content labels = .ok m) ↔
      (∃ provenance, buildProvenance raw = .ok provenance) ∧
      (∃ text, str? id = some text) ∧ (∃ text, str? content = some text) ∧
      (∃ metadata, nullable dict? (buildMetadata raw) = some metadata) ∧ True :=
  exists_bind_ok fun _ _ => exists_modelValidate.trans
    (exists_bind_some fun _ _ => exists_bind_some fun _ _ => exists_bind_some fun _ _ =>
      ⟨fun _ => trivial, fun _ => ⟨_, rfl⟩⟩)

theorem modelValidate_error {α : Type} {model : String} {x : Option α} {e : PyError}
    (h : modelValidate model x = .error e) : e = .validationError model := by
  unfold modelValidate at h
  split at h
  · cases h
  · exact (Except.error.inj h).symm

theorem finishMemory_error {createdAt : Option DateTime} {id content : PyValue}
    {labels : Scope PyValue} {e : PyError}
    (h : finishMemory python raw createdAt id content labels = .error e) :
    ∃ model, e = .validationError model := by
  unfold finishMemory at h
  cases hprovenance : buildProvenance raw with
  | ok provenance =>
    rw [hprovenance] at h
    exact ⟨"Memory", modelValidate_error h⟩
  | error e' =>
    rw [hprovenance] at h
    cases h
    rw [buildProvenance_eq] at hprovenance
    split at hprovenance
    · cases hprovenance
    · cases hvalidate : modelValidate "Provenance" (Provenance.ofItems (provenanceFields raw)) with
      | ok p =>
        rw [hvalidate] at hprovenance
        cases hprovenance
      | error e'' =>
        rw [hvalidate] at hprovenance
        cases hprovenance
        exact ⟨"Provenance", modelValidate_error hvalidate⟩

structure ReachesThread (python : Python) (raw : Items) : Prop where
  createdAt : ReadsTime python raw "created_at"
  id : ∃ id, raw.lookup "id" = some id
  content : ∃ content, raw.lookup "content" = some content

/-- A thread makes no difference to a record of that thread, nor to one whose mapping fails
before the session is read. -/
theorem toMemory_thread_iff (user thread : String) :
    toMemory python (threadScope user (some thread)) 0 (.dict raw) =
        toMemory python (threadScope user none) 0 (.dict raw) ↔
      (ReachesThread python raw → thread ≠ "" ∧ Items.get raw "session_id" = .str thread) := by
  rw [toMemory_dict, toMemory_dict, buildScope_unfiltered]
  cases hcreatedAt : parseIso python (Items.get raw "created_at") with
  | error e =>
    refine iff_of_true rfl fun h => ?_
    obtain ⟨_, htime⟩ := h.createdAt
    rw [hcreatedAt] at htime
    cases htime
  | ok createdAt =>
    cases hid : raw.lookup "id" with
    | none =>
      refine iff_of_true ?_ fun h => ?_
      · unfold item
        rw [hid]
        rfl
      · obtain ⟨_, hsome⟩ := h.id
        rw [hid] at hsome
        cases hsome
    | some id =>
      cases hcontent : raw.lookup "content" with
      | none =>
        refine iff_of_true ?_ fun h => ?_
        · unfold item
          rw [hid, hcontent]
          rfl
        · obtain ⟨_, hsome⟩ := h.content
          rw [hcontent] at hsome
          cases hsome
      | some content =>
        have hreaches : ReachesThread python raw :=
          ⟨⟨createdAt, hcreatedAt⟩, ⟨id, hid⟩, ⟨content, hcontent⟩⟩
        unfold item
        rw [hid, hcontent]
        rcases buildScope_thread raw user thread with ⟨hne, hsession, hlabels⟩ |
          ⟨hother, message, hlabels⟩
        · rw [hlabels]
          exact iff_of_true rfl fun _ => ⟨hne, hsession⟩
        · rw [hlabels]
          refine iff_of_false (fun heq => ?_) fun h => hother (h hreaches)
          obtain ⟨model, hmodel⟩ := finishMemory_error heq.symm
          cases hmodel

theorem toMemory_isOk (user : String) :
    (∃ m, toMemory python (threadScope user none) 0 (.dict raw) = .ok m) ↔
      ProviderFields python raw := by
  have htext {key : String} {v : PyValue} (hv : item raw key = .ok v) :
      (∃ text, str? v = some text) ↔ ∃ text, raw.lookup key = some (.str text) := by
    rw [str?_isSome, item_ok hv]
    simp
  have hitem {key text : String} (h : raw.lookup key = some (.str text)) :
      item raw key = .ok (.str text) := by rw [item, h]
  rw [toMemory_dict, buildScope_unfiltered]
  refine (exists_bind_ok fun _ _ => exists_bind_ok fun id hid =>
    exists_bind_ok fun content hcontent => exists_bind_ok fun _ _ =>
      finishMemory_isOk.trans (and_congr_right' (and_congr (htext hid)
        (and_congr_left' (htext hcontent))))).trans ⟨?_, ?_⟩
  · rintro ⟨hcreatedAt, -, -, -, hprovenance, hid, hcontent, -⟩
    obtain ⟨hsourceSite, hsourceUrl⟩ := buildProvenance_isOk.mp hprovenance
    exact ⟨⟨hid, hcreatedAt, hsourceSite, hsourceUrl⟩, hcontent⟩
  · intro h
    obtain ⟨id, hid⟩ := h.id
    obtain ⟨content, hcontent⟩ := h.content
    exact ⟨h.createdAt, ⟨_, hitem hid⟩, ⟨_, hitem hcontent⟩, ⟨_, rfl⟩,
      buildProvenance_isOk.mpr ⟨h.sourceSite, h.sourceUrl⟩, ⟨id, hid⟩, ⟨content, hcontent⟩,
      buildMetadata_isSome, trivial⟩

theorem create_content {id content : PyValue} {scope : Scope PyValue} {createdAt : DateTime}
    {provenance : Option Provenance} {metadata : PyValue} {m : Memory PyValue}
    (h : Memory.create id content scope none createdAt none provenance metadata = .ok m) :
    str? content = some m.content := by
  have h := modelValidate_ok h
  obtain ⟨_, -, h⟩ := Option.bind_eq_some_iff.mp h
  obtain ⟨_, hcontent, h⟩ := Option.bind_eq_some_iff.mp h
  obtain ⟨_, -, h⟩ := Option.bind_eq_some_iff.mp h
  cases h
  exact hcontent

theorem toMemory_content {scope : Scope String} {m : Memory PyValue}
    (h : toMemory python scope 0 (.dict raw) = .ok m) :
    raw.lookup "content" = some (.str m.content) := by
  rw [toMemory_dict] at h
  obtain ⟨createdAt, -, h⟩ := Except.bind_ok h
  obtain ⟨id, -, h⟩ := Except.bind_ok h
  obtain ⟨content, hcontent, h⟩ := Except.bind_ok h
  obtain ⟨labels, -, h⟩ := Except.bind_ok h
  obtain ⟨provenance, -, h⟩ := Except.bind_ok h
  have htext := create_content h
  obtain ⟨text, rfl⟩ := str?_isSome.mp ⟨_, htext⟩
  rw [item_ok hcontent, Option.some.inj htext]

end AtomicMemoryProvider

end AtomicMemory
