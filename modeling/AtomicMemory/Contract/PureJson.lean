import AtomicMemory.Contract.AnyMetadata
import AtomicMemory.Contract.RoundTrip

-- What an encoder writes is JSON, with every datetime in its UTC form, exactly when the metadata
-- nests only dicts, lists, scalars of JSON and datetimes.

open Calendar
open PyValue (Items)
open AnyValue hiding none list

namespace AtomicMemory.Contract

mutual
/-- What is written keeps the shape of the value, with its datetimes as texts; what is no
scalar of JSON is written as some value of JSON. -/
def Written : AnyValue → AnyValue → Prop
  | .datetime d, w => ∃ s, toIsoZ d = .ok s ∧ w = .str s
  | .list xs, w | .tuple xs, w => ∃ ys, w = .list ys ∧ ListWritten xs ys
  | .dict items, w => ∃ ws, w = .dict ws ∧ ItemsWritten items ws
  | .date _, w | .uuid _, w | .decimal _, w => w.isJson = true
  | v, w => w = v

def ListWritten : List AnyValue → List AnyValue → Prop
  | [], ys => ys = []
  | x :: xs, ys => ∃ w ws, ys = w :: ws ∧ Written x w ∧ ListWritten xs ws

def ItemsWritten : AnyItems → AnyItems → Prop
  | [], ys => ys = []
  | (key, v) :: items, ys => ∃ w ws, ys = (key, w) :: ws ∧ Written v w ∧ ItemsWritten items ws
end

mutual
/-- Only dicts, lists, scalars of JSON and datetimes that have a UTC form in years 1 to 9999
occur in the value. -/
def plain : AnyValue → Bool
  | .datetime d => decide d.InRange
  | .list xs => listPlain xs
  | .dict items => itemsPlain items
  | .tuple _ | .date _ | .uuid _ | .decimal _ => false
  | _ => true

def listPlain : List AnyValue → Bool
  | [] => true
  | x :: xs => plain x && listPlain xs

def itemsPlain : AnyItems → Bool
  | [] => true
  | (_, v) :: items => plain v && itemsPlain items
end

mutual
theorem walks_of_plain : ∀ v : AnyValue, plain v = true →
    ∃ w, jsonifyAny v = .ok w ∧ w.isJson = true ∧ Written v w
  | .datetime d, h => by
    have hiso := toIsoZ_eq (of_decide_eq_true h)
    refine ⟨.str d.zText, ?_, rfl, d.zText, hiso, rfl⟩
    rw [jsonifyAny, hiso]
    rfl
  | .list xs, h => by
    obtain ⟨ws, hws, hjson, hwritten⟩ := listWalks_of_plain xs h
    refine ⟨.list ws, ?_, hjson, ws, rfl, hwritten⟩
    rw [jsonifyAny, hws]
    rfl
  | .dict items, h => by
    obtain ⟨ws, hws, hjson, hwritten⟩ := itemsWalk_of_plain items h
    refine ⟨.dict ws, ?_, hjson, ws, rfl, hwritten⟩
    rw [jsonifyAny, hws]
    rfl
  | .none, _ => ⟨.none, rfl, rfl, rfl⟩
  | .bool b, _ => ⟨.bool b, rfl, rfl, rfl⟩
  | .int n, _ => ⟨.int n, rfl, rfl, rfl⟩
  | .float q, _ => ⟨.float q, rfl, rfl, rfl⟩
  | .str s, _ => ⟨.str s, rfl, rfl, rfl⟩

theorem listWalks_of_plain : ∀ xs : List AnyValue, listPlain xs = true →
    ∃ ws, jsonifyAnyList xs = .ok ws ∧ listIsJson ws = true ∧ ListWritten xs ws
  | [], _ => ⟨[], rfl, rfl, rfl⟩
  | x :: xs, h => by
    obtain ⟨hx, hxs⟩ := Bool.and_eq_true_iff.mp h
    obtain ⟨w, hw, hjson, hwritten⟩ := walks_of_plain x hx
    obtain ⟨ws, hws, hjsons, hwrittens⟩ := listWalks_of_plain xs hxs
    refine ⟨w :: ws, ?_, Bool.and_eq_true_iff.mpr ⟨hjson, hjsons⟩, w, ws, rfl, hwritten, hwrittens⟩
    rw [jsonifyAnyList, hw, hws]
    rfl

theorem itemsWalk_of_plain : ∀ items : AnyItems, itemsPlain items = true →
    ∃ ws, jsonifyAnyItems items = .ok ws ∧ itemsIsJson ws = true ∧ ItemsWritten items ws
  | [], _ => ⟨[], rfl, rfl, rfl⟩
  | (key, v) :: items, h => by
    obtain ⟨hv, hitems⟩ := Bool.and_eq_true_iff.mp h
    obtain ⟨w, hw, hjson, hwritten⟩ := walks_of_plain v hv
    obtain ⟨ws, hws, hjsons, hwrittens⟩ := itemsWalk_of_plain items hitems
    refine ⟨(key, w) :: ws, ?_, Bool.and_eq_true_iff.mpr ⟨hjson, hjsons⟩, w, ws, rfl, hwritten,
      hwrittens⟩
    rw [jsonifyAnyItems, hw, hws]
    rfl
end

mutual
theorem plain_of_walk : ∀ (v w : AnyValue), jsonifyAny v = .ok w → w.isJson = true →
    plain v = true
  | .datetime d, _, hw, _ => by
    by_contra hnot
    rw [jsonifyAny, toIsoZ_error fun hrange => hnot (decide_eq_true hrange)] at hw
    cases hw
  | .list xs, _, hw, hjson => by
    rw [jsonifyAny] at hw
    obtain ⟨ws, hws, rfl⟩ := Except.of_map_ok hw
    exact listPlain_of_walk xs ws hws hjson
  | .dict items, _, hw, hjson => by
    rw [jsonifyAny] at hw
    obtain ⟨ws, hws, rfl⟩ := Except.of_map_ok hw
    exact itemsPlain_of_walk items ws hws hjson
  | .tuple _, _, hw, hjson | .date _, _, hw, hjson | .uuid _, _, hw, hjson
  | .decimal _, _, hw, hjson => by
    cases hw
    cases hjson
  | .none, _, _, _ | .bool _, _, _, _ | .int _, _, _, _ | .float _, _, _, _
  | .str _, _, _, _ => rfl

theorem listPlain_of_walk : ∀ xs ws : List AnyValue, jsonifyAnyList xs = .ok ws →
    listIsJson ws = true → listPlain xs = true
  | [], _, _, _ => rfl
  | x :: xs, _, hws, hjson => by
    obtain ⟨w, hw, hws⟩ := Except.bind_ok hws
    obtain ⟨rest, hrest, hws⟩ := Except.bind_ok hws
    cases hws
    obtain ⟨hx, hxs⟩ := Bool.and_eq_true_iff.mp hjson
    exact Bool.and_eq_true_iff.mpr ⟨plain_of_walk x w hw hx, listPlain_of_walk xs rest hrest hxs⟩

theorem itemsPlain_of_walk : ∀ items ws : AnyItems, jsonifyAnyItems items = .ok ws →
    itemsIsJson ws = true → itemsPlain items = true
  | [], _, _, _ => rfl
  | (key, v) :: items, _, hws, hjson => by
    obtain ⟨w, hw, hws⟩ := Except.bind_ok hws
    obtain ⟨rest, hrest, hws⟩ := Except.bind_ok hws
    cases hws
    obtain ⟨hv, hitems⟩ := Bool.and_eq_true_iff.mp hjson
    exact Bool.and_eq_true_iff.mpr ⟨plain_of_walk v w hw hv,
      itemsPlain_of_walk items rest hrest hitems⟩
end

theorem isJson_optItem {α : Type} (key : String) (x : Option α) (f : α → PyValue) :
    PyValue.itemsIsJson (optItem key x f) = x.all fun a => (f a).isJson := by
  cases x with
  | none => rfl
  | some a => exact Bool.and_true _

theorem isJson_scope (s : Scope String) : PyValue.itemsIsJson s.dump = true := by
  simp [Scope.dump, Items.isJson_append, isJson_optItem, PyValue.isJson]

theorem isJson_provenance (p : Provenance) : PyValue.itemsIsJson p.dump = true := by
  simp [Provenance.dump, Items.isJson_append, isJson_optItem, PyValue.isJson]

theorem isJson_encodeProvenance (p : Provenance) :
    PyValue.itemsIsJson (encodeProvenance p) = true :=
  Items.isJson_rename (Items.isJson_rename (isJson_provenance p) _ _) _ _

theorem isJson_message (m : Message) : PyValue.itemsIsJson m.dump = true := by
  simp [Message.dump, isJson_optItem, PyValue.isJson, PyValue.itemsIsJson]

theorem isJson_receipt (receipt : RetrievalReceipt) :
    PyValue.itemsIsJson receipt.dump = true := by
  have hcandidates (ids : List String) : PyValue.listIsJson (ids.map .str) = true := by
    induction ids with
    | nil => rfl
    | cons id ids ih => exact ih
  simp [RetrievalReceipt.dump, Items.isJson_append, isJson_optItem, PyValue.isJson,
    PyValue.itemsIsJson, hcandidates]

section

variable (py : Pydantic)

theorem isJson_memoryDump (m : AnyMemory) :
    PyValue.itemsIsJson (m.base.dump py.jsonMode) = true := by
  simp [Memory.dump, AnyMemory.base, Pydantic.jsonMode, Items.isJson_append, isJson_optItem,
    PyValue.isJson, PyValue.itemsIsJson, isJson_scope, isJson_provenance]

theorem isJson_wireMemory (m : AnyMemory) :
    PyValue.itemsIsJson (wireMemory py m.base) = true := by
  unfold wireMemory
  dsimp only
  refine Items.isJson_setSome (Items.isJson_setSome (Items.isJson_setSome (Items.isJson_set
    (Items.isJson_erase (Items.isJson_erase (isJson_memoryDump py m) _) _) _ rfl) _ ?_) _ ?_) _ ?_
  · intro v hv
    obtain ⟨text, -, rfl⟩ := Option.map_eq_some_iff.mp hv
    rfl
  · intro v hv
    obtain ⟨p, -, rfl⟩ := Option.map_eq_some_iff.mp hv
    exact isJson_encodeProvenance p
  · intro v hv
    cases hv

theorem isJson_searchResultDump (r : AnySearchResult) :
    PyValue.itemsIsJson (r.base.dump py.jsonMode) = true := by
  have hmemory : PyValue.itemsIsJson (r.base.memory.dump py.jsonMode) = true :=
    isJson_memoryDump py r.memory
  simp [SearchResult.dump, Items.isJson_append, isJson_optItem, PyValue.isJson,
    PyValue.itemsIsJson, hmemory]

theorem isJson_ingestDump (input : AnyIngestInput) :
    PyValue.itemsIsJson (input.base.dump py.jsonMode) = true := by
  have hmessages (messages : List Message) :
      PyValue.listIsJson (messages.map fun m => .dict m.dump) = true := by
    induction messages with
    | nil => rfl
    | cons m messages ih => exact Bool.and_eq_true_iff.mpr ⟨isJson_message m, ih⟩
  unfold IngestInput.dump
  cases hcontent : input.base.content <;>
    simp [AnyIngestInput.base, Items.isJson_append, isJson_optItem, PyValue.isJson,
      PyValue.itemsIsJson, isJson_scope, isJson_provenance, hmessages]

theorem isJson_wireIngestInput (input : AnyIngestInput) :
    PyValue.itemsIsJson (wireIngestInput py input.base) = true := by
  unfold wireIngestInput
  dsimp only
  refine Items.isJson_setSome (Items.isJson_setSome (isJson_ingestDump py input) _ ?_) _ ?_
  · intro v hv
    obtain ⟨p, -, rfl⟩ := Option.map_eq_some_iff.mp hv
    exact isJson_encodeProvenance p
  · intro v hv
    cases hv

def metadataPlain (metadata : Option AnyItems) : Bool := metadata.all itemsPlain

def MetadataWritten (metadata : Option AnyItems) (wire : AnyItems) : Prop :=
  ∀ items ∈ metadata, ∃ w, wire.lookup "metadata" = some w ∧ Written (.dict items) w

theorem setMetadata_of_plain {metadata : Option AnyItems} {data : AnyItems}
    (h : metadataPlain metadata = true) (hdata : itemsIsJson data = true) :
    ∃ wire, setMetadata metadata data = .ok wire ∧ itemsIsJson wire = true ∧
      MetadataWritten metadata wire ∧
      ∀ key, key ≠ "metadata" → wire.lookup key = data.lookup key := by
  cases metadata with
  | none => exact ⟨data, rfl, hdata, nofun, fun _ _ => rfl⟩
  | some items =>
    obtain ⟨w, hw, hjson, hwritten⟩ := walks_of_plain (.dict items) h
    refine ⟨data.set "metadata" w, ?_, AnyItems.isJson_set hdata hjson, ?_, fun key hkey => ?_⟩
    · rw [setMetadata, hw]
      rfl
    · rintro _ ⟨⟩
      exact ⟨w, (AnyItems.lookup_set _).trans (if_pos rfl), hwritten⟩
    · exact (AnyItems.lookup_set key).trans (if_neg hkey)

theorem plain_of_setMetadata {metadata : Option AnyItems} {data wire : AnyItems}
    (h : setMetadata metadata data = .ok wire) (hjson : itemsIsJson wire = true) :
    metadataPlain metadata = true := by
  cases metadata with
  | none => rfl
  | some items =>
    obtain ⟨w, hw, h⟩ := Except.bind_ok h
    cases h
    have hmem : ("metadata", w) ∈ data.set "metadata" w :=
      List.mem_append_right _ (List.mem_singleton_self _)
    exact plain_of_walk (.dict items) w hw ((itemsIsJson_iff _).mp hjson _ hmem)

/-- The object is JSON, and the datetimes of the memory are written into it. -/
structure MemoryWritten (m : AnyMemory) (wire : AnyItems) : Prop where
  json : itemsIsJson wire = true
  createdAt : ∃ s, toIsoZ m.createdAt = .ok s ∧ wire.lookup "createdAt" = some (.str s)
  updatedAt : ∀ d ∈ m.updatedAt, ∃ s, toIsoZ d = .ok s ∧ wire.lookup "updatedAt" = some (.str s)
  metadata : MetadataWritten m.metadata wire

structure PlainMemory (m : AnyMemory) : Prop where
  createdAt : m.createdAt.InRange
  updatedAt : ∀ d ∈ m.updatedAt, d.InRange
  metadata : metadataPlain m.metadata = true

theorem inRange_of_encodeMemory {m : Memory String} {wire : Items}
    (h : encodeMemory py m = .ok wire) : m.createdAt.InRange ∧ ∀ d ∈ m.updatedAt, d.InRange := by
  obtain ⟨createdAt, hcreated, h⟩ := Except.bind_ok h
  obtain ⟨updatedAt, hupdated, -⟩ := Except.bind_ok h
  constructor
  · by_contra hnot
    rw [toIsoZ_error hnot] at hcreated
    cases hcreated
  · intro d hd
    by_contra hnot
    rw [Option.mem_def.mp hd, Option.mapM_some, toIsoZ_error hnot] at hupdated
    cases hupdated

theorem plain_of_encodeAnyMemory {m : AnyMemory} {wire : AnyItems}
    (h : encodeAnyMemory py m = .ok wire) (hjson : itemsIsJson wire = true) : PlainMemory m := by
  obtain ⟨data, hdata, h⟩ := Except.bind_ok h
  obtain ⟨hcreated, hupdated⟩ := inRange_of_encodeMemory py hdata
  exact ⟨hcreated, hupdated, plain_of_setMetadata h hjson⟩

theorem encodeAnyMemory_of_plain {m : AnyMemory} (h : PlainMemory m) :
    ∃ wire, encodeAnyMemory py m = .ok wire ∧ MemoryWritten m wire := by
  have hbase : encodeMemory py m.base = .ok (wireMemory py m.base) :=
    encodeMemory_eq py ⟨h.createdAt, h.updatedAt, nofun⟩
  have hdata : itemsIsJson (ofItems (wireMemory py m.base)) = true :=
    (itemsIsJson_ofItems _).trans (isJson_wireMemory py m)
  obtain ⟨wire, hwire, hjson, hmetadata, hother⟩ := setMetadata_of_plain h.metadata hdata
  refine ⟨wire, Except.bind_intro hbase hwire, hjson, ⟨_, toIsoZ_eq h.createdAt, ?_⟩, fun d hd =>
    ⟨_, toIsoZ_eq (h.updatedAt d hd), ?_⟩, hmetadata⟩
  · rw [hother "createdAt" (by decide), lookup_ofItems, lookup_wireMemory]
    rfl
  · have hbaseAt : m.base.updatedAt = some d := hd
    rw [hother "updatedAt" (by decide), lookup_ofItems, lookup_wireMemory, hbaseAt]
    rfl

structure ResultWritten (r : AnySearchResult) (w : AnyValue) : Prop where
  json : w.isJson = true
  memory : ∃ result memory, w = .dict result ∧ result.lookup "memory" = some (.dict memory) ∧
    MemoryWritten r.memory memory

structure PageWritten (page : AnySearchResultPage) (wire : AnyItems) : Prop where
  json : itemsIsJson wire = true
  results : ∃ ws, wire.lookup "results" = some (.list ws) ∧
    List.Forall₂ ResultWritten page.results ws

theorem plain_of_encodeAnySearchResult {r : AnySearchResult} {wire : AnyItems}
    (h : encodeAnySearchResult py r = .ok wire) (hjson : itemsIsJson wire = true) :
    PlainMemory r.memory := by
  obtain ⟨memory, hmemory, h⟩ := Except.bind_ok h
  cases h
  refine plain_of_encodeAnyMemory py hmemory ?_
  exact (itemsIsJson_iff _).mp hjson ("memory", .dict memory)
    (List.mem_append_right _ (List.mem_singleton_self _))

theorem encodeAnySearchResult_of_plain {r : AnySearchResult} (h : PlainMemory r.memory) :
    ∃ wire, encodeAnySearchResult py r = .ok wire ∧ ResultWritten r (.dict wire) := by
  obtain ⟨memory, hmemory, hwritten⟩ := encodeAnyMemory_of_plain py h
  refine ⟨_, Except.bind_intro hmemory rfl, AnyItems.isJson_set ?_ hwritten.json, _, memory, rfl,
    (AnyItems.lookup_set _).trans (if_pos rfl), hwritten⟩
  rw [itemsIsJson_ofItems]
  exact Items.isJson_rename (isJson_searchResultDump py r) _ _

theorem encodeAnySearchResultPage_ok {page : AnySearchResultPage} {wire : AnyItems}
    (h : encodeAnySearchResultPage py page = .ok wire) :
    ∃ ws, wire = ("results", .list ws) :: ofItems (optItem "cursor" page.cursor .str ++
        optItem "retrieval" page.retrieval fun receipt => .dict receipt.dump) ∧
      List.Forall₂ (fun r w => ∃ result, encodeAnySearchResult py r = .ok result ∧ w = .dict result)
        page.results ws := by
  obtain ⟨ws, hws, h⟩ := Except.bind_ok h
  cases h
  refine ⟨ws, rfl, (comprehension_ok hws).imp fun r w hw => ?_⟩
  obtain ⟨-, hw⟩ := hw
  obtain ⟨result, hresult, hw⟩ := Except.bind_ok hw
  exact ⟨result, hresult, (Except.ok.inj hw).symm⟩

theorem plain_of_encodeAnySearchResultPage {page : AnySearchResultPage} {wire : AnyItems}
    (h : encodeAnySearchResultPage py page = .ok wire) (hjson : itemsIsJson wire = true) :
    ∀ r ∈ page.results, PlainMemory r.memory := by
  obtain ⟨ws, rfl, hencoded⟩ := encodeAnySearchResultPage_ok py h
  have hws : ∀ w ∈ ws, w.isJson = true :=
    (listIsJson_iff ws).mp ((itemsIsJson_iff _).mp hjson _ List.mem_cons_self)
  have hplain : List.Forall₂ (fun r _ => PlainMemory r.memory ∧ True) page.results ws := by
    refine ((List.forall₂_and_left _ _).mpr ⟨hws, hencoded.flip⟩).flip.imp ?_
    rintro r _ ⟨hjson, result, hresult, rfl⟩
    exact ⟨plain_of_encodeAnySearchResult py hresult hjson, trivial⟩
  exact ((List.forall₂_and_left _ _).mp hplain).1

theorem encodeAnySearchResultPage_of_plain {page : AnySearchResultPage}
    (h : ∀ r ∈ page.results, PlainMemory r.memory) :
    ∃ wire, encodeAnySearchResultPage py page = .ok wire ∧ PageWritten page wire := by
  have htotal : ∀ r ∈ page.results, ∀ _ : ℕ, ∃ w, (do
      let result ← encodeAnySearchResult py r
      Except.ok (AnyValue.dict result)) = .ok w := by
    intro r hr _
    obtain ⟨result, hresult, -⟩ := encodeAnySearchResult_of_plain py (h r hr)
    exact ⟨_, Except.bind_intro hresult rfl⟩
  obtain ⟨ws, hws⟩ := comprehension_total htotal 0
  have hpage : encodeAnySearchResultPage py page = .ok _ := Except.bind_intro hws rfl
  refine ⟨_, hpage, ?_⟩
  obtain ⟨vs, hvs, hencoded⟩ := encodeAnySearchResultPage_ok py hpage
  have hwritten : List.Forall₂ ResultWritten page.results vs := by
    refine ((List.forall₂_and_left _ _).mpr ⟨h, hencoded⟩).imp ?_
    rintro r _ ⟨hr, result, hresult, rfl⟩
    obtain ⟨wire, hwire, hwritten⟩ := encodeAnySearchResult_of_plain py hr
    rw [Except.ok.inj (hresult.symm.trans hwire)]
    exact hwritten
  have hjson : List.Forall₂ (fun w _ => w.isJson = true ∧ True) vs page.results :=
    hwritten.flip.imp fun w r hw => ⟨hw.json, trivial⟩
  have hrest : PyValue.itemsIsJson (optItem "cursor" page.cursor .str ++
      optItem "retrieval" page.retrieval fun receipt => .dict receipt.dump) = true := by
    simp [Items.isJson_append, isJson_optItem, PyValue.isJson, isJson_receipt]
  rw [hvs]
  refine ⟨Bool.and_eq_true_iff.mpr ⟨?_, (itemsIsJson_ofItems _).trans hrest⟩, vs, rfl, hwritten⟩
  exact (listIsJson_iff vs).mpr ((List.forall₂_and_left _ _).mp hjson).1

structure IngestWritten (input : AnyIngestInput) (wire : AnyItems) : Prop where
  json : itemsIsJson wire = true
  metadata : MetadataWritten input.metadata wire

structure PlainIngestInput (input : AnyIngestInput) : Prop where
  contentClass : input.contentClass = none ∨ input.base.isVerbatim = true
  metadata : metadataPlain input.metadata = true

theorem plain_of_encodeAnyIngestInput {input : AnyIngestInput} {wire : AnyItems}
    (h : encodeAnyIngestInput py input = .ok wire) (hjson : itemsIsJson wire = true) :
    PlainIngestInput input := by
  obtain ⟨data, hdata, h⟩ := Except.bind_ok h
  refine ⟨?_, plain_of_setMetadata h hjson⟩
  by_contra hrefused
  rw [not_or] at hrefused
  obtain ⟨c, hc⟩ := Option.ne_none_iff_exists'.mp hrefused.1
  have hclass : input.base.contentClass = some c := hc
  rw [encodeIngestInput_refused py hclass (Bool.eq_false_iff.mpr hrefused.2)] at hdata
  cases hdata

theorem encodeAnyIngestInput_of_plain {input : AnyIngestInput} (h : PlainIngestInput input) :
    ∃ wire, encodeAnyIngestInput py input = .ok wire ∧ IngestWritten input wire := by
  have hbase : encodeIngestInput py input.base = .ok (wireIngestInput py input.base) :=
    encodeIngestInput_eq py h.contentClass nofun
  have hdata : itemsIsJson (ofItems (wireIngestInput py input.base)) = true :=
    (itemsIsJson_ofItems _).trans (isJson_wireIngestInput py input)
  obtain ⟨wire, hwire, hjson, hmetadata, -⟩ := setMetadata_of_plain h.metadata hdata
  exact ⟨wire, Except.bind_intro hbase hwire, hjson, hmetadata⟩

/-- The encoders return JSON with every datetime in its UTC form exactly on the memories,
pages and inputs whose datetimes have one, whose metadata nests nothing but dicts, lists, scalars
of JSON and datetimes, and whose content class the schema takes. -/
theorem encoders_pure_iff :
    (∀ m, (∃ wire, encodeAnyMemory py m = .ok wire ∧ MemoryWritten m wire) ↔ PlainMemory m) ∧
    (∀ page, (∃ wire, encodeAnySearchResultPage py page = .ok wire ∧ PageWritten page wire) ↔
      ∀ r ∈ page.results, PlainMemory r.memory) ∧
    ∀ input, (∃ wire, encodeAnyIngestInput py input = .ok wire ∧ IngestWritten input wire) ↔
      PlainIngestInput input := by
  refine ⟨fun m => ⟨?_, encodeAnyMemory_of_plain py⟩,
    fun page => ⟨?_, encodeAnySearchResultPage_of_plain py⟩,
    fun input => ⟨?_, encodeAnyIngestInput_of_plain py⟩⟩
  · rintro ⟨wire, hwire, hwritten⟩
    exact plain_of_encodeAnyMemory py hwire hwritten.json
  · rintro ⟨wire, hwire, hwritten⟩
    exact plain_of_encodeAnySearchResultPage py hwire hwritten.json
  · rintro ⟨wire, hwire, hwritten⟩
    exact plain_of_encodeAnyIngestInput py hwire hwritten.json

end

def tupleMemory : AnyMemory :=
  ⟨"m", "c", ⟨some "u", none, none, none⟩, none, firstDatetime, none, none,
    some [("window", .tuple [.datetime firstDatetime, .int 1])]⟩

def dateInput : AnyIngestInput :=
  ⟨⟨some "u", none, none, none⟩, none,
    some [("leaves", .list [.date "2026-05-30", .uuid "12345678-1234-5678-1234-567812345678",
      .decimal "1.10"])], none, .text "c"⟩

/-- The tuple and its datetime, the date, the UUID and the decimal are written as they are. -/
theorem not_always_pure :
    (∃ wire, encodeAnyMemory Pydantic.reference tupleMemory = .ok wire ∧
      wire.lookup "metadata" = some (.dict
        [("window", .tuple [.datetime firstDatetime, .int 1])]) ∧
      ¬MemoryWritten tupleMemory wire) ∧
    ∃ wire, encodeAnyIngestInput Pydantic.reference dateInput = .ok wire ∧
      wire.lookup "metadata" = some (.dict
        [("leaves", .list [.date "2026-05-30", .uuid "12345678-1234-5678-1234-567812345678",
          .decimal "1.10"])]) ∧
      ¬IngestWritten dateInput wire := by
  refine ⟨⟨_, rfl, rfl, fun h => ?_⟩, ⟨_, rfl, rfl, fun h => ?_⟩⟩
  · exact absurd h.json (by decide)
  · exact absurd h.json (by decide)

end AtomicMemory.Contract
