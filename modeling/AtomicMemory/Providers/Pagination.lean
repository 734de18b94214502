import Mathlib
import AtomicMemory.Lib.Pagination
import AtomicMemory.Providers.AtomicMemoryProvider
import AtomicMemory.Providers.HindsightProvider

-- A caller lists page after page, with a limit of its own choice for each, and hands back
-- the cursor of the page before. Over a backend whose records do not change, `AtomicMemory`
-- and `Hindsight` return every record once and in order.

open Pagination
open PyValue hiding none

namespace AtomicMemory

/-- The memory is what the provider's mapper makes of the record, in one place of a page or
another. -/
def DecodedBy {α : Type} (toMemory : ℕ → PyValue → Except PyError (Memory α)) (row : PyValue)
    (memory : Memory α) : Prop :=
  ∃ n, toMemory n row = .ok memory

def ValidRecord {α : Type} (toMemory : ℕ → PyValue → Except PyError (Memory α))
    (row : PyValue) : Prop :=
  ∀ n, ∃ memory, toMemory n row = .ok memory

/-- The `i`th list call, for at most `limits i` memories, to a backend that answers requests
by themselves. -/
def fetchPage {α : Type} (list : ListRequest → Except PyError (Call (ListResultPage α)))
    (backend : HttpRequest → HttpOutcome) (scope : Scope String) (limits : ℕ → ℕ) (i : ℕ)
    (cursor : Option String) : Except PyError (List (Memory α) × Option String) := do
  let call ← list ⟨scope, some (limits i), cursor⟩
  let page ← call.receive (backend call.request)
  .ok (page.memories, page.cursor)

def Succeeds (outcome : HttpOutcome) (body : PyValue) : Prop :=
  ∃ status, outcome = .response status (some body) ∧ 200 ≤ status ∧ status ≤ 299

theorem fetchJson_of_succeeds {outcome : HttpOutcome} {body : PyValue}
    (h : Succeeds outcome body) : fetchJson outcome = .ok body := by
  obtain ⟨status, rfl, hlow, hhigh⟩ := h
  have hstatus : raiseForStatus status = .ok () := by
    rw [raiseForStatus, if_neg (by omega), if_pos ⟨hlow, hhigh⟩]
  exact Except.bind_intro hstatus rfl

theorem decode_records {α : Type} {toMemory : ℕ → PyValue → Except PyError (Memory α)}
    {rows : List PyValue} (h : ∀ row ∈ rows, ValidRecord toMemory row) :
    ∃ memories, comprehension toMemory 0 rows = .ok memories ∧
      List.Forall₂ (DecodedBy toMemory) rows memories := by
  obtain ⟨memories, hmemories⟩ := comprehension_total h 0
  exact ⟨memories, hmemories, comprehension_ok hmemories⟩

theorem fetchPage_eq {α : Type} {list : ListRequest → Except PyError (Call (ListResultPage α))}
    {backend : HttpRequest → HttpOutcome} {scope : Scope String} {limits : ℕ → ℕ} {i : ℕ}
    {cursor : Option String} {required : List String} {inner : Call (ListResultPage α)}
    {memories : List (Memory α)} {next : Option String}
    (hscope : missingScopeFields scope required = [])
    (hlist : list ⟨scope, some (limits i), cursor⟩ =
      runOperation true required "list" scope (.ok inner))
    (hpage : inner.receive (backend inner.request) = .ok ⟨memories, next⟩) :
    fetchPage list backend scope limits i cursor = .ok (memories, next) := by
  obtain ⟨call, hcall, hrequest, hreceive⟩ := runOperation_ready hscope inner
  have hreceived : call.receive (backend call.request) = .ok ⟨memories, next⟩ := by
    rw [hrequest]
    exact hreceive _ _ hpage
  exact Except.bind_intro (hlist.trans hcall) (Except.bind_intro hreceived rfl)

/-- Where request `i` of a run of full pages starts. -/
def offsetAt (limits : ℕ → ℕ) : ℕ → ℕ
  | 0 => 0
  | i + 1 => offsetAt limits i + limits i

/-- The cursor that goes with a page of `count` of the `total` records from `offset` on: it
is left out on the last page, and every page before that is full. -/
def NextPage (total limit offset count : ℕ) (next : Option String) : Prop :=
  (next = none ∧ total ≤ offset + count) ∨
    (next = some (toString (offset + count : ℤ)) ∧ count = limit)

theorem nextPage_nextCursor {total limit offset count : ℕ}
    (hcount : min limit (total - offset) = count) :
    NextPage total limit offset count (nextCursor offset limit count) := by
  unfold nextCursor
  split
  · rename_i hfull
    exact .inr ⟨rfl, Nat.cast_injective hfull⟩
  · refine .inl ⟨rfl, ?_⟩
    omega

section

variable {python : Python} (hint : ∀ n : ℕ, python.int (toString (n : ℤ)) = some (n : ℤ))

include hint

theorem startOffset_toString (n : ℕ) :
    startOffset python (some (toString (n : ℤ))) = .ok (n : ℤ) := by
  have hne : toString (n : ℤ) ≠ "" := by
    rw [Int.toString_eq_repr]
    exact Nat.repr_ne_empty
  rw [startOffset, if_neg hne, Python.parseInt, hint n]

/-- Pages that are the right windows on the records, with the right cursors, make a run. -/
theorem windowed_of_pages {α : Type}
    {fetch : ℕ → Option String → Except PyError (List (Memory α) × Option String)}
    {R : PyValue → Memory α → Prop} {records : List PyValue} {limits : ℕ → ℕ}
    (hlimits : ∀ i, 1 ≤ limits i)
    (hpage : ∀ i cursor, startOffset python cursor = .ok (offsetAt limits i : ℤ) →
      offsetAt limits i ≤ records.length → ∃ memories next,
        fetch i cursor = .ok (memories, next) ∧
        List.Forall₂ R ((records.drop (offsetAt limits i)).take (limits i)) memories ∧
        NextPage records.length (limits i) (offsetAt limits i) memories.length next) :
    Windowed fetch R records fun i o cursor =>
      o = offsetAt limits i ∧ startOffset python cursor = .ok (o : ℤ) := by
  rintro i o cursor ⟨rfl, hoffset⟩ ho
  obtain ⟨memories, next, hfetch, hdecoded, hnext⟩ := hpage i cursor hoffset ho
  have hlength := hdecoded.length_eq
  rw [List.length_take, List.length_drop] at hlength
  refine ⟨memories, next, hfetch, ?_, fun hnone => ?_, fun c hc => ?_⟩
  · rwa [← hlength, ← List.length_drop, ← List.take_eq_take_min]
  · rcases hnext with ⟨-, hlast⟩ | ⟨hsome, -⟩
    · exact hlast
    · cases hnone.symm.trans hsome
  · rcases hnext with ⟨hnone, -⟩ | ⟨hsome, hfull⟩
    · cases hc.symm.trans hnone
    · cases hc.symm.trans hsome
      -- a full page is followed by the page that starts where it ends
      refine ⟨hfull ▸ hlimits i, by rw [hfull, offsetAt], ?_⟩
      rw [← Nat.cast_add]
      exact startOffset_toString hint _

end

namespace AtomicMemoryProvider

def Lists (outcome : HttpOutcome) (rows : List PyValue) : Prop :=
  ∃ body, Succeeds outcome body ∧ getD body "memories" (.list []) = .ok (.list rows)

theorem fetchPage_ok {python : Python} {p : Provider} (hinit : p.initialized = true)
    {scope : Scope String} (hscope : missingScopeFields scope requiredScope = [])
    {backend : HttpRequest → HttpOutcome} {limits : ℕ → ℕ} {i : ℕ} {cursor : Option String}
    {offset : ℤ} (hoffset : startOffset python cursor = .ok offset) {rows : List PyValue}
    (hrows : ∀ row ∈ rows, ValidRecord (toMemory python scope) row)
    (hlists : Lists (backend (p.get (buildListPath scope (limits i) offset))) rows) :
    ∃ memories, List.Forall₂ (DecodedBy (toMemory python scope)) rows memories ∧
      fetchPage (p.list python) backend scope limits i cursor =
        .ok (memories, nextCursor offset (limits i) memories.length) := by
  obtain ⟨body, hbody, hmemories⟩ := hlists
  obtain ⟨memories, hdecode, hdecoded⟩ := decode_records hrows
  have hlist : p.list python ⟨scope, some (limits i), cursor⟩ =
      runOperation true requiredScope "list" scope (.ok
        { request := p.get (buildListPath scope (limits i) offset)
          receive := fun outcome => do
            let raw ← fetchJson outcome
            let rows ← getD raw "memories" (.list [])
            let rows ← iterate rows
            let memories ← comprehension (toMemory python scope) 0 rows
            .ok ⟨memories, nextCursor offset (limits i) memories.length⟩ }) := by
    rw [Provider.list, Provider.doList, hoffset, hinit]
    rfl
  refine ⟨memories, hdecoded, fetchPage_eq hscope hlist ?_⟩
  exact Except.bind_intro (fetchJson_of_succeeds hbody) (Except.bind_intro hmemories
    (Except.bind_intro rfl (Except.bind_intro hdecode rfl)))

theorem complete {python : Python}
    (hint : ∀ n : ℕ, python.int (toString (n : ℤ)) = some (n : ℤ)) {p : Provider}
    (hinit : p.initialized = true) {scope : Scope String}
    (hscope : missingScopeFields scope requiredScope = []) {backend : HttpRequest → HttpOutcome}
    {limits : ℕ → ℕ} (hlimits : ∀ i, 1 ≤ limits i) {records : List PyValue}
    (hvalid : ∀ row ∈ records, ValidRecord (toMemory python scope) row)
    (hlists : ∀ i, ∀ o ≤ records.length,
      Lists (backend (p.get (buildListPath scope (limits i) o)))
        ((records.drop o).take (limits i))) :
    Complete (fetchPage (p.list python) backend scope limits) (DecodedBy (toMemory python scope))
      records := by
  refine (windowed_of_pages hint hlimits fun i cursor hoffset ho => ?_).complete ⟨rfl, rfl⟩
  have hrows (row : PyValue) (hrow : row ∈ (records.drop (offsetAt limits i)).take (limits i)) :
      ValidRecord (toMemory python scope) row :=
    hvalid row (List.mem_of_mem_drop (List.mem_of_mem_take hrow))
  obtain ⟨memories, hdecoded, hfetch⟩ := fetchPage_ok hinit hscope hoffset hrows (hlists i _ ho)
  have hlength := hdecoded.length_eq
  rw [List.length_take, List.length_drop] at hlength
  exact ⟨memories, _, hfetch, hdecoded, nextPage_nextCursor hlength⟩

end AtomicMemoryProvider

namespace HindsightProvider

/-- `do_list`'s request. -/
def listRequest (p : Provider) (scope : Scope String) (limit offset : ℤ) : HttpRequest :=
  ⟨"GET", p.bankPath scope ++ "/memories/list?".toList ++ Provider.listQuery limit offset, none⟩

/-- The response to a list request that holds these records, of `total`. -/
def Lists (outcome : HttpOutcome) (rows : List PyValue) (total : ℕ) : Prop :=
  ∃ items, Succeeds outcome (.dict items) ∧ items.lookup "items" = some (.list rows) ∧
    items.lookup "total" = some (.int total)

theorem mapListPage_eq {python : Python} {scope : Scope String} {items : Items}
    {rows : List PyValue} {total offset : ℕ} {memories : List (Memory String)}
    (hitems : items.lookup "items" = some (.list rows))
    (htotal : items.lookup "total" = some (.int total))
    (hdecode : comprehension (fun _ => toMemory python scope) 0 rows = .ok memories) :
    mapListPage python (.dict items) scope offset = .ok ⟨memories,
      if (offset + rows.length : ℤ) < total then some (toString (offset + rows.length : ℤ))
      else none⟩ := by
  have hrows : Items.get items "items" = .list rows := by rw [Items.get, hitems]; rfl
  have hcount : Items.get items "total" = .int total := by rw [Items.get, htotal]; rfl
  simp only [mapListPage, hrows, hcount, int?]
  exact Except.bind_intro hdecode rfl

theorem fetchPage_ok {python : Python} {p : Provider} (hinit : p.initialized = true)
    {scope : Scope String} (hscope : missingScopeFields scope requiredScope = [])
    {backend : HttpRequest → HttpOutcome} {limits : ℕ → ℕ} {i : ℕ} (hlimit : 1 ≤ limits i)
    {cursor : Option String} {offset total : ℕ}
    (hoffset : startOffset python cursor = .ok (offset : ℤ)) {rows : List PyValue}
    (hrows : ∀ row ∈ rows, ValidRecord (fun _ => toMemory python scope) row)
    (hlists : Lists (backend (listRequest p scope (limits i) offset)) rows total) :
    ∃ memories, List.Forall₂ (DecodedBy fun _ => toMemory python scope) rows memories ∧
      fetchPage (p.list python) backend scope limits i cursor =
        .ok (memories,
          if (offset + rows.length : ℤ) < total then some (toString (offset + rows.length : ℤ))
          else none) := by
  obtain ⟨items, hbody, hitems, htotal⟩ := hlists
  obtain ⟨memories, hdecode, hdecoded⟩ := decode_records hrows
  have hlimitOf : Provider.limitOf ⟨scope, some (limits i : ℤ), cursor⟩ = limits i := by
    have hne : (limits i : ℤ) ≠ 0 := by omega
    exact if_neg hne
  have hlist : p.list python ⟨scope, some (limits i), cursor⟩ =
      runOperation true requiredScope "list" scope (.ok
        { request := listRequest p scope (limits i) offset
          receive := fun outcome => do
            let raw ← fetchJson outcome
            mapListPage python raw scope offset }) := by
    rw [Provider.list, Provider.doList, hoffset, hinit, hlimitOf]
    rfl
  refine ⟨memories, hdecoded, fetchPage_eq hscope hlist ?_⟩
  exact Except.bind_intro (fetchJson_of_succeeds hbody) (mapListPage_eq hitems htotal hdecode)

theorem complete {python : Python}
    (hint : ∀ n : ℕ, python.int (toString (n : ℤ)) = some (n : ℤ)) {p : Provider}
    (hinit : p.initialized = true) {scope : Scope String}
    (hscope : missingScopeFields scope requiredScope = []) {backend : HttpRequest → HttpOutcome}
    {limits : ℕ → ℕ} (hlimits : ∀ i, 1 ≤ limits i) {records : List PyValue}
    (hvalid : ∀ row ∈ records, ValidRecord (fun _ => toMemory python scope) row)
    (hlists : ∀ i, ∀ o : ℕ, o ≤ records.length →
      Lists (backend (listRequest p scope (limits i) o)) ((records.drop o).take (limits i))
        records.length) :
    Complete (fetchPage (p.list python) backend scope limits)
      (DecodedBy fun _ => toMemory python scope) records := by
  refine (windowed_of_pages hint hlimits fun i cursor hoffset ho => ?_).complete ⟨rfl, rfl⟩
  have hrows (row : PyValue) (hrow : row ∈ (records.drop (offsetAt limits i)).take (limits i)) :
      ValidRecord (fun _ => toMemory python scope) row :=
    hvalid row (List.mem_of_mem_drop (List.mem_of_mem_take hrow))
  obtain ⟨memories, hdecoded, hfetch⟩ :=
    fetchPage_ok hinit hscope (hlimits i) hoffset hrows (hlists i _ ho)
  have hlength := hdecoded.length_eq
  refine ⟨memories, _, hfetch, hdecoded, ?_⟩
  rw [hlength]
  rw [List.length_take, List.length_drop] at hlength
  split
  · rename_i hmore
    exact .inr ⟨rfl, by omega⟩
  · exact .inl ⟨rfl, by omega⟩

end HindsightProvider

/-- Listing page after page ends, whatever the limit of each request, and what the pages hold
is the backend's records. -/
theorem list_complete {python : Python}
    (hint : ∀ n : ℕ, python.int (toString (n : ℤ)) = some (n : ℤ)) (scope : Scope String)
    (limits : ℕ → ℕ) (hlimits : ∀ i, 1 ≤ limits i) (records : List PyValue)
    (backend : HttpRequest → HttpOutcome) :
    (∀ p : AtomicMemoryProvider.Provider, p.initialized = true →
      missingScopeFields scope AtomicMemoryProvider.requiredScope = [] →
      (∀ row ∈ records, ValidRecord (AtomicMemoryProvider.toMemory python scope) row) →
      (∀ i, ∀ o : ℕ, o ≤ records.length →
        AtomicMemoryProvider.Lists
          (backend (p.get (AtomicMemoryProvider.buildListPath scope (limits i) o)))
          ((records.drop o).take (limits i))) →
      Complete (fetchPage (p.list python) backend scope limits)
        (DecodedBy (AtomicMemoryProvider.toMemory python scope)) records) ∧
    (∀ p : HindsightProvider.Provider, p.initialized = true →
      missingScopeFields scope HindsightProvider.requiredScope = [] →
      (∀ row ∈ records, ValidRecord (fun _ => HindsightProvider.toMemory python scope) row) →
      (∀ i, ∀ o : ℕ, o ≤ records.length →
        HindsightProvider.Lists (backend (HindsightProvider.listRequest p scope (limits i) o))
          ((records.drop o).take (limits i)) records.length) →
      Complete (fetchPage (p.list python) backend scope limits)
        (DecodedBy fun _ => HindsightProvider.toMemory python scope) records) := by
  constructor
  · intro p hinit hscope hvalid hlists
    exact AtomicMemoryProvider.complete hint hinit hscope hlimits hvalid hlists
  · intro p hinit hscope hvalid hlists
    exact HindsightProvider.complete hint hinit hscope hlimits hvalid hlists

theorem Python.reference_int (n : ℕ) :
    Python.reference.int (toString (n : ℤ)) = some (n : ℤ) := by
  rw [Int.toString_eq_repr]
  exact Int.toInt?_repr n

namespace ThreeRecords

def scope : Scope String := ⟨some "u", none, none, none⟩

def record (id : String) : PyValue :=
  .dict [("id", .str id), ("content", .str id), ("text", .str id),
    ("created_at", .str "2024-05-01T00:00:00Z")]

def records : List PyValue := [record "a", record "b", record "c"]

def window (o : ℕ) : List PyValue := (records.drop o).take 2

def backend {κ : Type} (requests : List κ) (path : κ → List Char) (body : κ → PyValue)
    (request : HttpRequest) : HttpOutcome :=
  match requests.find? fun key => path key = request.path with
  | some key => .response 200 (some (body key))
  | none => .requestError

theorem backend_succeeds {κ : Type} {requests : List κ} {path : κ → List Char}
    {request : HttpRequest} {key : κ}
    (h : (requests.find? fun key => path key = request.path) = some key) (body : κ → PyValue) :
    Succeeds (backend requests path body request) (body key) := by
  refine ⟨200, ?_, le_rfl, by decide⟩
  rw [backend, h]

def atomicMemory : AtomicMemoryProvider.Provider := ⟨[], true, none⟩

def atomicMemoryBackend : HttpRequest → HttpOutcome :=
  backend (List.range 4) (fun o => AtomicMemoryProvider.buildListPath scope (2 : ℕ) (o : ℕ))
    fun o => .dict [("memories", .list (window o))]

def hindsight : HindsightProvider.Provider := ⟨"v1".toList, "default".toList, true⟩

def hindsightBackend : HttpRequest → HttpOutcome :=
  backend (List.range 4)
    (fun o => (HindsightProvider.listRequest hindsight scope (2 : ℕ) (o : ℕ)).path)
    fun o => .dict [("items", .list (window o)), ("total", .int 3)]

theorem list_complete_threeRecords :
    Complete (fetchPage (atomicMemory.list Python.reference) atomicMemoryBackend scope fun _ => 2)
      (DecodedBy (AtomicMemoryProvider.toMemory Python.reference scope)) records ∧
    Complete (fetchPage (hindsight.list Python.reference) hindsightBackend scope fun _ => 2)
      (DecodedBy fun _ => HindsightProvider.toMemory Python.reference scope) records := by
  constructor
  · refine (list_complete Python.reference_int scope (fun _ => 2) (fun _ => by decide) records
      atomicMemoryBackend).1 atomicMemory rfl (by decide) ?_ fun _ o ho => ?_
    · intro row hrow n
      fin_cases hrow <;> exact ⟨_, rfl⟩
    · have ho : o < 4 := Nat.lt_succ_of_le ho
      refine ⟨.dict [("memories", .list (window o))], backend_succeeds ?_ _, rfl⟩
      interval_cases o <;> decide +kernel
  · refine (list_complete Python.reference_int scope (fun _ => 2) (fun _ => by decide) records
      hindsightBackend).2 hindsight rfl (by decide) ?_ fun _ o ho => ?_
    · intro row hrow n
      fin_cases hrow <;> exact ⟨_, rfl⟩
    · have ho : o < 4 := Nat.lt_succ_of_le ho
      refine ⟨[("items", .list (window o)), ("total", .int 3)], backend_succeeds ?_ _, rfl, rfl⟩
      interval_cases o <;> decide +kernel

end ThreeRecords

end AtomicMemory
