import AtomicMemory.Providers.Mem0Provider
import AtomicMemory.Providers.Pagination

-- The next cursor is the offset plus the number of records received, so a page without records
-- whose cursor is there all the same leads back to itself.

open PyValue hiding none

namespace AtomicMemory

def StartsAt (request : ListRequest) (offset : ℕ) : Prop :=
  (request.cursor = none ∧ offset = 0) ∨ request.cursor = some (toString (offset : ℤ))

/-- The list call for this request returns this page when the backend answers so. -/
def Returns {α : Type} (list : ListRequest → Except PyError (Call (ListResultPage α)))
    (request : ListRequest) (outcome : HttpOutcome) (page : ListResultPage α) : Prop :=
  ∃ call, list request = .ok call ∧ call.receive outcome = .ok page

/-- `int(c)` of the page's cursor is beyond the offset. -/
def Advances (python : Python) (offset : ℕ) (cursor : Option String) : Prop :=
  ∀ c, cursor = some c → ∃ next, python.parseInt c = .ok next ∧ (offset : ℤ) < next

/-- The cursors are decimal, and they advance unless the response makes the list call stall. -/
def AdvancesUnless {α : Type} (python : Python)
    (list : ListRequest → Except PyError (Call (ListResultPage α)))
    (Stalls : ListRequest → ℕ → HttpOutcome → Prop) : Prop :=
  ∀ request offset outcome page, StartsAt request offset → Returns list request outcome page →
    (∀ c, page.cursor = some c → ∃ next : ℕ, c = toString (next : ℤ)) ∧
    (Advances python offset page.cursor ↔ ¬ Stalls request offset outcome)

/-- A caller that gets a cursor with every page and hands it back with the next request. -/
structure FollowsForever {α : Type} (list : ListRequest → Except PyError (Call (ListResultPage α)))
    (requests : ℕ → ListRequest) (outcomes : ℕ → HttpOutcome) (pages : ℕ → ListResultPage α) :
    Prop where
  returns : ∀ i, Returns list (requests i) (outcomes i) (pages i)
  next : ∀ i, ∃ c, (pages i).cursor = some c ∧ (requests (i + 1)).cursor = some c

/-- Without a response that stalls, the offsets of such a caller have no bound. -/
def NoBoundedRun {α : Type} (list : ListRequest → Except PyError (Call (ListResultPage α)))
    (Stalls : ListRequest → ℕ → HttpOutcome → Prop) : Prop :=
  ∀ requests outcomes pages, FollowsForever list requests outcomes pages →
    (∃ offset, StartsAt (requests 0) offset) →
    (∀ i offset, StartsAt (requests i) offset → ¬ Stalls (requests i) offset (outcomes i)) →
    ∀ bound, ∃ i offset, StartsAt (requests i) offset ∧ bound < offset

/-- A response without records to a request for none. -/
def StallsAtZero (rowsOf : PyValue → List PyValue) (request : ListRequest) (_offset : ℕ)
    (outcome : HttpOutcome) : Prop :=
  request.limit = some 0 ∧ ∃ status body, outcome = .response status (some body) ∧
    rowsOf body = []

section

variable {python : Python} (hint : ∀ n : ℕ, python.int (toString (n : ℤ)) = some (n : ℤ))

include hint

theorem startOffset_of_startsAt {request : ListRequest} {offset : ℕ}
    (h : StartsAt request offset) : startOffset python request.cursor = .ok (offset : ℤ) := by
  rcases h with ⟨hcursor, rfl⟩ | hcursor
  · rw [hcursor]
    rfl
  · rw [hcursor]
    exact startOffset_toString hint offset

theorem advances_toString {offset next : ℕ} :
    Advances python offset (some (toString (next : ℤ))) ↔ offset < next := by
  have hparse : python.parseInt (toString (next : ℤ)) = .ok (next : ℤ) := by
    rw [Python.parseInt, hint next]
  constructor
  · intro h
    obtain ⟨n, hn, hlt⟩ := h _ rfl
    rw [hparse] at hn
    rw [← Except.ok.inj hn] at hlt
    exact_mod_cast hlt
  · rintro hlt c ⟨⟩
    exact ⟨next, hparse, by exact_mod_cast hlt⟩

theorem nextCursor_advances {offset count : ℕ} {limit : ℤ} :
    (∀ c, nextCursor offset limit count = some c → ∃ next : ℕ, c = toString (next : ℤ)) ∧
      (Advances python offset (nextCursor offset limit count) ↔ ¬ (limit = 0 ∧ count = 0)) := by
  unfold nextCursor
  split
  · rename_i hfull
    rw [← Nat.cast_add, advances_toString hint]
    refine ⟨?_, by omega⟩
    rintro c ⟨⟩
    exact ⟨offset + count, rfl⟩
  · rename_i hnot
    refine ⟨nofun, iff_of_true nofun ?_⟩
    rintro ⟨rfl, rfl⟩
    exact hnot rfl

/-- A list call whose cursor is the one of a full page stalls on a limit of 0 only. -/
theorem advancesUnless_of_nextCursor {α : Type}
    {list : ListRequest → Except PyError (Call (ListResultPage α))}
    {rowsOf : PyValue → List PyValue}
    (hlist : ∀ request outcome page offset, startOffset python request.cursor = .ok offset →
      Returns list request outcome page → ∃ status body, outcome = .response status (some body) ∧
        page.cursor = nextCursor offset (request.limit.getD 20) (rowsOf body).length) :
    AdvancesUnless python list (StallsAtZero rowsOf) := by
  intro request offset outcome page hstart hreturns
  obtain ⟨status, body, rfl, hcursor⟩ :=
    hlist _ _ _ _ (startOffset_of_startsAt hint hstart) hreturns
  have hstalls : StallsAtZero rowsOf request offset (.response status (some body)) ↔
      request.limit.getD 20 = 0 ∧ (rowsOf body).length = 0 := by
    rw [List.length_eq_zero_iff]
    constructor
    · rintro ⟨hlimit, _, _, heq, hrows⟩
      cases heq
      exact ⟨by rw [hlimit]; rfl, hrows⟩
    · rintro ⟨hlimit, hrows⟩
      refine ⟨?_, status, body, rfl, hrows⟩
      cases hrequest : request.limit with
      | none =>
        rw [hrequest] at hlimit
        cases hlimit
      | some limit =>
        rw [hrequest] at hlimit
        exact congrArg some hlimit
  rw [hcursor, hstalls]
  exact nextCursor_advances hint

theorem noBoundedRun {α : Type} {list : ListRequest → Except PyError (Call (ListResultPage α))}
    {Stalls : ListRequest → ℕ → HttpOutcome → Prop} (h : AdvancesUnless python list Stalls) :
    NoBoundedRun list Stalls := by
  intro requests outcomes pages hfollows hfirst hstalls
  have hstep (i offset : ℕ) (hstart : StartsAt (requests i) offset) :
      ∃ next, StartsAt (requests (i + 1)) next ∧ offset < next := by
    obtain ⟨c, hpage, hrequest⟩ := hfollows.next i
    obtain ⟨hdecimal, hadvances⟩ := h _ _ _ _ hstart (hfollows.returns i)
    obtain ⟨next, rfl⟩ := hdecimal c hpage
    refine ⟨next, .inr hrequest, ?_⟩
    have hcursor := hadvances.mpr (hstalls i offset hstart)
    rw [hpage] at hcursor
    exact (advances_toString hint).mp hcursor
  -- request `i` starts at `i` or later
  have hreach (i : ℕ) : ∃ offset, StartsAt (requests i) offset ∧ i ≤ offset := by
    induction i with
    | zero =>
      obtain ⟨offset, hoffset⟩ := hfirst
      exact ⟨offset, hoffset, Nat.zero_le _⟩
    | succ i ih =>
      obtain ⟨offset, hstart, hle⟩ := ih
      obtain ⟨next, hnext, hlt⟩ := hstep i offset hstart
      exact ⟨next, hnext, hle.trans_lt hlt⟩
  intro bound
  obtain ⟨offset, hstart, hle⟩ := hreach (bound + 1)
  exact ⟨bound + 1, offset, hstart, hle⟩

end

/-- What a list call that starts at the offset returns is what its method receives there. -/
theorem returns_from {α : Type} {python : Python} {initialized : Bool} {required : List String}
    {rest : ListRequest → ℤ → Except PyError (Call (ListResultPage α))} {request : ListRequest}
    {outcome : HttpOutcome} {page : ListResultPage α} {offset : ℤ}
    (hoffset : startOffset python request.cursor = .ok offset)
    (h : Returns (fun request => runOperation initialized required "list" request.scope
      (startOffset python request.cursor >>= rest request)) request outcome page) :
    ∃ inner, rest request offset = .ok inner ∧ inner.receive outcome = .ok page := by
  obtain ⟨call, hcall, hpage⟩ := h
  obtain ⟨inner, hinner, -, -, hreceive⟩ := runOperation_ok hcall
  rw [hoffset] at hinner
  exact ⟨inner, hinner, (hreceive outcome page).mp hpage⟩

namespace AtomicMemoryProvider

theorem list_cursor {python : Python} {p : Provider} {request : ListRequest}
    {outcome : HttpOutcome} {page : ListResultPage PyValue} {offset : ℤ}
    (hoffset : startOffset python request.cursor = .ok offset)
    (h : Returns (p.list python) request outcome page) :
    ∃ status body, outcome = .response status (some body) ∧
      page.cursor = nextCursor offset (request.limit.getD 20) (records body).length := by
  obtain ⟨inner, hinner, hpage⟩ := returns_from hoffset h
  obtain ⟨_, -, hinner⟩ := Except.bind_ok hinner
  cases hinner
  obtain ⟨raw, hraw, hlist⟩ := Except.bind_ok hpage
  obtain ⟨status, rfl⟩ := fetchJson_ok hraw
  obtain ⟨v, hv, hlist⟩ := Except.bind_ok hlist
  obtain ⟨rows, hrows, hlist⟩ := Except.bind_ok hlist
  obtain ⟨memories, hmemories, hlist⟩ := Except.bind_ok hlist
  cases hlist
  refine ⟨status, raw, rfl, ?_⟩
  rw [records_eq hv hrows, (comprehension_ok hmemories).length_eq]

end AtomicMemoryProvider

namespace Mem0Provider

theorem list_cursor {python : Python} {p : Provider} {request : ListRequest}
    {outcome : HttpOutcome} {page : ListResultPage String} {offset : ℤ}
    (hoffset : startOffset python request.cursor = .ok offset)
    (h : Returns (p.list python) request outcome page) :
    ∃ status body, outcome = .response status (some body) ∧
      page.cursor = nextCursor offset (request.limit.getD 20) (unwrapMem0Array body).length := by
  obtain ⟨inner, hinner, hpage⟩ := returns_from hoffset h
  obtain ⟨_, -, hinner⟩ := Except.bind_ok hinner
  obtain ⟨_, -, hinner⟩ := Except.bind_ok hinner
  cases hinner
  obtain ⟨raw, hraw, hlist⟩ := Except.bind_ok hpage
  obtain ⟨status, rfl⟩ := fetchJson_ok hraw
  obtain ⟨memories, hmemories, hlist⟩ := Except.bind_ok hlist
  cases hlist
  refine ⟨status, raw, rfl, ?_⟩
  rw [(comprehension_ok hmemories).length_eq]

end Mem0Provider

namespace HindsightProvider

/-- A response without records that reports more of them than the offset. -/
def Stalls (_request : ListRequest) (offset : ℕ) (outcome : HttpOutcome) : Prop :=
  ∃ status items total, outcome = .response status (some (.dict items)) ∧
    Items.get items "items" = .list [] ∧ int? (Items.get items "total") = some total ∧
    offset < total

theorem list_cursor {python : Python} {p : Provider} {request : ListRequest}
    {outcome : HttpOutcome} {page : ListResultPage String} {offset : ℤ}
    (hoffset : startOffset python request.cursor = .ok offset)
    (h : Returns (p.list python) request outcome page) :
    ∃ status items rows total, outcome = .response status (some (.dict items)) ∧
      Items.get items "items" = .list rows ∧ int? (Items.get items "total") = some total ∧
      page.cursor =
        if offset + rows.length < total then some (toString (offset + rows.length)) else none := by
  obtain ⟨inner, hinner, hpage⟩ := returns_from hoffset h
  obtain ⟨_, -, hinner⟩ := Except.bind_ok hinner
  cases hinner
  obtain ⟨raw, hraw, hlist⟩ := Except.bind_ok hpage
  obtain ⟨status, rfl⟩ := fetchJson_ok hraw
  unfold mapListPage at hlist
  split at hlist
  · split at hlist
    · rename_i items _ rows hrows
      split at hlist
      · cases hlist
      · rename_i total htotal
        obtain ⟨memories, -, hlist⟩ := Except.bind_ok hlist
        cases hlist
        exact ⟨status, items, rows, total, rfl, hrows, htotal, rfl⟩
    · cases hlist
  · cases hlist

theorem advancesUnless {python : Python}
    (hint : ∀ n : ℕ, python.int (toString (n : ℤ)) = some (n : ℤ)) (p : Provider) :
    AdvancesUnless python (p.list python) Stalls := by
  intro request offset outcome page hstart hreturns
  obtain ⟨status, items, rows, total, rfl, hrows, htotal, hcursor⟩ :=
    list_cursor (startOffset_of_startsAt hint hstart) hreturns
  have hstalls : Stalls request offset (.response status (some (.dict items))) ↔
      rows = [] ∧ offset < total := by
    constructor
    · rintro ⟨_, items', total', heq, hrows', htotal', hlt⟩
      cases heq
      cases hrows.symm.trans hrows'
      cases htotal.symm.trans htotal'
      exact ⟨rfl, hlt⟩
    · rintro ⟨rfl, hlt⟩
      exact ⟨status, items, total, rfl, hrows, htotal, hlt⟩
  rw [hcursor, hstalls, ← List.length_eq_zero_iff]
  split
  · rename_i hmore
    rw [← Nat.cast_add, advances_toString hint]
    refine ⟨?_, by omega⟩
    rintro c ⟨⟩
    exact ⟨offset + rows.length, rfl⟩
  · rename_i hlast
    refine ⟨nofun, iff_of_true nofun ?_⟩
    rintro ⟨hnil, hlt⟩
    rw [hnil] at hlast
    omega

end HindsightProvider

/-- For each provider: which cursors advance, and that following those that do leads beyond every
bound. -/
theorem list_cursor_advances_iff {python : Python}
    (hint : ∀ n : ℕ, python.int (toString (n : ℤ)) = some (n : ℤ))
    (atomicMemory : AtomicMemoryProvider.Provider) (mem0 : Mem0Provider.Provider)
    (hindsight : HindsightProvider.Provider) :
    (AdvancesUnless python (atomicMemory.list python)
        (StallsAtZero AtomicMemoryProvider.records) ∧
      NoBoundedRun (atomicMemory.list python) (StallsAtZero AtomicMemoryProvider.records)) ∧
    (AdvancesUnless python (mem0.list python) (StallsAtZero Mem0Provider.unwrapMem0Array) ∧
      NoBoundedRun (mem0.list python) (StallsAtZero Mem0Provider.unwrapMem0Array)) ∧
    AdvancesUnless python (hindsight.list python) HindsightProvider.Stalls ∧
      NoBoundedRun (hindsight.list python) HindsightProvider.Stalls := by
  have hatomic := advancesUnless_of_nextCursor hint fun _ _ _ _ hoffset h =>
    AtomicMemoryProvider.list_cursor (p := atomicMemory) hoffset h
  have hmem0 := advancesUnless_of_nextCursor hint fun _ _ _ _ hoffset h =>
    Mem0Provider.list_cursor (p := mem0) hoffset h
  have hhindsight := HindsightProvider.advancesUnless hint hindsight
  exact ⟨⟨hatomic, noBoundedRun hint hatomic⟩, ⟨hmem0, noBoundedRun hint hmem0⟩, hhindsight,
    noBoundedRun hint hhindsight⟩

theorem list_cursor_advances_iff_reference :
    (AdvancesUnless Python.reference
        (AtomicMemoryProvider.Provider.list ⟨[], true, none⟩ Python.reference)
        (StallsAtZero AtomicMemoryProvider.records) ∧
      NoBoundedRun (AtomicMemoryProvider.Provider.list ⟨[], true, none⟩ Python.reference)
        (StallsAtZero AtomicMemoryProvider.records)) ∧
    (AdvancesUnless Python.reference (Mem0Provider.Provider.list ⟨[], true⟩ Python.reference)
        (StallsAtZero Mem0Provider.unwrapMem0Array) ∧
      NoBoundedRun (Mem0Provider.Provider.list ⟨[], true⟩ Python.reference)
        (StallsAtZero Mem0Provider.unwrapMem0Array)) ∧
    AdvancesUnless Python.reference
        (HindsightProvider.Provider.list ⟨[], [], true⟩ Python.reference) HindsightProvider.Stalls ∧
      NoBoundedRun (HindsightProvider.Provider.list ⟨[], [], true⟩ Python.reference)
        HindsightProvider.Stalls :=
  list_cursor_advances_iff Python.reference_int ⟨[], true, none⟩ ⟨[], true⟩ ⟨[], [], true⟩

/-- An empty page whose cursor is the offset it started at. -/
theorem cursor_stands_still :
    (∃ page, Returns (AtomicMemoryProvider.Provider.list ⟨[], true, none⟩ Python.reference)
        ⟨⟨some "u", none, none, none⟩, some 0, none⟩
        (.response 200 (some (.dict [("memories", .list [])]))) page ∧
      ¬ Advances Python.reference 0 page.cursor) ∧
    (∃ page, Returns (Mem0Provider.Provider.list ⟨[], true⟩ Python.reference)
        ⟨⟨some "u", none, none, none⟩, some 0, none⟩ (.response 200 (some (.list []))) page ∧
      ¬ Advances Python.reference 0 page.cursor) ∧
    ∃ page, Returns (HindsightProvider.Provider.list ⟨[], [], true⟩ Python.reference)
        ⟨⟨some "u", none, none, none⟩, none, none⟩
        (.response 200 (some (.dict [("items", .list []), ("total", .int 5)]))) page ∧
      ¬ Advances Python.reference 0 page.cursor := by
  have hzero : ¬ Advances Python.reference 0 (some (toString ((0 : ℕ) : ℤ))) :=
    fun h => absurd ((advances_toString Python.reference_int).mp h) (lt_irrefl 0)
  exact ⟨⟨_, ⟨_, rfl, rfl⟩, hzero⟩, ⟨_, ⟨_, rfl, rfl⟩, hzero⟩, ⟨_, ⟨_, rfl, rfl⟩, hzero⟩⟩

end AtomicMemory
