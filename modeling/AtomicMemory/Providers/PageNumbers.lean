import AtomicMemory.Providers.Mem0Provider
import AtomicMemory.Providers.Pagination

-- `Mem0` counts its pages, so `Mem0Provider` divides the cursor's offset by the limit of the
-- request. What it lists is complete as long as each limit divides the offset it is used at.

open Pagination
open PyValue hiding none

namespace AtomicMemory

namespace Mem0Provider

/-- `do_list`'s request. -/
def listRequest (p : Provider) (scope : Scope String) (limit : ℤ) (page : Option ℤ) :
    HttpRequest :=
  ⟨"GET", p.path (Provider.listPath scope limit page), none⟩

def Lists (outcome : HttpOutcome) (rows : List PyValue) : Prop :=
  ∃ body, Succeeds outcome body ∧ unwrapMem0Array body = rows

/-- The backend answers the pages of each limit of the run; a request without a page is for
the first one. -/
structure ServesPages (p : Provider) (scope : Scope String) (limits : ℕ → ℕ)
    (records : List PyValue) (backend : HttpRequest → HttpOutcome) : Prop where
  first : ∀ i, Lists (backend (listRequest p scope (limits i) none)) (records.take (limits i))
  page : ∀ i k : ℕ, k * limits i ≤ records.length →
    Lists (backend (listRequest p scope (limits i) (some (k + 1))))
      ((records.drop (k * limits i)).take (limits i))

/-- Every request of a run of full pages has a limit that divides its offset. -/
def Aligned (limits : ℕ → ℕ) (total : ℕ) : Prop :=
  ∀ i, offsetAt limits i ≤ total → limits i ∣ offsetAt limits i

theorem aligned_const (limit total : ℕ) : Aligned (fun _ => limit) total := by
  intro i _
  induction i with
  | zero => exact dvd_zero limit
  | succ i ih => exact dvd_add (ih (by simp only [offsetAt] at *; omega)) dvd_rfl

theorem pageOf_natCast {offset limit : ℕ} (hlimit : 1 ≤ limit) :
    Provider.pageOf offset limit =
      .ok (if 0 < offset then some ((offset / limit : ℕ) + 1 : ℤ) else none) := by
  unfold Provider.pageOf
  by_cases hoffset : 0 < offset
  · rw [if_pos (by omega), if_neg (by omega), if_pos hoffset, Int.ofNat_fdiv]
  · rw [if_neg (by omega), if_neg hoffset]

def Distinct {α : Type} (toMemory : ℕ → PyValue → Except PyError (Memory α))
    (records : List PyValue) : Prop :=
  records.Pairwise fun a b => ∀ memory, DecodedBy toMemory a memory → ¬DecodedBy toMemory b memory

theorem head_decoded {α β : Type} {R : α → β → Prop} {records rows : List α} {offset : ℕ} {y : β}
    {ys : List β} (hrows : rows <+: records.drop offset) (h : List.Forall₂ R rows (y :: ys)) :
    ∃ row, records[offset]? = some row ∧ R row y := by
  cases h with
  | cons hy _ =>
    obtain ⟨rest, hrest⟩ := hrows
    exact ⟨_, by rw [← List.head?_drop, ← hrest]; rfl, hy⟩

theorem Distinct.offset_eq {α : Type} {toMemory : ℕ → PyValue → Except PyError (Memory α)}
    {records : List PyValue} (h : Distinct toMemory records) {i j : ℕ} {a b : PyValue}
    {memory : Memory α} (hi : records[i]? = some a) (hj : records[j]? = some b)
    (ha : DecodedBy toMemory a memory) (hb : DecodedBy toMemory b memory) : i = j := by
  obtain ⟨hi', rfl⟩ := List.getElem?_eq_some_iff.mp hi
  obtain ⟨hj', rfl⟩ := List.getElem?_eq_some_iff.mp hj
  rcases lt_trichotomy i j with hlt | heq | hlt
  · exact absurd hb (List.pairwise_iff_getElem.mp h i j hi' hj' hlt memory ha)
  · exact heq
  · exact absurd ha (List.pairwise_iff_getElem.mp h j i hj' hi' hlt memory hb)

/-- A page that starts at a multiple of the limit, and with what is left from the offset on,
starts at the offset. -/
theorem Distinct.dvd_offset {α : Type} {toMemory : ℕ → PyValue → Except PyError (Memory α)}
    {records : List PyValue} (h : Distinct toMemory records) {limit offset : ℕ} (hlimit : 1 ≤ limit)
    (hoffset : offset ≤ records.length) {memories more : List (Memory α)}
    (hpage : List.Forall₂ (DecodedBy toMemory)
      ((records.drop (offset / limit * limit)).take limit) memories)
    (hleft : List.Forall₂ (DecodedBy toMemory) (records.drop offset) (memories ++ more)) :
    limit ∣ offset := by
  by_contra hndvd
  have hstart := Nat.div_mul_le_self offset limit
  have hlt : offset / limit * limit < offset := by
    refine lt_of_le_of_ne hstart fun heq => hndvd ?_
    exact ⟨offset / limit, by rw [Nat.mul_comm]; exact heq.symm⟩
  -- the page is not empty, and its first record comes before the offset
  cases memories with
  | nil =>
    have hlength := hpage.length_eq
    rw [List.length_take, List.length_drop, List.length_nil] at hlength
    omega
  | cons m ms =>
    obtain ⟨a, ha, hdecodedA⟩ := head_decoded (List.take_prefix _ _) hpage
    obtain ⟨b, hb, hdecodedB⟩ := head_decoded List.prefix_rfl hleft
    have heq := h.offset_eq ha hb hdecodedA hdecodedB
    omega

section

variable {python : Python} {p : Provider} {scope : Scope String}
  {backend : HttpRequest → HttpOutcome} {limits : ℕ → ℕ} {records : List PyValue}
  (hint : ∀ n : ℕ, python.int (toString (n : ℤ)) = some (n : ℤ))
  (hinit : p.initialized = true) (hscope : missingScopeFields scope requiredScope = [])
  (hlimits : ∀ i, 1 ≤ limits i)
  (hvalid : ∀ row ∈ records, ValidRecord (toMemory python scope) row)
  (hserves : ServesPages p scope limits records backend)

include hserves in
theorem lists_page (i : ℕ) {offset : ℕ} (hoffset : offset ≤ records.length) :
    Lists (backend (listRequest p scope (limits i)
        (if 0 < offset then some ((offset / limits i : ℕ) + 1 : ℤ) else none)))
      ((records.drop (offset / limits i * limits i)).take (limits i)) := by
  split
  · exact hserves.page i _ ((Nat.div_mul_le_self offset (limits i)).trans hoffset)
  · have hzero : offset = 0 := by omega
    rw [hzero, Nat.zero_div, Nat.zero_mul, List.drop_zero]
    exact hserves.first i

include hinit hscope hlimits hvalid hserves

theorem fetchPage_ok (i : ℕ) {cursor : Option String} {offset : ℕ}
    (hcursor : startOffset python cursor = .ok (offset : ℤ)) (hoffset : offset ≤ records.length) :
    ∃ memories,
      List.Forall₂ (DecodedBy (toMemory python scope))
        ((records.drop (offset / limits i * limits i)).take (limits i)) memories ∧
      fetchPage (p.list python) backend scope limits i cursor =
        .ok (memories, nextCursor offset (limits i) memories.length) := by
  obtain ⟨body, hbody, hrows⟩ := lists_page hserves i hoffset
  have hvalid (row : PyValue) (hrow : row ∈ unwrapMem0Array body) :
      ValidRecord (toMemory python scope) row := by
    rw [hrows] at hrow
    exact hvalid row (List.mem_of_mem_drop (List.mem_of_mem_take hrow))
  obtain ⟨memories, hdecode, hdecoded⟩ := decode_records hvalid
  -- the request names the page of the offset, and no page for offset 0
  have hlist : p.list python ⟨scope, some (limits i), cursor⟩ =
      runOperation true requiredScope "list" scope (.ok
        { request := listRequest p scope (limits i)
            (if 0 < offset then some ((offset / limits i : ℕ) + 1 : ℤ) else none)
          receive := fun outcome => do
            let raw ← fetchJson outcome
            let memories ← comprehension (toMemory python scope) 0 (unwrapMem0Array raw)
            .ok ⟨memories, nextCursor offset (limits i) memories.length⟩ }) := by
    have hclient : requireClient p.initialized = .ok () := by
      rw [hinit]
      rfl
    rw [Provider.list, hinit]
    exact congrArg _ (Except.bind_intro hcursor (Except.bind_intro (pageOf_natCast (hlimits i))
      (Except.bind_intro hclient rfl)))
  refine ⟨memories, hrows ▸ hdecoded, fetchPage_eq hscope hlist ?_⟩
  exact Except.bind_intro (fetchJson_of_succeeds hbody) (Except.bind_intro hdecode rfl)

include hint

theorem complete_of_aligned (haligned : Aligned limits records.length) :
    Complete (fetchPage (p.list python) backend scope limits) (DecodedBy (toMemory python scope))
      records := by
  refine (windowed_of_pages hint hlimits fun i cursor hcursor ho => ?_).complete ⟨rfl, rfl⟩
  obtain ⟨memories, hdecoded, hfetch⟩ :=
    fetchPage_ok hinit hscope hlimits hvalid hserves i hcursor ho
  rw [Nat.div_mul_cancel (haligned i ho)] at hdecoded
  have hlength := hdecoded.length_eq
  rw [List.length_take, List.length_drop] at hlength
  exact ⟨memories, _, hfetch, hdecoded, nextPage_nextCursor hlength⟩

/-- What is left to list from a request on determines that its limit divides its offset, and
a full page leaves the next request in the same position. -/
theorem aligned_step (hdistinct : Distinct (toMemory python scope) records) {i : ℕ}
    {cursor : Option String}
    (hcursor : startOffset python cursor = .ok (offsetAt limits i : ℤ))
    (ho : offsetAt limits i ≤ records.length) {pages : List (List (Memory String))}
    (hends : Ends (fetchPage (p.list python) backend scope limits) i cursor pages)
    (hpages : List.Forall₂ (DecodedBy (toMemory python scope))
      (records.drop (offsetAt limits i)) pages.flatten) :
    limits i ∣ offsetAt limits i ∧
      (offsetAt limits (i + 1) ≤ records.length → ∃ next rest,
        startOffset python next = .ok (offsetAt limits (i + 1) : ℤ) ∧
        Ends (fetchPage (p.list python) backend scope limits) (i + 1) next rest ∧
        List.Forall₂ (DecodedBy (toMemory python scope))
          (records.drop (offsetAt limits (i + 1))) rest.flatten) := by
  obtain ⟨memories, hdecoded, hfetch⟩ :=
    fetchPage_ok hinit hscope hlimits hvalid hserves i hcursor ho
  have hlength := hdecoded.length_eq
  rw [List.length_take, List.length_drop] at hlength
  have hlimit := hlimits i
  have hfirst : ∃ more, pages.flatten = memories ++ more := by
    cases hnext : nextCursor (offsetAt limits i) (limits i) memories.length with
    | none =>
      rw [hnext] at hfetch
      rw [(ends_last hfetch).mp hends]
      exact ⟨[], by simp⟩
    | some next =>
      rw [hnext] at hfetch
      obtain ⟨rest, rfl, -⟩ := (ends_next hfetch).mp hends
      exact ⟨rest.flatten, rfl⟩
  obtain ⟨more, hmore⟩ := hfirst
  have hdvd : limits i ∣ offsetAt limits i :=
    hdistinct.dvd_offset hlimit ho hdecoded (hmore ▸ hpages)
  refine ⟨hdvd, fun hnext => ?_⟩
  rw [Nat.div_mul_cancel hdvd] at hdecoded hlength
  have hfull : memories.length = limits i := by
    rw [offsetAt] at hnext
    omega
  have hcursor' : nextCursor (offsetAt limits i) (limits i) memories.length =
      some (toString (offsetAt limits (i + 1) : ℤ)) := by
    rw [nextCursor, if_pos (congrArg _ hfull), hfull, ← Nat.cast_add]
    rfl
  rw [hcursor'] at hfetch
  obtain ⟨rest, rfl, hends'⟩ := (ends_next hfetch).mp hends
  refine ⟨_, rest, startOffset_toString hint _, hends', ?_⟩
  have hrest := List.forall₂_drop memories.length hpages
  rwa [List.drop_drop, List.flatten_cons, List.drop_left, hfull] at hrest

theorem aligned_of_complete (hdistinct : Distinct (toMemory python scope) records)
    (hcomplete : Complete (fetchPage (p.list python) backend scope limits)
      (DecodedBy (toMemory python scope)) records) : Aligned limits records.length := by
  -- every request up to the `i`th got a full page, which leaves the `i`th in the right place
  have hreach (i : ℕ) (hi : offsetAt limits i ≤ records.length) : ∃ cursor pages,
      startOffset python cursor = .ok (offsetAt limits i : ℤ) ∧
      Ends (fetchPage (p.list python) backend scope limits) i cursor pages ∧
      List.Forall₂ (DecodedBy (toMemory python scope)) (records.drop (offsetAt limits i))
        pages.flatten := by
    induction i with
    | zero =>
      obtain ⟨pages, hends, hpages⟩ := hcomplete
      exact ⟨none, pages, rfl, hends, hpages⟩
    | succ i ih =>
      have hle : offsetAt limits i ≤ records.length := by
        rw [offsetAt] at hi
        omega
      obtain ⟨cursor, pages, hcursor, hends, hpages⟩ := ih hle
      exact (aligned_step hint hinit hscope hlimits hvalid hserves hdistinct hcursor hle hends
        hpages).2 hi
  intro i hi
  obtain ⟨cursor, pages, hcursor, hends, hpages⟩ := hreach i hi
  exact (aligned_step hint hinit hscope hlimits hvalid hserves hdistinct hcursor hi hends hpages).1

/-- Listing page after page is complete when the limits are aligned, and for records that can
be told apart only then. -/
theorem list_complete_iff_aligned :
    (Aligned limits records.length →
      Complete (fetchPage (p.list python) backend scope limits)
        (DecodedBy (toMemory python scope)) records) ∧
    (Distinct (toMemory python scope) records →
      (Complete (fetchPage (p.list python) backend scope limits)
        (DecodedBy (toMemory python scope)) records ↔ Aligned limits records.length)) := by
  have hcomplete := complete_of_aligned hint hinit hscope hlimits hvalid hserves
  exact ⟨hcomplete, fun hdistinct => ⟨fun h =>
    aligned_of_complete hint hinit hscope hlimits hvalid hserves hdistinct h, hcomplete⟩⟩

end

end Mem0Provider

namespace ThreeRecords

open Mem0Provider

def mem0 : Mem0Provider.Provider := ⟨[], true⟩

/-- The pages of two and of three records, as a limit and a page. -/
def mem0Pages : List (ℕ × Option ℕ) :=
  [(2, none), (2, some 1), (2, some 2), (3, none), (3, some 1), (3, some 2)]

def mem0Path (key : ℕ × Option ℕ) : List Char :=
  (listRequest mem0 scope key.1 (key.2.map fun page => (page : ℤ))).path

def mem0Body (key : ℕ × Option ℕ) : PyValue :=
  .list ((records.drop ((key.2.getD 1 - 1) * key.1)).take key.1)

def mem0Backend : HttpRequest → HttpOutcome := backend mem0Pages mem0Path mem0Body

theorem mem0_lists (key : ℕ × Option ℕ) {request : HttpRequest} {rows : List PyValue}
    (h : (mem0Pages.find? fun key => mem0Path key = request.path) = some key)
    (hrows : (records.drop ((key.2.getD 1 - 1) * key.1)).take key.1 = rows) :
    Lists (mem0Backend request) rows :=
  ⟨mem0Body key, backend_succeeds h mem0Body, hrows⟩

theorem servesPages {limits : ℕ → ℕ} (hlimits : ∀ i, limits i = 2 ∨ limits i = 3) :
    ServesPages mem0 scope limits records mem0Backend := by
  constructor
  · intro i
    rcases hlimits i with hlimit | hlimit <;> rw [hlimit]
    · exact mem0_lists (2, none) (by decide +kernel) rfl
    · exact mem0_lists (3, none) (by decide +kernel) rfl
  · intro i k hk
    have hrecords : records.length = 3 := rfl
    rcases hlimits i with hlimit | hlimit <;> rw [hlimit] at hk ⊢
    · have hk : k < 2 := by omega
      interval_cases k
      · exact mem0_lists (2, some 1) (by decide +kernel) rfl
      · exact mem0_lists (2, some 2) (by decide +kernel) rfl
    · have hk : k < 2 := by omega
      interval_cases k
      · exact mem0_lists (3, some 1) (by decide +kernel) rfl
      · exact mem0_lists (3, some 2) (by decide +kernel) rfl

theorem valid_records (row : PyValue) (hrow : row ∈ records) :
    ValidRecord (toMemory Python.reference scope) row := by
  intro n
  fin_cases hrow <;> exact ⟨_, rfl⟩

theorem decoded_id {id : String} {memory : Memory String}
    (h : DecodedBy (toMemory Python.reference scope) (record id) memory) : memory.id = id := by
  obtain ⟨n, h⟩ := h
  obtain ⟨_, hid, h⟩ := Except.bind_ok h
  cases hid
  obtain ⟨_, -, h⟩ := Except.bind_ok h
  obtain ⟨_, -, h⟩ := Except.bind_ok h
  exact (PyValue.str.inj (Memory.create_ok h).1).symm

theorem distinct_records : Distinct (toMemory Python.reference scope) records := by
  have hids : ["a", "b", "c"].Pairwise (· ≠ ·) := by decide
  refine (List.pairwise_map.mpr ?_ : (["a", "b", "c"].map record).Pairwise _)
  refine hids.imp fun hne memory ha hb => hne ?_
  rw [← decoded_id ha, decoded_id hb]

theorem list_complete_iff_aligned_threeRecords :
    (Complete (fetchPage (mem0.list Python.reference) mem0Backend scope fun _ => 2)
      (DecodedBy (toMemory Python.reference scope)) records) ∧
    (Complete (fetchPage (mem0.list Python.reference) mem0Backend scope fun _ => 2)
      (DecodedBy (toMemory Python.reference scope)) records ↔ Aligned (fun _ => 2) 3) := by
  have hscope : missingScopeFields scope requiredScope = [] := by decide
  have h := list_complete_iff_aligned Python.reference_int (p := mem0) rfl hscope
    (fun _ => by decide) valid_records (servesPages fun _ => .inl rfl)
  exact ⟨h.1 (aligned_const 2 3), h.2 distinct_records⟩

def growing (i : ℕ) : ℕ := if i = 0 then 2 else 3

/-- The second page is the first three records again. -/
theorem not_complete_growing :
    ServesPages mem0 scope growing records mem0Backend ∧
      ¬Complete (fetchPage (mem0.list Python.reference) mem0Backend scope growing)
        (DecodedBy (toMemory Python.reference scope)) records := by
  have hgrowing (i : ℕ) : growing i = 2 ∨ growing i = 3 := by
    unfold growing
    split
    · exact .inl rfl
    · exact .inr rfl
  have hlimits (i : ℕ) : 1 ≤ growing i := by rcases hgrowing i with h | h <;> omega
  refine ⟨servesPages hgrowing, fun hcomplete => ?_⟩
  have haligned := aligned_of_complete Python.reference_int rfl (by decide) hlimits valid_records
    (servesPages hgrowing) distinct_records hcomplete
  exact absurd (haligned 1 (by decide)) (by decide)

end ThreeRecords

end AtomicMemory
