import Mathlib.Data.List.Infix
import Mathlib.Data.Set.Card

-- `re.split` for patterns that match no empty text, and the maximal runs of elements of a kind.

namespace Split

variable {α : Type*}

/-- The pieces between the matches. `matchLength s` is the length of the match that starts where
`s` does, or 0, and `skip` elements of a match are still to come. -/
def split (matchLength : List α → ℕ) : ℕ → List α → List (List α)
  | _, [] => [[]]
  | skip + 1, _ :: s => split matchLength skip s
  | 0, c :: s =>
    match matchLength (c :: s) with
    | 0 => (split matchLength 0 s).modifyHead (c :: ·)
    | n + 1 => [] :: split matchLength n s

variable {matchLength : List α → ℕ}

theorem split_ne_nil (skip : ℕ) (s : List α) : split matchLength skip s ≠ [] := by
  fun_induction split matchLength skip s with
  | case1 => exact List.cons_ne_nil _ _
  | case2 _ _ _ ih => exact ih
  | case3 _ _ _ ih => simpa [List.modifyHead_eq_nil_iff] using ih
  | case4 => exact List.cons_ne_nil _ _

/-- Each piece stands in the list, the first one at its start unless a match is under way. -/
theorem split_within (skip : ℕ) (s : List α) :
    (∀ piece ∈ split matchLength skip s, piece <:+: s) ∧
      (skip = 0 → ∀ piece ∈ (split matchLength skip s).head?, piece <+: s) := by
  fun_induction split matchLength skip s with
  | case1 => simp
  | case2 skip c s ih =>
    refine ⟨fun piece hpiece => ?_, nofun⟩
    exact (ih.1 piece hpiece).trans (List.suffix_cons c s).isInfix
  | case3 c s _ ih =>
    obtain ⟨piece, rest, hsplit⟩ := List.exists_cons_of_ne_nil (split_ne_nil 0 s)
    rw [hsplit] at ih ⊢
    have hhead : c :: piece <+: c :: s := List.cons_prefix_cons.mpr ⟨rfl, ih.2 rfl piece rfl⟩
    constructor
    · intro piece' hpiece'
      rcases List.mem_cons.mp hpiece' with rfl | hpiece'
      · exact hhead.isInfix
      · exact (ih.1 piece' (List.mem_cons_of_mem _ hpiece')).trans (List.suffix_cons c s).isInfix
    · intro _ piece' hpiece'
      rwa [← Option.some.inj hpiece']
  | case4 c s n _ ih =>
    constructor
    · intro piece hpiece
      rcases List.mem_cons.mp hpiece with rfl | hpiece
      · exact List.nil_infix
      · exact (ih.1 piece hpiece).trans (List.suffix_cons c s).isInfix
    · intro _ piece hpiece
      rw [← Option.some.inj hpiece]
      exact List.nil_prefix

/-- A match of as many separators as there are, as for `\s+`. -/
def runLength (sep : α → Bool) (s : List α) : ℕ := (s.takeWhile sep).length

/-- The elements from position `a` to `b` are no separators, and there is none of their kind next
to them. -/
structure MaximalRun (sep : α → Bool) (s : List α) (a b : ℕ) : Prop where
  nonempty : a < b
  inside : b ≤ s.length
  elements : ∀ i, a ≤ i → i < b → ∀ c ∈ s[i]?, sep c = false
  before : 0 < a → ∀ c ∈ s[a - 1]?, sep c = true
  after : ∀ c ∈ s[b]?, sep c = true

/-- A run starts at position `i`, where `atStart` says whether one can at the start. -/
def Start (sep : α → Bool) (atStart : Bool) (s : List α) (i : ℕ) : Prop :=
  (∃ c ∈ s[i]?, sep c = false) ∧
    if i = 0 then atStart = true else ∃ c ∈ s[i - 1]?, sep c = true

def countStarts (sep : α → Bool) : Bool → List α → ℕ
  | _, [] => 0
  | atStart, c :: s => (if atStart && !sep c then 1 else 0) + countStarts sep (sep c) s

variable {sep : α → Bool}

theorem start_zero {atStart : Bool} {c : α} {s : List α} :
    Start sep atStart (c :: s) 0 ↔ (atStart && !sep c) = true := by
  simp [Start, and_comm]

theorem start_succ {atStart : Bool} {c : α} {s : List α} {i : ℕ} :
    Start sep atStart (c :: s) (i + 1) ↔ Start sep (sep c) s i := by
  cases i <;> simp [Start]

theorem ncard_start (atStart : Bool) (s : List α) :
    {i | Start sep atStart s i}.ncard = countStarts sep atStart s ∧
      {i | Start sep atStart s i}.Finite := by
  induction s generalizing atStart with
  | nil =>
    have hempty : {i | Start sep atStart [] i} = ∅ := by
      ext i
      simp [Start]
    rw [hempty]
    exact ⟨Set.ncard_empty ℕ, Set.finite_empty⟩
  | cons c s ih =>
    obtain ⟨hcard, hfinite⟩ := ih (sep c)
    have hshift : {i | Start sep atStart (c :: s) i} =
        (if atStart && !sep c then {0} else ∅) ∪ Nat.succ '' {i | Start sep (sep c) s i} := by
      ext i
      cases i with
      | zero =>
        rw [Set.mem_ofPred_eq, start_zero]
        split <;> simp_all
      | succ i =>
        rw [Set.mem_ofPred_eq, start_succ]
        split <;> simp
    have hzero : (if atStart && !sep c then ({0} : Set ℕ) else ∅).Finite := by
      split
      · exact Set.finite_singleton 0
      · exact Set.finite_empty
    have hdisjoint : Disjoint (if atStart && !sep c then ({0} : Set ℕ) else ∅)
        (Nat.succ '' {i | Start sep (sep c) s i}) := by
      rw [Set.disjoint_left]
      rintro i hi ⟨j, -, rfl⟩
      split at hi
      · exact Nat.succ_ne_zero j hi
      · exact hi
    rw [hshift]
    refine ⟨?_, hzero.union (hfinite.image _)⟩
    rw [Set.ncard_union_eq hdisjoint hzero (hfinite.image _),
      Set.ncard_image_of_injective _ Nat.succ_injective, hcard, countStarts]
    split <;> simp

theorem MaximalRun.start {s : List α} {a b : ℕ} (h : MaximalRun sep s a b) :
    Start sep true s a := by
  have ha : a < s.length := h.nonempty.trans_le h.inside
  refine ⟨⟨s[a], List.getElem?_eq_getElem ha, ?_⟩, ?_⟩
  · exact h.elements a le_rfl h.nonempty _ (List.getElem?_eq_getElem ha)
  · split
    · rfl
    · have ha' : a - 1 < s.length := by omega
      exact ⟨s[a - 1], List.getElem?_eq_getElem ha', h.before (by omega) _
        (List.getElem?_eq_getElem ha')⟩

theorem MaximalRun.end_le {s : List α} {a b b' : ℕ} (h : MaximalRun sep s a b)
    (h' : MaximalRun sep s a b') : b' ≤ b := by
  by_contra hlt
  have hb : b < s.length := (not_le.mp hlt).trans_le h'.inside
  have hno := h'.elements b h.nonempty.le (not_le.mp hlt) _ (List.getElem?_eq_getElem hb)
  rw [h.after _ (List.getElem?_eq_getElem hb)] at hno
  cases hno

theorem Start.exists_run {s : List α} {a : ℕ} (h : Start sep true s a) :
    ∃ b, MaximalRun sep s a b := by
  classical
  obtain ⟨⟨c, hc, hsep⟩, hbefore⟩ := h
  have hlength : a < s.length := (List.getElem?_eq_some_iff.mp hc).1
  have hend : ∃ b, a < b ∧ ∀ c ∈ s[b]?, sep c = true :=
    ⟨s.length, hlength, by simp⟩
  have hspec := Nat.find_spec hend
  refine ⟨Nat.find hend, hspec.1, Nat.find_min' hend ⟨hlength, by simp⟩, ?_, ?_, hspec.2⟩
  · intro i hai hib d hd
    rcases hai.eq_or_lt with rfl | hai
    · rwa [Option.some.inj (hd.symm.trans hc)]
    · by_contra hd'
      refine Nat.find_min hend hib ⟨hai, fun e he => ?_⟩
      rw [Option.some.inj (he.symm.trans hd)]
      exact eq_true_of_ne_false hd'
  · intro ha d hd
    rw [if_neg ha.ne'] at hbefore
    obtain ⟨e, he, hesep⟩ := hbefore
    rwa [Option.some.inj (hd.symm.trans he)]

theorem ncard_maximalRun (sep : α → Bool) (s : List α) :
    {r : ℕ × ℕ | MaximalRun sep s r.1 r.2}.ncard = countStarts sep true s := by
  have himage : Prod.fst '' {r : ℕ × ℕ | MaximalRun sep s r.1 r.2} = {i | Start sep true s i} := by
    ext a
    constructor
    · rintro ⟨r, hr, rfl⟩
      exact MaximalRun.start hr
    · intro ha
      obtain ⟨b, hb⟩ := Start.exists_run ha
      exact ⟨(a, b), hb, rfl⟩
  have hinj : Set.InjOn Prod.fst {r : ℕ × ℕ | MaximalRun sep s r.1 r.2} := by
    rintro ⟨a, b⟩ hr ⟨a', b'⟩ hr' heq
    cases heq
    exact Prod.ext rfl (le_antisymm (MaximalRun.end_le hr' hr) (MaximalRun.end_le hr hr'))
  rw [← Set.InjOn.ncard_image hinj, himage, (ncard_start true s).1]

def nonempty (pieces : List (List α)) : List (List α) := pieces.filter fun piece => !piece.isEmpty

theorem runLength_cons_of_sep {c : α} {s : List α} (h : sep c = true) :
    runLength sep (c :: s) = runLength sep s + 1 := by
  simp [runLength, h]

theorem runLength_cons_of_not_sep {c : α} {s : List α} (h : sep c = false) :
    runLength sep (c :: s) = 0 := by
  simp [runLength, h]

theorem split_cons_of_sep {c : α} {s : List α} (h : sep c = true) :
    split (runLength sep) 0 (c :: s) = [] :: split (runLength sep) (runLength sep s) s := by
  rw [split, runLength_cons_of_sep h]

theorem split_cons_of_not_sep {c : α} {s : List α} (h : sep c = false) :
    split (runLength sep) 0 (c :: s) = (split (runLength sep) 0 s).modifyHead (c :: ·) := by
  rw [split, runLength_cons_of_not_sep h]

theorem length_nonempty_split_rest (s : List α) :
    (nonempty (split (runLength sep) (runLength sep s) s)).length = countStarts sep true s ∧
      (nonempty (split (runLength sep) 0 s).tail).length = countStarts sep false s := by
  induction s with
  | nil => exact ⟨rfl, rfl⟩
  | cons c s ih =>
    cases hc : sep c with
    | true =>
      have hskip : (nonempty (split (runLength sep) (runLength sep (c :: s)) (c :: s))).length =
          countStarts sep true (c :: s) := by
        rw [runLength_cons_of_sep hc, split, ih.1, countStarts, hc]
        simp
      refine ⟨hskip, ?_⟩
      rw [split_cons_of_sep hc, List.tail_cons, ih.1, countStarts, hc]
      simp
    | false =>
      obtain ⟨piece, rest, hsplit⟩ := List.exists_cons_of_ne_nil
        (@split_ne_nil _ (runLength sep) 0 s)
      rw [runLength_cons_of_not_sep hc, split_cons_of_not_sep hc, countStarts, countStarts, hc,
        ← ih.2, hsplit]
      simp [nonempty, Nat.add_comm]

theorem length_nonempty_split (sep : α → Bool) (s : List α) :
    (nonempty (split (runLength sep) 0 s)).length =
      {r : ℕ × ℕ | MaximalRun sep s r.1 r.2}.ncard := by
  rw [ncard_maximalRun, ← (length_nonempty_split_rest s).1]
  cases s with
  | nil => rfl
  | cons c s =>
    cases hc : sep c with
    | true =>
      rw [split_cons_of_sep hc, runLength_cons_of_sep hc, split]
      rfl
    | false => rw [runLength_cons_of_not_sep hc]

end Split
