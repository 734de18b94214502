import Mathlib.Data.List.Chain
import Mathlib.Algebra.Order.Group.Int

-- Lists of intervals of integers, each with its start and the end it does not reach.

namespace Intervals

/-- The intervals go from `a` to `b` without a gap, each starting after the one before. -/
structure Covers (a b : ℤ) (ws : List (ℤ × ℤ)) : Prop where
  first : ws.head?.map Prod.fst = some a
  last : ws.getLast?.map Prod.snd = some b
  joined : ws.IsChain fun w w' => w.1 < w'.1 ∧ w'.1 ≤ w.2

theorem covers_singleton (a b : ℤ) : Covers a b [(a, b)] :=
  ⟨rfl, rfl, List.isChain_singleton _⟩

theorem Covers.cons {a b c d : ℤ} {ws : List (ℤ × ℤ)} (h : Covers c b ws) (hac : a < c)
    (hcd : c ≤ d) : Covers a b ((a, d) :: ws) := by
  cases ws with
  | nil => cases h.first
  | cons w ws =>
    have hw : w.1 = c := Option.some.inj h.first
    refine ⟨rfl, ?_, List.isChain_cons_cons.mpr ⟨?_, h.joined⟩⟩
    · rw [List.getLast?_cons_cons]
      exact h.last
    · rw [hw]
      exact ⟨hac, hcd⟩

/-- Every point from the first start to the last end lies in one of the intervals. -/
theorem Covers.exists_mem {a b i : ℤ} {ws : List (ℤ × ℤ)} (h : Covers a b ws) (ha : a ≤ i)
    (hb : i < b) : ∃ w ∈ ws, w.1 ≤ i ∧ i < w.2 := by
  obtain ⟨hfirst, hlast, hjoined⟩ := h
  induction ws generalizing a with
  | nil => cases hfirst
  | cons w ws ih =>
    have hw : w.1 = a := Option.some.inj hfirst
    by_cases hi : i < w.2
    · exact ⟨w, List.mem_cons_self, hw.trans_le ha, hi⟩
    · cases ws with
      | nil => exact absurd (hb.trans_eq (Option.some.inj hlast).symm) hi
      | cons w' ws =>
        obtain ⟨⟨-, hle⟩, hrest⟩ := List.isChain_cons_cons.mp hjoined
        have hstart : w'.1 ≤ i := hle.trans (not_lt.mp hi)
        rw [List.getLast?_cons_cons] at hlast
        obtain ⟨v, hv, hvi⟩ := ih hstart rfl hlast hrest
        exact ⟨v, List.mem_cons_of_mem w hv, hvi⟩

theorem Covers.starts_increasing {a b : ℤ} {ws : List (ℤ × ℤ)} (h : Covers a b ws) :
    ws.Pairwise fun w w' => w.1 < w'.1 :=
  have : IsTrans (ℤ × ℤ) fun w w' => w.1 < w'.1 := ⟨fun _ _ _ => lt_trans⟩
  (h.joined.imp fun _ _ hw => hw.1).pairwise

theorem isChain_filter_iff {α : Type*} {R : α → α → Prop} {p : α → Bool} {l : List α} :
    (l.filter p).IsChain R ↔ ∀ pre w dropped w' post, l = pre ++ w :: (dropped ++ w' :: post) →
      p w → p w' → (∀ d ∈ dropped, ¬ p d) → R w w' := by
  rw [List.isChain_iff_forall_rel_of_append_cons_cons]
  constructor
  · rintro h pre w dropped w' post rfl hw hw' hdropped
    have hnil : dropped.filter p = [] := List.filter_eq_nil_iff.mpr hdropped
    apply h
    rw [List.filter_append, List.filter_cons_of_pos hw, List.filter_append, hnil, List.nil_append,
      List.filter_cons_of_pos hw']
  · intro h w w' l₁ l₂ hl
    obtain ⟨pre, rest, rfl, -, hrest⟩ := List.filter_eq_append_iff.mp hl
    obtain ⟨pre', rest', rfl, -, hw, hrest'⟩ := List.filter_eq_cons_iff.mp hrest
    obtain ⟨dropped, post, rfl, hdropped, hw', -⟩ := List.filter_eq_cons_iff.mp hrest'
    exact h (pre ++ pre') w dropped w' post (List.append_assoc _ _ _).symm hw hw' hdropped

end Intervals
