import Mathlib.Data.List.Nodup
import Mathlib.Data.List.Sort

-- Python's `sort` by a key, in reverse: the largest key comes first, and elements with equal keys
-- stay in order. The keys may be floats, whose order is total only where no `NaN` occurs.

namespace StableSort

variable {α β : Type*} [LT β] [DecidableLT β]

/-- `l.sort(key=key, reverse=True)`. -/
def descending (key : α → β) (l : List α) : List α :=
  l.insertionSort fun a b => ¬ key a < key b

variable {key : α → β} {R : α → α → Prop} {l : List α}

theorem descending_perm : (descending key l).Perm l :=
  List.perm_insertionSort _ l

theorem descending_map {γ : Type*} (f : γ → α) (l : List γ) :
    descending key (l.map f) = (descending (key ∘ f) l).map f :=
  (List.map_insertionSort _ _ f l fun _ _ _ _ => Iff.rfl).symm

theorem pair_sublist_descending {a b : α} (h : ¬ key a < key b) (hl : [a, b].Sublist l) :
    [a, b].Sublist (descending key l) :=
  List.pair_sublist_insertionSort h hl

variable [LE β]

/-- The order is a total preorder on these values, and `<` is its strict part. -/
structure Comparable (values : Set β) : Prop where
  total : ∀ a ∈ values, ∀ b ∈ values, a ≤ b ∨ b ≤ a
  trans : ∀ a ∈ values, ∀ b ∈ values, ∀ c ∈ values, a ≤ b → b ≤ c → a ≤ c
  lt_iff : ∀ a ∈ values, ∀ b ∈ values, a < b ↔ ¬ b ≤ a

omit [DecidableLT β] in
theorem Comparable.mono {s t : Set β} (h : Comparable t) (hst : s ⊆ t) : Comparable s where
  total a ha b hb := h.total a (hst ha) b (hst hb)
  trans a ha b hb c hc := h.trans a (hst ha) b (hst hb) c (hst hc)
  lt_iff a ha b hb := h.lt_iff a (hst ha) b (hst hb)

theorem comparable_of_linearOrder {γ : Type*} [LinearOrder γ] (values : Set γ) :
    Comparable values where
  total a _ b _ := le_total a b
  trans _ _ _ _ _ _ := le_trans
  lt_iff _ _ _ _ := lt_iff_not_ge

/-- `a` is placed before `b`: its key is larger, or the keys are equal and `R a b` holds. -/
def Before (key : α → β) (R : α → α → Prop) (a b : α) : Prop :=
  key b ≤ key a ∧ (key a ≤ key b → R a b)

theorem orderedInsert_pairwise {x : α} (hc : Comparable (Set.image key {a | a ∈ x :: l}))
    (hx : ∀ y ∈ l, R x y) (hl : l.Pairwise (Before key R)) :
    (l.orderedInsert (fun a b => ¬ key a < key b) x).Pairwise (Before key R) := by
  induction l with
  | nil => exact List.pairwise_singleton _ x
  | cons y l ih =>
    have hmem (a : α) (ha : a ∈ x :: y :: l) : key a ∈ Set.image key {a | a ∈ x :: y :: l} :=
      ⟨a, ha, rfl⟩
    have hkx := hmem x (by simp)
    have hky := hmem y (by simp)
    obtain ⟨hy, hl'⟩ := List.pairwise_cons.mp hl
    by_cases hlt : key x < key y
    · rw [List.orderedInsert_of_not_le _ _ (not_not.mpr hlt), List.pairwise_cons]
      have hnot : ¬ key y ≤ key x := (hc.lt_iff _ hkx _ hky).mp hlt
      constructor
      · intro z hz
        rcases (List.mem_orderedInsert _).mp hz with rfl | hz
        · exact ⟨(hc.total _ hkx _ hky).resolve_right hnot, fun hle => absurd hle hnot⟩
        · exact hy z hz
      · apply ih (hc.mono (Set.image_mono ?_)) (fun z hz => hx z (List.mem_cons_of_mem y hz)) hl'
        intro a ha
        rcases List.mem_cons.mp ha with rfl | ha
        · exact List.mem_cons_self
        · exact List.mem_cons_of_mem _ (List.mem_cons_of_mem _ ha)
    · rw [List.orderedInsert_cons_of_le _ _ hlt, List.pairwise_cons]
      have hle : key y ≤ key x := by
        by_contra hle
        exact hlt ((hc.lt_iff _ hkx _ hky).mpr hle)
      refine ⟨fun z hz => ⟨?_, fun _ => hx z hz⟩, hl⟩
      rcases List.mem_cons.mp hz with rfl | hz'
      · exact hle
      · exact hc.trans _ (hmem z (List.mem_cons_of_mem x hz)) _ hky _ hkx (hy z hz').1 hle

/-- The sort is stable: what held from left to right of the elements still does of those with
equal keys. -/
theorem descending_pairwise (hc : Comparable (Set.image key {a | a ∈ l})) (hl : l.Pairwise R) :
    (descending key l).Pairwise (Before key R) := by
  induction l with
  | nil => exact List.Pairwise.nil
  | cons x l ih =>
    obtain ⟨hx, hl'⟩ := List.pairwise_cons.mp hl
    have hmem (y : α) : y ∈ descending key l ↔ y ∈ l := descending_perm.mem_iff
    apply orderedInsert_pairwise
    · apply hc.mono (Set.image_mono ?_)
      intro a ha
      rcases List.mem_cons.mp ha with rfl | ha
      · exact List.mem_cons_self
      · exact List.mem_cons_of_mem x ((hmem a).mp ha)
    · exact fun y hy => hx y ((hmem y).mp hy)
    · exact ih (hc.mono (Set.image_mono fun a ha => List.mem_cons_of_mem x ha)) hl'

omit [LT β] [DecidableLT β] [LE β] in
theorem rel_of_mem_take {r : α → α → Prop} {k : ℕ} {a b : α} (hl : l.Pairwise r)
    (ha : a ∈ l.take k) (hb : b ∈ l) (hnot : b ∉ l.take k) : r a b := by
  rw [← List.take_append_drop k l] at hl hb
  have hdrop := (List.mem_append.mp hb).resolve_left hnot
  exact (List.pairwise_append.mp hl).2.2 a ha b hdrop

end StableSort
