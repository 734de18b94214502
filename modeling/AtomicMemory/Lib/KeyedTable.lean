import Mathlib.Data.List.Nodup
import Mathlib.Data.List.Perm.Basic
import Mathlib.Data.Option.Basic
import Mathlib.Data.Set.Card
import Mathlib.Logic.Function.Basic

-- Rows in the order of their insertion, one per key: a Python `dict` and an SQL table with a
-- primary key are both of this kind. A row written under a key that is there keeps its place.

structure KeyedTable (κ ρ : Type*) where
  rows : List (κ × ρ)
  nodup : (rows.map Prod.fst).Nodup

namespace KeyedTable

variable {κ ρ ρ' : Type*}

def empty : KeyedTable κ ρ := ⟨[], List.nodup_nil⟩

def keys (t : KeyedTable κ ρ) : List κ := t.rows.map Prod.fst

theorem keys_nodup (t : KeyedTable κ ρ) : t.keys.Nodup := t.nodup

/-- The rows of which `p` holds go. -/
def deleteWhere (t : KeyedTable κ ρ) (p : κ → ρ → Bool) : KeyedTable κ ρ :=
  ⟨t.rows.filter fun row => !p row.1 row.2, t.nodup.sublist (List.filter_sublist.map _)⟩

theorem keys_deleteWhere_sublist (t : KeyedTable κ ρ) (p : κ → ρ → Bool) :
    (t.deleteWhere p).keys.Sublist t.keys := List.filter_sublist.map _

def countWhere (t : KeyedTable κ ρ) (p : κ → ρ → Bool) : ℕ := t.rows.countP fun row => p row.1 row.2

theorem nodup_append_row {rows : List (κ × ρ)} {key : κ} (row : ρ)
    (h : (rows.map Prod.fst).Nodup) (hkey : key ∉ rows.map Prod.fst) :
    ((rows ++ [(key, row)]).map Prod.fst).Nodup := by
  rw [List.map_append, List.nodup_append]
  refine ⟨h, by simp, fun a ha b hb => ?_⟩
  rw [List.map_cons, List.map_nil, List.mem_singleton] at hb
  intro heq
  rw [heq, hb] at ha
  exact hkey ha

theorem not_sublist_swap {l : List κ} (hnodup : l.Nodup) {a b : κ} (h : [a, b].Sublist l) :
    ¬ [b, a].Sublist l := by
  induction l with
  | nil => cases h
  | cons c l ih =>
    intro hba
    rw [List.nodup_cons] at hnodup
    cases h with
    | cons _ h =>
      cases hba with
      | cons _ hba => exact ih hnodup.2 h hba
      | cons_cons _ hba => exact hnodup.1 (h.subset (by simp))
    | cons_cons _ h =>
      cases hba with
      | cons _ hba => exact hnodup.1 (hba.subset (by simp))
      | cons_cons _ hba => exact hnodup.1 (h.subset (by simp))

/-- `a` comes before `b` among the keys. -/
def Before (t : KeyedTable κ ρ) (a b : κ) : Prop := [a, b].Sublist t.keys

theorem Before.left_mem {t : KeyedTable κ ρ} {a b : κ} (h : t.Before a b) : a ∈ t.keys :=
  h.subset (by simp)

theorem Before.right_mem {t : KeyedTable κ ρ} {a b : κ} (h : t.Before a b) : b ∈ t.keys :=
  h.subset (by simp)

theorem Before.asymm {t : KeyedTable κ ρ} {a b : κ} (h : t.Before a b) : ¬ t.Before b a :=
  not_sublist_swap t.nodup h

theorem Before.mono {t u : KeyedTable κ ρ} (hsub : u.keys.Sublist t.keys) {a b : κ}
    (h : u.Before a b) : t.Before a b := List.Sublist.trans h hsub

theorem keys_eq_of_before {t u : KeyedTable κ ρ} (hmem : ∀ key, key ∈ t.keys ↔ key ∈ u.keys)
    (h : ∀ a b, t.Before a b → u.Before a b) : t.keys = u.keys := by
  have hperm : t.keys.Perm u.keys := (List.perm_ext_iff_of_nodup t.keys_nodup u.keys_nodup).mpr hmem
  refine hperm.eq_of_pairwise (fun a b _ _ (hab : u.Before a b) hba => absurd hba hab.asymm) ?_ ?_
  · exact List.pairwise_iff_forall_sublist.mpr fun hab => h _ _ hab
  · exact List.pairwise_iff_forall_sublist.mpr fun hab => hab

variable [DecidableEq κ]

def find? (t : KeyedTable κ ρ) (key : κ) : Option ρ := t.rows.lookup key

def erase (t : KeyedTable κ ρ) (key : κ) : KeyedTable κ ρ := t.deleteWhere fun k _ => k = key

/-- `rows` with `row` under a key that is there already. -/
def replaceRow (rows : List (κ × ρ)) (key : κ) (row : ρ) : List (κ × ρ) :=
  rows.map fun r => if r.1 = key then (key, row) else r

theorem keys_replaceRow (rows : List (κ × ρ)) (key : κ) (row : ρ) :
    (replaceRow rows key row).map Prod.fst = rows.map Prod.fst := by
  rw [replaceRow, List.map_map]
  refine List.map_congr_left fun r _ => ?_
  by_cases h : r.1 = key
  · simp [h]
  · simp [h]

/-- `row` written under `key`, in the place of the row that is there. -/
def put (t : KeyedTable κ ρ) (key : κ) (row : ρ) : KeyedTable κ ρ :=
  if h : key ∈ t.keys then
    ⟨replaceRow t.rows key row, (keys_replaceRow t.rows key row).symm ▸ t.nodup⟩
  else ⟨t.rows ++ [(key, row)], nodup_append_row row t.nodup h⟩

theorem lookup_eq_some_iff_mem {rows : List (κ × ρ)} (h : (rows.map Prod.fst).Nodup) (key : κ)
    (row : ρ) : rows.lookup key = some row ↔ (key, row) ∈ rows := by
  induction rows with
  | nil => simp
  | cons r rows ih =>
    obtain ⟨k, x⟩ := r
    rw [List.map_cons, List.nodup_cons] at h
    rw [List.lookup_cons, List.mem_cons, Prod.mk.injEq]
    by_cases hk : key = k
    · rw [hk, beq_self_eq_true]
      have hnot : (k, row) ∉ rows := fun hmem => h.1 (List.mem_map.mpr ⟨_, hmem, rfl⟩)
      simp only [Option.some.injEq, true_and, hnot, or_false]
      exact eq_comm
    · rw [beq_eq_false_iff_ne.mpr hk]
      simp only [hk, false_and, false_or]
      exact ih h.2

theorem mem_map_fst_iff {rows : List (κ × ρ)} {key : κ} :
    key ∈ rows.map Prod.fst ↔ ∃ row, rows.lookup key = some row := by
  constructor
  · intro h
    cases hlookup : rows.lookup key with
    | some row => exact ⟨row, rfl⟩
    | none =>
      obtain ⟨entry, hentry, rfl⟩ := List.mem_map.mp h
      simpa using List.lookup_eq_none_iff.mp hlookup entry hentry
  · intro h
    obtain ⟨row, hlookup⟩ := h
    obtain ⟨before, after, rfl, -⟩ := List.lookup_eq_some_iff.mp hlookup
    simp

theorem lookup_map (f : ρ → ρ') (rows : List (κ × ρ)) (key : κ) :
    (rows.map fun row => (row.1, f row.2)).lookup key = (rows.lookup key).map f := by
  induction rows with
  | nil => rfl
  | cons row rows ih =>
    rw [List.map_cons, List.lookup_cons, List.lookup_cons, ih]
    cases key == row.1 <;> rfl

theorem find?_eq_some_iff {t : KeyedTable κ ρ} {key : κ} {row : ρ} :
    t.find? key = some row ↔ (key, row) ∈ t.rows := lookup_eq_some_iff_mem t.nodup key row

theorem mem_keys_iff {t : KeyedTable κ ρ} {key : κ} :
    key ∈ t.keys ↔ ∃ row, t.find? key = some row := by
  simp only [find?_eq_some_iff, keys, List.mem_map, Prod.exists, exists_and_right, exists_eq_right]

theorem find?_eq_none_iff {t : KeyedTable κ ρ} {key : κ} : t.find? key = none ↔ key ∉ t.keys := by
  rw [mem_keys_iff, Option.eq_none_iff_forall_ne_some, not_exists]

theorem mem_replaceRow {rows : List (κ × ρ)} {key : κ} {row : ρ}
    (h : key ∈ rows.map Prod.fst) (other : κ) (x : ρ) :
    (other, x) ∈ replaceRow rows key row ↔
      if other = key then x = row else (other, x) ∈ rows := by
  obtain ⟨r, hr, hkey⟩ := List.mem_map.mp h
  rw [replaceRow, List.mem_map]
  constructor
  · rintro ⟨s, hs, heq⟩
    by_cases hs' : s.1 = key
    · rw [if_pos hs', Prod.mk.injEq] at heq
      rw [if_pos heq.1.symm, heq.2]
    · rw [if_neg hs'] at heq
      subst heq
      rw [if_neg hs']
      exact hs
  · intro hx
    split at hx
    · rename_i hother
      exact ⟨r, hr, by rw [if_pos hkey, hother, hx]⟩
    · rename_i hother
      exact ⟨(other, x), hx, if_neg hother⟩

@[simp] theorem find?_put (t : KeyedTable κ ρ) (key other : κ) (row : ρ) :
    (t.put key row).find? other = if other = key then some row else t.find? other := by
  ext x
  by_cases hmem : key ∈ t.keys
  · rw [find?_eq_some_iff, put, dif_pos hmem, mem_replaceRow hmem]
    split
    · rw [Option.some.injEq, eq_comm]
    · rw [find?_eq_some_iff]
  · rw [find?_eq_some_iff, put, dif_neg hmem, List.mem_append, List.mem_singleton,
      Prod.mk.injEq, ← find?_eq_some_iff]
    by_cases hother : other = key
    · have hnone : t.find? key = none := find?_eq_none_iff.mpr hmem
      simp [hother, hnone, eq_comm]
    · simp [hother]

@[simp] theorem find?_deleteWhere (t : KeyedTable κ ρ) (p : κ → ρ → Bool) (key : κ) :
    (t.deleteWhere p).find? key = (t.find? key).filter fun row => !p key row := by
  ext x
  rw [find?_eq_some_iff, deleteWhere, List.mem_filter, Option.filter_eq_some_iff,
    find?_eq_some_iff]

@[simp] theorem find?_erase (t : KeyedTable κ ρ) (key other : κ) :
    (t.erase key).find? other = if other = key then none else t.find? other := by
  rw [erase, find?_deleteWhere]
  by_cases h : other = key
  · simp [h]
  · cases hfind : t.find? other with
    | none => simp
    | some row => simp [h, Option.filter]

theorem find?_deleteWhere_all (t : KeyedTable κ ρ) (key : κ) :
    (t.deleteWhere fun _ _ => true).find? key = none := by
  rw [find?_deleteWhere, Option.filter_eq_none_iff]
  simp

theorem countWhere_pos_iff (t : KeyedTable κ ρ) (p : κ → ρ → Bool) :
    0 < t.countWhere p ↔ ∃ key row, t.find? key = some row ∧ p key row = true := by
  rw [countWhere, List.countP_pos_iff]
  simp only [find?_eq_some_iff, Prod.exists]

theorem countWhere_key_pos_iff (t : KeyedTable κ ρ) (key : κ) :
    0 < t.countWhere (fun k _ => k = key) ↔ ∃ row, t.find? key = some row := by
  rw [countWhere_pos_iff]
  constructor
  · rintro ⟨k, row, hrow, hk⟩
    exact ⟨row, of_decide_eq_true hk ▸ hrow⟩
  · rintro ⟨row, hrow⟩
    exact ⟨key, row, hrow, decide_eq_true rfl⟩

theorem Before.of_sublist {t u : KeyedTable κ ρ} (hsub : u.keys.Sublist t.keys) {a b : κ}
    (h : t.Before a b) (ha : a ∈ u.keys) (hb : b ∈ u.keys) : u.Before a b := by
  have hfilter := h.filter fun key => decide (key ∈ u.keys)
  have hleft := hsub.filter fun key => decide (key ∈ u.keys)
  rw [List.filter_eq_self.mpr fun key hkey => decide_eq_true hkey] at hleft
  have hperm : u.keys.Perm (t.keys.filter fun key => decide (key ∈ u.keys)) := by
    rw [List.perm_ext_iff_of_nodup u.keys_nodup (t.keys_nodup.filter _)]
    intro key
    rw [List.mem_filter, decide_eq_true_iff]
    exact ⟨fun hkey => ⟨hsub.subset hkey, hkey⟩, fun hkey => hkey.2⟩
  rw [← hleft.eq_of_length hperm.length_eq] at hfilter
  unfold Before
  simpa only [List.filter_cons, ha, hb, decide_true, if_true, List.filter_nil] using hfilter

theorem keys_put_of_mem {t : KeyedTable κ ρ} {key : κ} (h : key ∈ t.keys) (row : ρ) :
    (t.put key row).keys = t.keys := by
  rw [keys, put, dif_pos h]
  exact keys_replaceRow t.rows key row

theorem keys_put_of_notMem {t : KeyedTable κ ρ} {key : κ} (h : key ∉ t.keys) (row : ρ) :
    (t.put key row).keys = t.keys ++ [key] := by
  rw [keys, put, dif_neg h, List.map_append]
  rfl

theorem before_put_of_notMem {t : KeyedTable κ ρ} {key : κ} (h : key ∉ t.keys) (row : ρ)
    {a b : κ} : (t.put key row).Before a b ↔ t.Before a b ∨ a ∈ t.keys ∧ b = key := by
  rw [Before, keys_put_of_notMem h]
  constructor
  · intro hsub
    obtain ⟨l₁, l₂, heq, h₁, h₂⟩ := List.sublist_append_iff.mp hsub
    rcases List.sublist_singleton.mp h₂ with rfl | rfl
    · rw [List.append_nil] at heq
      exact .inl (show [a, b].Sublist t.keys from heq ▸ h₁)
    · have hsplit : [a] ++ [b] = l₁ ++ [key] := heq
      obtain ⟨ha, hb⟩ := List.append_inj' hsplit rfl
      rw [← ha] at h₁
      exact .inr ⟨List.singleton_sublist.mp h₁, List.singleton_inj.mp hb⟩
  · rintro (hsub | ⟨ha, rfl⟩)
    · exact hsub.trans (List.sublist_append_left _ _)
    · exact (List.singleton_sublist.mpr ha).append (List.Sublist.refl [b])

def ofRows (rows : List (κ × ρ)) : KeyedTable κ ρ :=
  rows.foldl (fun t row => t.put row.1 row.2) .empty

theorem keys_put_ne_nil (t : KeyedTable κ ρ) (key : κ) (row : ρ) : (t.put key row).keys ≠ [] := by
  have hmem : key ∈ (t.put key row).keys := mem_keys_iff.mpr ⟨row, by rw [find?_put, if_pos rfl]⟩
  exact List.ne_nil_of_mem hmem

theorem rows_ofRows_ne_nil {rows : List (κ × ρ)} (h : rows ≠ []) : (ofRows rows).rows ≠ [] := by
  obtain ⟨before, last, rfl⟩ := (List.eq_nil_or_concat' rows).resolve_left h
  intro hempty
  have hlast : ofRows (before ++ [last]) = (ofRows before).put last.1 last.2 := by
    unfold ofRows
    rw [List.foldl_append]
    rfl
  rw [hlast] at hempty
  exact keys_put_ne_nil (ofRows before) last.1 last.2 (congrArg (List.map Prod.fst) hempty)

variable {α : Type*} (f : ρ → α)

def view (t : KeyedTable κ ρ) : κ → Option α := fun key => (t.find? key).map f

theorem view_put (t : KeyedTable κ ρ) (key : κ) (row : ρ) :
    (t.put key row).view f = Function.update (t.view f) key (some (f row)) := by
  funext other
  by_cases h : other = key
  · rw [view, find?_put, if_pos h, h, Function.update_self, Option.map_some]
  · rw [view, find?_put, if_neg h, Function.update_of_ne h, view]

theorem view_erase (t : KeyedTable κ ρ) (key : κ) :
    (t.erase key).view f = Function.update (t.view f) key none := by
  funext other
  by_cases h : other = key
  · rw [view, find?_erase, if_pos h, h, Function.update_self, Option.map_none]
  · rw [view, find?_erase, if_neg h, Function.update_of_ne h, view]

theorem view_deleteWhere (t : KeyedTable κ ρ) (p : α → Bool) :
    (t.deleteWhere fun _ row => p (f row)).view f =
      fun key => (t.view f key).filter fun a => !p a := by
  funext key
  rw [view, find?_deleteWhere, view, Option.filter_map]
  rfl

theorem mem_keys_iff_view {t : KeyedTable κ ρ} {key : κ} :
    key ∈ t.keys ↔ (t.view f key).isSome = true := by
  rw [mem_keys_iff, view, Option.isSome_map, Option.isSome_iff_exists]

theorem length_eq_ncard (t : KeyedTable κ ρ) :
    t.rows.length = {key | (t.view f key).isSome = true}.ncard := by
  have hset : {key | (t.view f key).isSome = true} = (t.keys.toFinset : Set κ) := by
    ext key
    rw [Set.mem_ofPred_eq, ← mem_keys_iff_view, List.coe_toFinset, Set.mem_ofPred_eq]
  rw [hset, Set.ncard_coe_finset, List.toFinset_card_of_nodup t.keys_nodup, keys, List.length_map]

/-- The rows of which `p` holds, counted by their keys. -/
theorem countWhere_eq_ncard (t : KeyedTable κ ρ) (p : α → Bool) :
    t.countWhere (fun _ row => p (f row)) =
      {key | ((t.view f key).filter p).isSome = true}.ncard := by
  have hview := view_deleteWhere f t fun a => !p a
  simp only [Bool.not_not] at hview
  have hlength := length_eq_ncard f (t.deleteWhere fun _ row => !p (f row))
  rw [hview] at hlength
  rw [← hlength, countWhere, List.countP_eq_length_filter, deleteWhere]
  simp only [Bool.not_not]

end KeyedTable
