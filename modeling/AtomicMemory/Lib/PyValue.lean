import AtomicMemory.Lib.DateTime
import Mathlib.Data.Rat.Defs
import Mathlib.Data.Option.Basic
import Mathlib.Data.List.Forall2

-- The values that JSON decoding and model dumps are made of. A dict is a list of its items,
-- of which the first of a key counts.

open Calendar

inductive PyValue
  | none
  | bool (b : Bool)
  | int (n : ℤ)
  | float (q : ℚ)
  | str (s : String)
  | list (xs : List PyValue)
  | dict (items : List (String × PyValue))
  | datetime (d : DateTime)

namespace PyValue

abbrev Items := List (String × PyValue)

/-- `bool(v)`. -/
def truthy : PyValue → Bool
  | none => false
  | bool b => b
  | int n => n ≠ 0
  | float q => q ≠ 0
  | str s => s ≠ ""
  | list xs => !xs.isEmpty
  | dict items => !items.isEmpty
  | datetime _ => true

def isNone : PyValue → Bool
  | none => true
  | _ => false

@[simp] theorem isNone_iff (v : PyValue) : v.isNone = true ↔ v = none := by
  cases v <;> simp [isNone]

namespace Items

def keys (items : Items) : List String := items.map Prod.fst

/-- `d.get(key)`. -/
def get (items : Items) (key : String) : PyValue := (items.lookup key).getD none

theorem lookup_of_get {items : Items} {key : String} {v : PyValue} (h : items.get key = v)
    (hv : v ≠ none) : items.lookup key = some v := by
  unfold get at h
  cases hlookup : List.lookup key items with
  | none =>
    rw [hlookup] at h
    exact absurd h.symm hv
  | some w =>
    rw [hlookup] at h
    exact congrArg some h

/-- `del d[key]`, for a key that may be absent. -/
def erase (items : Items) (key : String) : Items := items.filter fun item => item.1 ≠ key

/-- `d[key] = value`. -/
def set (items : Items) (key : String) (value : PyValue) : Items :=
  items.erase key ++ [(key, value)]

/-- `if old in d: d[new] = d.pop(old)`. -/
def rename (items : Items) (old new : String) : Items :=
  match items.lookup old with
  | some value => (items.erase old).set new value
  | Option.none => items

theorem lookup_cons (k : String) (v : PyValue) (items : Items) (key : String) :
    List.lookup key ((k, v) :: items) = if key = k then some v else items.lookup key := by
  rw [List.lookup_cons]
  by_cases h : key = k
  · rw [h, beq_self_eq_true, if_pos rfl]
  · rw [beq_eq_false_iff_ne.mpr h, if_neg h]

theorem lookup_append (xs ys : Items) (key : String) :
    (xs ++ ys).lookup key = (xs.lookup key).or (ys.lookup key) := by
  induction xs with
  | nil => rfl
  | cons x xs ih =>
    obtain ⟨k, v⟩ := x
    rw [List.cons_append, List.lookup_cons, List.lookup_cons]
    split
    · rfl
    · exact ih

theorem lookup_erase (items : Items) (key other : String) :
    (items.erase key).lookup other = if other = key then Option.none else items.lookup other := by
  induction items with
  | nil => simp [erase]
  | cons x xs ih =>
    obtain ⟨k, v⟩ := x
    unfold erase at ih ⊢
    rw [List.filter_cons]
    split
    · rename_i hk
      rw [lookup_cons, lookup_cons, ih]
      split
      · rename_i hother
        rw [if_neg (by simpa [hother] using hk)]
      · rfl
    · rename_i hk
      have hk : k = key := by simpa using hk
      rw [ih, lookup_cons, hk]
      split <;> rfl

theorem lookup_set (items : Items) (key other : String) (value : PyValue) :
    (items.set key value).lookup other =
      if other = key then some value else items.lookup other := by
  unfold set
  rw [lookup_append, lookup_erase, lookup_cons]
  split
  · rfl
  · exact Option.or_none

theorem lookup_rename (items : Items) (old new key : String) :
    (items.rename old new).lookup key =
      if key = new then (items.lookup old).or (items.lookup new)
      else if key = old then Option.none else items.lookup key := by
  unfold rename
  split
  · rename_i v h
    rw [lookup_set, lookup_erase, h]
    rfl
  · rename_i h
    rw [h, Option.none_or]
    split
    · rename_i hkey
      rw [hkey]
    · split
      · rename_i hkey
        rw [hkey, h]
      · rfl

/-- `if x is not None: d[key] = x`. -/
def setSome (items : Items) (key : String) (value : Option PyValue) : Items :=
  match value with
  | some value => items.set key value
  | Option.none => items

theorem lookup_setSome (items : Items) (key other : String) (value : Option PyValue) :
    (items.setSome key value).lookup other =
      if other = key then value.or (items.lookup key) else items.lookup other := by
  unfold setSome
  split
  · rw [lookup_set, Option.some_or]
  · rw [Option.none_or]
    split
    · rename_i h
      rw [h]
    · rfl

/-- `f` applied to the values under `key`. -/
def update (items : Items) (key : String) (f : PyValue → PyValue) : Items :=
  items.map fun item => if item.1 = key then (item.1, f item.2) else item

theorem lookup_update (items : Items) (key other : String) (f : PyValue → PyValue) :
    (items.update key f).lookup other =
      if other = key then (items.lookup key).map f else items.lookup other := by
  induction items with
  | nil => simp [update]
  | cons x xs ih =>
    obtain ⟨k, v⟩ := x
    unfold update at ih ⊢
    rw [List.map_cons]
    by_cases hk : k = key
    · rw [if_pos hk, lookup_cons, ih, lookup_cons, lookup_cons, hk]
      split <;> simp
    · rw [if_neg hk, lookup_cons, ih, lookup_cons, lookup_cons, if_neg (Ne.symm hk)]
      split
      · rename_i hother
        rw [if_neg (hother ▸ hk)]
      · rfl

@[simp] theorem keys_update (items : Items) (key : String) (f : PyValue → PyValue) :
    (items.update key f).keys = items.keys := by
  unfold update keys
  rw [List.map_map]
  refine List.map_congr_left fun item _ => ?_
  rw [Function.comp_apply]
  split <;> rfl

def ofEntries (entries : List (String × Option PyValue)) : Items :=
  entries.filterMap fun entry => entry.2.map (entry.1, ·)

theorem ofEntries_append (xs ys : List (String × Option PyValue)) :
    ofEntries (xs ++ ys) = ofEntries xs ++ ofEntries ys := List.filterMap_append

theorem cons_ofEntries (key : String) (value : PyValue) (entries : List (String × Option PyValue)) :
    (key, value) :: ofEntries entries = ofEntries ((key, some value) :: entries) := by
  rw [ofEntries, ofEntries, List.filterMap_cons]
  rfl

theorem lookup_ofEntries {entries : List (String × Option PyValue)}
    (h : (entries.map Prod.fst).Nodup) (key : String) :
    (ofEntries entries).lookup key = (entries.lookup key).join := by
  induction entries with
  | nil => rfl
  | cons entry entries ih =>
    obtain ⟨k, v⟩ := entry
    obtain ⟨hk, hrest⟩ := List.nodup_cons.mp h
    have ih := ih hrest
    rw [List.lookup_cons]
    cases v with
    | some v =>
      have hcons : ofEntries ((k, some v) :: entries) = (k, v) :: ofEntries entries := rfl
      rw [hcons, lookup_cons, ih]
      split
      · rename_i hkey
        rw [hkey, beq_self_eq_true]
        rfl
      · rename_i hkey
        rw [beq_eq_false_iff_ne.mpr hkey]
    | none =>
      have hcons : ofEntries ((k, Option.none) :: entries) = ofEntries entries := rfl
      rw [hcons, ih]
      split
      · rename_i hkey
        have hlookup : entries.lookup key = Option.none := by
          rw [eq_of_beq hkey, List.lookup_eq_none_iff]
          intro entry hentry
          rw [bne_iff_ne]
          intro heq
          exact hk (List.mem_map.mpr ⟨entry, hentry, heq.symm⟩)
        rw [hlookup]
        rfl
      · rfl

theorem lookup_eq_none_iff (items : Items) (key : String) :
    items.lookup key = Option.none ↔ key ∉ items.keys := by
  induction items with
  | nil => simp [keys]
  | cons x xs ih =>
    obtain ⟨k, v⟩ := x
    rw [List.lookup_cons]
    by_cases h : key = k
    · subst h
      simp [keys]
    · have hne : (key == k) = false := beq_eq_false_iff_ne.mpr h
      rw [hne]
      simpa [keys, h] using ih

theorem mem_keys_of_lookup {items : Items} {key : String} {value : PyValue}
    (h : items.lookup key = some value) : key ∈ items.keys := by
  by_contra hnot
  rw [(lookup_eq_none_iff items key).mpr hnot] at h
  cases h

theorem mem_keys_iff (items : Items) (key : String) :
    key ∈ items.keys ↔ ∃ value, items.lookup key = some value := by
  refine ⟨fun h => ?_, fun ⟨_, h⟩ => mem_keys_of_lookup h⟩
  by_contra hnot
  have hnone : items.lookup key = Option.none :=
    Option.eq_none_iff_forall_ne_some.mpr fun value hv => hnot ⟨value, hv⟩
  exact (lookup_eq_none_iff items key).mp hnone h

theorem keys_subset_iff (items : Items) (allowed : List String) :
    (∀ key ∈ items.keys, key ∈ allowed) ↔ ∀ key ∉ allowed, items.lookup key = Option.none := by
  refine forall_congr' fun key => ?_
  rw [lookup_eq_none_iff]
  exact not_imp_not.symm

end Items

/-- `d == e` in Python: numbers by value, dicts by their keys and whatever their order. -/
inductive Same : PyValue → PyValue → Prop
  | refl (v : PyValue) : Same v v
  | floatInt (n : ℤ) : Same (float n) (int n)
  | intFloat (n : ℤ) : Same (int n) (float n)
  | list {xs ys : List PyValue} (h : List.Forall₂ Same xs ys) : Same (list xs) (list ys)
  | dict {xs ys : Items} (h : ∀ key, Option.Rel Same (xs.lookup key) (ys.lookup key)) :
    Same (dict xs) (dict ys)

theorem Same.dict_of_keys {xs ys : Items} {keys : List String} (hx : ∀ key ∈ xs.keys, key ∈ keys)
    (hy : ∀ key ∈ ys.keys, key ∈ keys)
    (h : ∀ key ∈ keys, Option.Rel Same (xs.lookup key) (ys.lookup key)) :
    Same (.dict xs) (.dict ys) := by
  refine .dict fun key => ?_
  by_cases hkey : key ∈ keys
  · exact h key hkey
  · rw [(Items.lookup_eq_none_iff xs key).mpr fun hmem => hkey (hx key hmem),
      (Items.lookup_eq_none_iff ys key).mpr fun hmem => hkey (hy key hmem)]
    exact .none

mutual
def isJson : PyValue → Bool
  | datetime _ => false
  | list xs => listIsJson xs
  | dict items => itemsIsJson items
  | _ => true

def listIsJson : List PyValue → Bool
  | [] => true
  | x :: xs => isJson x && listIsJson xs

def itemsIsJson : List (String × PyValue) → Bool
  | [] => true
  | (_, v) :: items => isJson v && itemsIsJson items
end

theorem itemsIsJson_iff (items : Items) :
    itemsIsJson items = true ↔ ∀ item ∈ items, item.2.isJson = true := by
  induction items with
  | nil => simp [itemsIsJson]
  | cons x items ih =>
    obtain ⟨key, v⟩ := x
    rw [itemsIsJson, Bool.and_eq_true, ih, List.forall_mem_cons]

namespace Items

variable {items : Items}

theorem isJson_append (xs ys : Items) :
    itemsIsJson (xs ++ ys) = (itemsIsJson xs && itemsIsJson ys) := by
  rw [Bool.eq_iff_iff, Bool.and_eq_true, itemsIsJson_iff, itemsIsJson_iff, itemsIsJson_iff]
  exact List.forall_mem_append

theorem isJson_erase (h : itemsIsJson items = true) (key : String) :
    itemsIsJson (items.erase key) = true := by
  rw [itemsIsJson_iff] at *
  exact fun item hitem => h item (List.mem_of_mem_filter hitem)

theorem isJson_set (h : itemsIsJson items = true) (key : String) {value : PyValue}
    (hvalue : value.isJson = true) : itemsIsJson (items.set key value) = true := by
  rw [set, isJson_append, isJson_erase h key, itemsIsJson, hvalue]
  rfl

theorem isJson_setSome (h : itemsIsJson items = true) (key : String) {value : Option PyValue}
    (hvalue : ∀ v ∈ value, v.isJson = true) : itemsIsJson (items.setSome key value) = true := by
  cases value with
  | none => exact h
  | some v => exact isJson_set h key (hvalue v rfl)

theorem isJson_of_lookup (h : itemsIsJson items = true) {key : String} {v : PyValue}
    (hv : items.lookup key = some v) : v.isJson = true := by
  obtain ⟨before, after, rfl, -⟩ := List.lookup_eq_some_iff.mp hv
  exact (itemsIsJson_iff _).mp h (key, v) (by simp)

theorem isJson_rename (h : itemsIsJson items = true) (old new : String) :
    itemsIsJson (items.rename old new) = true := by
  unfold rename
  split
  · rename_i v hv
    exact isJson_set (isJson_erase h old) new (isJson_of_lookup h hv)
  · exact h

end Items

end PyValue
