import AtomicMemory.Lib.PyValue

-- The Python values that a field of type `Any` can hold: beside those of JSON and datetimes,
-- tuples, dates, UUIDs and decimals.

open Calendar

inductive AnyValue
  | none
  | bool (b : Bool)
  | int (n : ℤ)
  | float (q : ℚ)
  | str (s : String)
  | list (xs : List AnyValue)
  | tuple (xs : List AnyValue)
  | dict (items : List (String × AnyValue))
  | datetime (d : DateTime)
  | date (text : String)
  | uuid (text : String)
  | decimal (text : String)

namespace AnyValue

abbrev AnyItems := List (String × AnyValue)

/-- `d[key] = value`. -/
def AnyItems.set (items : AnyItems) (key : String) (value : AnyValue) : AnyItems :=
  (items.filter fun item => item.1 ≠ key) ++ [(key, value)]

mutual
def isJson : AnyValue → Bool
  | tuple _ | datetime _ | date _ | uuid _ | decimal _ => false
  | list xs => listIsJson xs
  | dict items => itemsIsJson items
  | _ => true

def listIsJson : List AnyValue → Bool
  | [] => true
  | x :: xs => isJson x && listIsJson xs

def itemsIsJson : AnyItems → Bool
  | [] => true
  | (_, v) :: items => isJson v && itemsIsJson items
end

mutual
def ofValue : PyValue → AnyValue
  | .none => none
  | .bool b => bool b
  | .int n => int n
  | .float q => float q
  | .str s => str s
  | .list xs => list (ofList xs)
  | .dict items => dict (ofItems items)
  | .datetime d => datetime d

def ofList : List PyValue → List AnyValue
  | [] => []
  | x :: xs => ofValue x :: ofList xs

def ofItems : List (String × PyValue) → AnyItems
  | [] => []
  | (key, v) :: items => (key, ofValue v) :: ofItems items
end

mutual
theorem isJson_ofValue : ∀ v : PyValue, (ofValue v).isJson = v.isJson
  | .list xs => listIsJson_ofList xs
  | .dict items => itemsIsJson_ofItems items
  | .none | .bool _ | .int _ | .float _ | .str _ | .datetime _ => rfl

theorem listIsJson_ofList : ∀ xs : List PyValue, listIsJson (ofList xs) = PyValue.listIsJson xs
  | [] => rfl
  | x :: xs => congrArg₂ and (isJson_ofValue x) (listIsJson_ofList xs)

theorem itemsIsJson_ofItems :
    ∀ items : PyValue.Items, itemsIsJson (ofItems items) = PyValue.itemsIsJson items
  | [] => rfl
  | (_, v) :: items => congrArg₂ and (isJson_ofValue v) (itemsIsJson_ofItems items)
end

theorem lookup_ofItems (items : PyValue.Items) (key : String) :
    (ofItems items).lookup key = (List.lookup key items).map ofValue := by
  induction items with
  | nil => rfl
  | cons x items ih =>
    obtain ⟨k, v⟩ := x
    rw [ofItems, List.lookup_cons, List.lookup_cons]
    split
    · rfl
    · exact ih

theorem itemsIsJson_iff (items : AnyItems) :
    itemsIsJson items = true ↔ ∀ item ∈ items, item.2.isJson = true := by
  induction items with
  | nil => simp [itemsIsJson]
  | cons x items ih =>
    obtain ⟨key, v⟩ := x
    rw [itemsIsJson, Bool.and_eq_true, ih, List.forall_mem_cons]

theorem listIsJson_iff (xs : List AnyValue) :
    listIsJson xs = true ↔ ∀ x ∈ xs, x.isJson = true := by
  induction xs with
  | nil => simp [listIsJson]
  | cons x xs ih => rw [listIsJson, Bool.and_eq_true, ih, List.forall_mem_cons]

namespace AnyItems

variable {items : AnyItems} {key : String} {value : AnyValue}

theorem lookup_set (other : String) :
    (items.set key value).lookup other =
      if other = key then some value else items.lookup other := by
  induction items with
  | nil =>
    rw [set, List.filter_nil, List.nil_append, List.lookup_cons]
    split <;> simp_all
  | cons x items ih =>
    obtain ⟨k, v⟩ := x
    unfold set at ih ⊢
    by_cases hk : k = key
    · have hdrop : decide (k ≠ key) = false := decide_eq_false (not_not_intro hk)
      rw [List.filter_cons, hdrop, if_neg Bool.false_ne_true, ih, List.lookup_cons]
      split
      · rfl
      · rename_i hother
        rw [beq_eq_false_iff_ne.mpr (hk ▸ hother)]
    · rw [List.filter_cons, if_pos (decide_eq_true hk), List.cons_append, List.lookup_cons, ih,
        List.lookup_cons]
      by_cases hother : other = k
      · rw [hother, beq_self_eq_true, if_neg hk, if_neg hk]
      · rw [beq_eq_false_iff_ne.mpr hother]

theorem isJson_set (hitems : itemsIsJson items = true) (hvalue : value.isJson = true) :
    itemsIsJson (items.set key value) = true := by
  rw [itemsIsJson_iff] at hitems ⊢
  intro item hitem
  rcases List.mem_append.mp hitem with hitem | hitem
  · exact hitems item (List.mem_of_mem_filter hitem)
  · rw [List.mem_singleton.mp hitem]
    exact hvalue

end AnyItems

end AnyValue
