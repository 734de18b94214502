import AtomicMemory.Contract.Encoding

-- What `_jsonify` makes of a value: its datetimes in their UTC millisecond form, unless one of
-- them has none.

open Calendar
open PyValue hiding none

namespace AtomicMemory.Contract

mutual
/-- Every datetime in the value has a UTC form in years 1 to 9999. -/
def inRange : PyValue → Bool
  | .datetime d => decide d.InRange
  | .list xs => listInRange xs
  | .dict items => itemsInRange items
  | _ => true

def listInRange : List PyValue → Bool
  | [] => true
  | x :: xs => inRange x && listInRange xs

def itemsInRange : Items → Bool
  | [] => true
  | (_, v) :: items => inRange v && itemsInRange items
end

mutual
def isoForm : PyValue → PyValue
  | .datetime d => .str d.zText
  | .list xs => .list (listIsoForm xs)
  | .dict items => .dict (itemsIsoForm items)
  | v => v

def listIsoForm : List PyValue → List PyValue
  | [] => []
  | x :: xs => isoForm x :: listIsoForm xs

def itemsIsoForm : Items → Items
  | [] => []
  | (key, v) :: items => (key, isoForm v) :: itemsIsoForm items
end

theorem toIsoZ_error {d : DateTime} (h : ¬d.InRange) : toIsoZ d = .error .overflowError := by
  have hrange : ¬(if d.offset = none then d.replaceUtc else d).InRange := by
    unfold DateTime.InRange
    rw [instant_localized]
    exact h
  have hutc : (if d.offset = none then d.replaceUtc else d).astimezoneUtc = none := by
    unfold DateTime.astimezoneUtc
    rw [dif_neg hrange]
  unfold toIsoZ
  simp only [hutc]

mutual
theorem jsonify_inRange : ∀ v : PyValue, inRange v = true → jsonify v = .ok (isoForm v)
  | .datetime d, h => by
    rw [jsonify, toIsoZ_eq (of_decide_eq_true h)]
    rfl
  | .dict items, h => by
    rw [jsonify, jsonifyItems_inRange items h]
    rfl
  | .list xs, h => by
    rw [jsonify, jsonifyList_inRange xs h]
    rfl
  | .none, _ | .bool _, _ | .int _, _ | .float _, _ | .str _, _ => rfl

theorem jsonifyList_inRange :
    ∀ xs : List PyValue, listInRange xs = true → jsonifyList xs = .ok (listIsoForm xs)
  | [], _ => rfl
  | x :: xs, h => by
    obtain ⟨hx, hxs⟩ := Bool.and_eq_true_iff.mp h
    rw [jsonifyList, jsonify_inRange x hx, jsonifyList_inRange xs hxs]
    rfl

theorem jsonifyItems_inRange :
    ∀ items : Items, itemsInRange items = true → jsonifyItems items = .ok (itemsIsoForm items)
  | [], _ => rfl
  | (key, v) :: items, h => by
    obtain ⟨hv, hitems⟩ := Bool.and_eq_true_iff.mp h
    rw [jsonifyItems, jsonify_inRange v hv, jsonifyItems_inRange items hitems]
    rfl
end

mutual
theorem isJson_isoForm : ∀ v : PyValue, (isoForm v).isJson = true
  | .datetime _ => rfl
  | .dict items => itemsIsJson_isoForm items
  | .list xs => listIsJson_isoForm xs
  | .none | .bool _ | .int _ | .float _ | .str _ => rfl

theorem listIsJson_isoForm : ∀ xs : List PyValue, listIsJson (listIsoForm xs) = true
  | [] => rfl
  | x :: xs => Bool.and_eq_true_iff.mpr ⟨isJson_isoForm x, listIsJson_isoForm xs⟩

theorem itemsIsJson_isoForm : ∀ items : Items, itemsIsJson (itemsIsoForm items) = true
  | [] => rfl
  | (_, v) :: items => Bool.and_eq_true_iff.mpr ⟨isJson_isoForm v, itemsIsJson_isoForm items⟩
end

def writeMetadata (metadata : Option Items) (data : Items) : Except PyError Items :=
  match data.get "metadata" with
  | .none => .ok data
  | _ => do
    let metadata ← jsonify ((metadata.map .dict).getD .none)
    .ok (data.set "metadata" metadata)

theorem writeMetadata_eq {metadata : Option Items} {data : Items} {f : Items → Items}
    (h : data.lookup "metadata" = metadata.map fun items => .dict (f items))
    (hrange : ∀ items ∈ metadata, itemsInRange items = true) :
    writeMetadata metadata data =
      .ok (data.setSome "metadata" (metadata.map fun items => .dict (itemsIsoForm items))) := by
  unfold writeMetadata Items.get
  rw [h]
  cases metadata with
  | none => rfl
  | some items =>
    have hjson : jsonify (.dict items) = .ok (.dict (itemsIsoForm items)) :=
      jsonify_inRange _ (hrange items rfl)
    simp only [Option.map_some, Option.getD_some, hjson]
    rfl

end AtomicMemory.Contract
