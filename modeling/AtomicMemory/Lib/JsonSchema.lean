import AtomicMemory.Lib.PyValue

-- The part of JSON Schema that describes records: strings, numbers, arrays and objects with
-- required, optional and possibly additional properties.

open Calendar
open PyValue hiding none

/-- `dateTime` is a string under an asserted `"format": "date-time"`. -/
inductive Schema
  | string
  | nullableString
  | dateTime
  | enum (texts : List String)
  | number (minimum maximum : Option ℚ)
  | integer (minimum : ℤ)
  | array (items : Schema)
  | object (properties : List (String × Schema)) (required : List String) (additional : Bool)

namespace Schema

mutual
/-- `P` holds of every part of a value and the part of the schema that describes it. -/
def All (P : Schema → PyValue → Prop) : Schema → PyValue → Prop
  | array items, .list xs => P (array items) (.list xs) ∧ ∀ x ∈ xs, items.All P x
  | object properties required additional, .dict items =>
    P (object properties required additional) (.dict items) ∧ propertiesAll P properties items
  | s, v => P s v

def propertiesAll (P : Schema → PyValue → Prop) : List (String × Schema) → Items → Prop
  | [], _ => True
  | (key, s) :: properties, items =>
    (∀ v, items.lookup key = some v → s.All P v) ∧ propertiesAll P properties items
end

def Within (minimum maximum : Option ℚ) (q : ℚ) : Prop :=
  (∀ m ∈ minimum, m ≤ q) ∧ ∀ m ∈ maximum, q ≤ m

/-- What a schema asks of a value, its properties and its items left aside. -/
def Matches : Schema → PyValue → Prop
  | string, .str _ => True
  | nullableString, .str _ => True
  | nullableString, .none => True
  | dateTime, .str s => (parseRfc3339 s.toList).isSome
  | enum texts, .str s => s ∈ texts
  | number minimum maximum, .int n => Within minimum maximum n
  | number minimum maximum, .float q => Within minimum maximum q
  | integer minimum, .int n => minimum ≤ n
  | integer minimum, .float q => q.den = 1 ∧ minimum ≤ q.num
  | array _, .list _ => True
  | object properties required additional, .dict items =>
    (∀ key ∈ required, key ∈ Items.keys items) ∧
      (additional = false → ∀ key ∈ Items.keys items, key ∈ properties.map Prod.fst)
  | _, _ => False

def Valid : Schema → PyValue → Prop := All Matches

/-- The keys of an object are the listed ones, the required ones among them. -/
def HasKeys : Schema → PyValue → Prop
  | object properties required additional, .dict items =>
    (∀ key ∈ required, key ∈ Items.keys items) ∧
      (additional = false → ∀ key ∈ Items.keys items, key ∈ properties.map Prod.fst)
  | _, _ => True

def StrictKeys : Schema → PyValue → Prop := All HasKeys

mutual
theorem All.and {P Q : Schema → PyValue → Prop} :
    ∀ (s : Schema) (v : PyValue), s.All P v → s.All Q v → s.All (fun s v => P s v ∧ Q s v) v
  | array items, v, hp, hq => by
    cases v with
    | list xs => exact ⟨⟨hp.1, hq.1⟩, fun x hx => All.and items x (hp.2 x hx) (hq.2 x hx)⟩
    | _ => exact ⟨hp, hq⟩
  | object properties required additional, v, hp, hq => by
    cases v with
    | dict items => exact ⟨⟨hp.1, hq.1⟩, propertiesAll.and properties items hp.2 hq.2⟩
    | _ => exact ⟨hp, hq⟩
  | string, _, hp, hq | nullableString, _, hp, hq | dateTime, _, hp, hq | enum _, _, hp, hq
  | number _ _, _, hp, hq | integer _, _, hp, hq => ⟨hp, hq⟩

theorem propertiesAll.and {P Q : Schema → PyValue → Prop} :
    ∀ (properties : List (String × Schema)) (items : Items), propertiesAll P properties items →
      propertiesAll Q properties items → propertiesAll (fun s v => P s v ∧ Q s v) properties items
  | [], _, _, _ => trivial
  | (_, s) :: properties, items, hp, hq =>
    ⟨fun v hv => All.and s v (hp.1 v hv) (hq.1 v hv),
      propertiesAll.and properties items hp.2 hq.2⟩
end

mutual
theorem All.mono {P Q : Schema → PyValue → Prop} (hpq : ∀ s v, P s v → Q s v) :
    ∀ (s : Schema) (v : PyValue), s.All P v → s.All Q v
  | array items, v, h => by
    cases v with
    | list xs => exact ⟨hpq _ _ h.1, fun x hx => All.mono hpq items x (h.2 x hx)⟩
    | _ => exact hpq _ _ h
  | object properties required additional, v, h => by
    cases v with
    | dict items => exact ⟨hpq _ _ h.1, propertiesAll.mono hpq properties items h.2⟩
    | _ => exact hpq _ _ h
  | string, _, h | nullableString, _, h | dateTime, _, h | enum _, _, h | number _ _, _, h
  | integer _, _, h => hpq _ _ h

theorem propertiesAll.mono {P Q : Schema → PyValue → Prop} (hpq : ∀ s v, P s v → Q s v) :
    ∀ (properties : List (String × Schema)) (items : Items), propertiesAll P properties items →
      propertiesAll Q properties items
  | [], _, _ => trivial
  | (_, s) :: properties, items, h =>
    ⟨fun v hv => All.mono hpq s v (h.1 v hv), propertiesAll.mono hpq properties items h.2⟩
end

theorem strictKeys_of_valid {s : Schema} {v : PyValue} (h : s.Valid v) : s.StrictKeys v := by
  refine All.mono (fun s v hmatch => ?_) s v h
  cases s with
  | object properties required additional =>
    cases v with
    | dict items => exact hmatch
    | _ => trivial
  | _ => trivial

end Schema
