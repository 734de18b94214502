import AtomicMemory.Lib.PyValue

-- Types whose values stand for the texts of a closed set, and how a value is read as one.

open PyValue hiding none

class Literal (α : Type) where
  all : List α
  text : α → String
  mem_all : ∀ a, a ∈ all
  text_injective : ∀ a ∈ all, ∀ b ∈ all, text a = text b → a = b

section

variable {α : Type} [Literal α]

def literal : PyValue → Option α
  | .str s => Literal.all.find? fun a => Literal.text a = s
  | _ => none

theorem literal_eq_some_iff {v : PyValue} {a : α} :
    literal v = some a ↔ v = .str (Literal.text a) := by
  constructor
  · intro h
    cases v with
    | str s => rw [of_decide_eq_true (List.find?_some (p := fun a => Literal.text a = s) h)]
    | _ => cases h
  · rintro rfl
    rw [literal]
    cases hfind : Literal.all.find? fun b : α => Literal.text b = Literal.text a with
    | none =>
      rw [List.find?_eq_none] at hfind
      exact absurd (decide_eq_true rfl) (hfind a (Literal.mem_all a))
    | some b =>
      have htext := of_decide_eq_true
        (List.find?_some (p := fun b => Literal.text b = Literal.text a) hfind)
      rw [Literal.text_injective b (Literal.mem_all b) a (Literal.mem_all a) htext]

end
