import Mathlib.Data.List.Forall2

-- What a chain of such computations returns, and which errors leave it.

namespace Except

variable {ε α β : Type}

theorem bind_ok_iff {x : Except ε α} {f : α → Except ε β} {b : β} :
    (x >>= f) = .ok b ↔ ∃ a, x = .ok a ∧ f a = .ok b := by
  cases x with
  | error e =>
    constructor
    · intro h
      cases h
    · rintro ⟨a, h, -⟩
      cases h
  | ok a =>
    constructor
    · intro h
      exact ⟨a, rfl, h⟩
    · rintro ⟨a', h, hf⟩
      cases h
      exact hf

theorem bind_ok {x : Except ε α} {f : α → Except ε β} {b : β} (h : (x >>= f) = .ok b) :
    ∃ a, x = .ok a ∧ f a = .ok b :=
  bind_ok_iff.mp h

theorem bind_intro {x : Except ε α} {f : α → Except ε β} {a : α} {r : Except ε β}
    (hx : x = .ok a) (hf : f a = r) : (x >>= f) = r := by
  rw [hx]
  exact hf

theorem of_map_ok {x : Except ε α} {f : α → β} {b : β} (h : x.map f = .ok b) :
    ∃ a, x = .ok a ∧ f a = b := by
  cases x with
  | error e => cases h
  | ok a => exact ⟨a, rfl, Except.ok.inj h⟩

theorem ok_of_mapError {ε' : Type} {x : Except ε α} {f : ε → ε'} {a : α}
    (h : x.mapError f = .ok a) : x = .ok a := by
  cases x with
  | error e => cases h
  | ok b => exact congrArg Except.ok (Except.ok.inj h)

theorem mapM_ok {f : α → Except ε β} {xs : List α} {ys : List β} (h : xs.mapM f = .ok ys) :
    List.Forall₂ (fun x y => f x = .ok y) xs ys := by
  induction xs generalizing ys with
  | nil =>
    cases h
    exact .nil
  | cons x xs ih =>
    rw [List.mapM_cons] at h
    obtain ⟨y, hy, h⟩ := bind_ok h
    obtain ⟨ys', hys, h⟩ := bind_ok h
    cases h
    exact .cons hy (ih hys)

/-- Every error that leaves the computation satisfies `p`. -/
def Raises (p : ε → Prop) (x : Except ε α) : Prop := ∀ e, x = .error e → p e

variable {p : ε → Prop}

theorem raises_ok (a : α) : Raises p (.ok a : Except ε α) := by
  intro e h
  cases h

theorem raises_error_iff {e : ε} : Raises p (.error e : Except ε α) ↔ p e := by
  constructor
  · intro h
    exact h e rfl
  · intro h e' he'
    cases he'
    exact h

theorem raises_of_bind {x : Except ε α} {f : α → Except ε β} (h : Raises p (x >>= f)) :
    Raises p x := by
  cases x with
  | error e => exact raises_error_iff.mpr (h e rfl)
  | ok a => exact raises_ok a

theorem raises_bind {x : Except ε α} {f : α → Except ε β} (hx : Raises p x)
    (hf : ∀ a, x = .ok a → Raises p (f a)) : Raises p (x >>= f) := by
  cases x with
  | error e => exact raises_error_iff.mpr (hx e rfl)
  | ok a => exact hf a rfl

theorem raises_bind_iff {x : Except ε α} {f : α → Except ε β}
    (hf : ∀ a, x = .ok a → Raises p (f a)) : Raises p (x >>= f) ↔ Raises p x :=
  ⟨raises_of_bind, fun hx => raises_bind hx hf⟩

theorem raises_mapM {f : α → Except ε β} {xs : List α} (hf : ∀ x ∈ xs, Raises p (f x)) :
    Raises p (xs.mapM f) := by
  induction xs with
  | nil => exact raises_ok []
  | cons x xs ih =>
    rw [List.mapM_cons]
    apply raises_bind (hf x List.mem_cons_self)
    intro y _
    apply raises_bind (ih fun x' hx' => hf x' (List.mem_cons_of_mem x hx'))
    intro ys _
    exact raises_ok (y :: ys)

theorem mapM_error {f : α → Except ε β} {xs : List α} {e : ε} (h : xs.mapM f = .error e) :
    ∃ x ∈ xs, f x = .error e := by
  have hraises : Raises (fun e => ∃ x ∈ xs, f x = .error e) (xs.mapM f) :=
    raises_mapM fun x hx e he => ⟨x, hx, he⟩
  exact hraises e h

end Except
