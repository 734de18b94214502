import Mathlib.Data.Nat.Notation
import Mathlib.Tactic.Common

-- A `while` loop as the round it repeats: a round goes on in a new state or leaves the loop with a
-- result.

namespace Loop

variable {σ β : Type*} {round : σ → σ ⊕ β}

/-- The states in which the rounds began, and the result, unless `fuel` rounds were not enough. -/
def run (round : σ → σ ⊕ β) : ℕ → σ → Option (List σ × β)
  | 0, _ => none
  | fuel + 1, s =>
    match round s with
    | .inr b => some ([s], b)
    | .inl s' => (run round fuel s').map fun r => (s :: r.1, r.2)

/-- From this state the loop goes through these states and ends with this result. -/
inductive Ends (round : σ → σ ⊕ β) : σ → List σ → β → Prop
  | last {s : σ} {b : β} (h : round s = .inr b) : Ends round s [s] b
  | next {s s' : σ} {trace : List σ} {b : β} (h : round s = .inl s')
      (hrest : Ends round s' trace b) : Ends round s (s :: trace) b

theorem Ends.run_eq {s : σ} {trace : List σ} {b : β} (h : Ends round s trace b) {fuel : ℕ}
    (hfuel : trace.length ≤ fuel) : run round fuel s = some (trace, b) := by
  induction h generalizing fuel with
  | last h =>
    obtain ⟨fuel, rfl⟩ := Nat.exists_eq_succ_of_ne_zero (Nat.ne_of_gt hfuel)
    rw [run, h]
  | next h _ ih =>
    obtain ⟨fuel, rfl⟩ := Nat.exists_eq_succ_of_ne_zero (Nat.ne_of_gt (Nat.lt_of_lt_of_le
      (Nat.succ_pos _) hfuel))
    rw [run, h]
    dsimp only
    rw [ih (Nat.le_of_succ_le_succ hfuel)]
    rfl

/-- A loop ends when every round that goes on keeps the invariant and lowers the variant. -/
theorem exists_ends (inv : σ → Prop) (variant : σ → ℕ)
    (hround : ∀ s s', inv s → round s = .inl s' → inv s' ∧ variant s' < variant s) {s : σ}
    (hs : inv s) : ∃ trace b, Ends round s trace b ∧ trace.length ≤ variant s + 1 := by
  induction hn : variant s using Nat.strongRecOn generalizing s with
  | ind n ih =>
    subst hn
    cases h : round s with
    | inr b => exact ⟨[s], b, .last h, Nat.succ_le_succ (Nat.zero_le _)⟩
    | inl s' =>
      obtain ⟨hs', hlt⟩ := hround s s' hs h
      obtain ⟨trace, b, hends, hlength⟩ := ih (variant s') hlt hs' rfl
      refine ⟨s :: trace, b, .next h hends, ?_⟩
      rw [List.length_cons]
      exact Nat.succ_le_succ (Nat.le_trans hlength hlt)

end Loop
