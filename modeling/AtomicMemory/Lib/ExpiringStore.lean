import Mathlib.Order.Lattice
import Mathlib.Data.Option.Basic
import Mathlib.Logic.Function.Basic

-- A store gives each key at most one entry, and an entry may have a deadline. Nothing removes
-- an entry when its deadline is reached: it is stale, and stays until somebody collects it.

structure ExpiringEntry (ν τ : Type*) where
  value : ν
  expiresAt : Option τ

namespace ExpiringEntry

variable {ν τ : Type*} [LinearOrder τ]

def stale (now : τ) (entry : ExpiringEntry ν τ) : Bool :=
  match entry.expiresAt with
  | some deadline => decide (deadline ≤ now)
  | none => false

theorem stale_iff {now : τ} {entry : ExpiringEntry ν τ} :
    entry.stale now = true ↔ ∃ deadline, entry.expiresAt = some deadline ∧ deadline ≤ now := by
  unfold stale
  split
  · rename_i deadline h
    simp [h]
  · rename_i h
    simp [h]

theorem stale_mono {now later : τ} (hle : now ≤ later) {entry : ExpiringEntry ν τ}
    (h : entry.stale now = true) : entry.stale later = true := by
  obtain ⟨deadline, hdeadline, hnow⟩ := stale_iff.mp h
  exact stale_iff.mpr ⟨deadline, hdeadline, hnow.trans hle⟩

end ExpiringEntry

abbrev ExpiringStore (κ ν τ : Type*) := κ → Option (ExpiringEntry ν τ)

namespace ExpiringStore

variable {κ ν τ : Type*} [LinearOrder τ]

def live (now : τ) (s : ExpiringStore κ ν τ) : ExpiringStore κ ν τ :=
  fun key => (s key).filter fun entry => !entry.stale now

def StaleAt (now : τ) (s : ExpiringStore κ ν τ) (key : κ) : Prop :=
  ∃ entry, s key = some entry ∧ entry.stale now = true

/-- `s'` is `s` after some stale entries were collected. -/
def Collected (now : τ) (s s' : ExpiringStore κ ν τ) : Prop :=
  ∀ key, s' key = s key ∨ s' key = none ∧ s.StaleAt now key

theorem live_eq_none_of_stale {now : τ} {s : ExpiringStore κ ν τ} {key : κ}
    (h : s.StaleAt now key) : s.live now key = none := by
  obtain ⟨entry, hentry, hstale⟩ := h
  simp [live, hentry, hstale]

theorem live_eq_of_not_stale {now : τ} {s : ExpiringStore κ ν τ} {key : κ}
    (h : ¬ s.StaleAt now key) : s.live now key = s key := by
  cases hentry : s key with
  | none => simp [live, hentry]
  | some entry =>
    have hfresh : entry.stale now = false := by
      rw [Bool.eq_false_iff]
      exact fun hstale => h ⟨entry, hentry, hstale⟩
    simp [live, hentry, hfresh]

theorem StaleAt.mono {now later : τ} (hle : now ≤ later) {s : ExpiringStore κ ν τ} {key : κ}
    (h : s.StaleAt now key) : s.StaleAt later key := by
  obtain ⟨entry, hentry, hstale⟩ := h
  exact ⟨entry, hentry, ExpiringEntry.stale_mono hle hstale⟩

namespace Collected

variable {now later : τ} {s s' s'' : ExpiringStore κ ν τ}

theorem refl (now : τ) (s : ExpiringStore κ ν τ) : Collected now s s := fun _ => .inl rfl

theorem mono (hle : now ≤ later) (h : Collected now s s') : Collected later s s' := fun key =>
  (h key).imp id fun hgone => ⟨hgone.1, hgone.2.mono hle⟩

theorem trans (h : Collected now s s') (h' : Collected now s' s'') : Collected now s s'' := by
  intro key
  rcases h key with hkey | hkey
  · rcases h' key with hkey' | ⟨hnone, entry, hentry, hstale⟩
    · exact .inl (hkey'.trans hkey)
    · exact .inr ⟨hnone, entry, hkey ▸ hentry, hstale⟩
  · rcases h' key with hkey' | ⟨hnone, -⟩
    · exact .inr ⟨hkey'.trans hkey.1, hkey.2⟩
    · exact .inr ⟨hnone, hkey.2⟩

theorem live_eq (h : Collected now s s') : s'.live now = s.live now := by
  funext key
  rcases h key with hkey | ⟨hnone, hstale⟩
  · rw [live, live, hkey]
  · rw [live_eq_none_of_stale hstale, live, hnone, Option.filter_none]

theorem eq_of_not_stale (h : Collected now s s') {key : κ} (hfresh : ¬ s.StaleAt now key) :
    s' key = s key := (h key).resolve_right fun hgone => hfresh hgone.2

theorem collect_live (now : τ) (s : ExpiringStore κ ν τ) : Collected now s (s.live now) := by
  intro key
  by_cases hstale : s.StaleAt now key
  · exact .inr ⟨live_eq_none_of_stale hstale, hstale⟩
  · exact .inl (live_eq_of_not_stale hstale)

theorem update [DecidableEq κ] (h : Collected now s s') (key : κ)
    (entry : Option (ExpiringEntry ν τ)) :
    Collected now (Function.update s key entry) (Function.update s' key entry) := by
  intro other
  by_cases hother : other = key
  · subst hother
    left
    rw [Function.update_self, Function.update_self]
  · rw [StaleAt, Function.update_of_ne hother, Function.update_of_ne hother]
    exact h other

end Collected

end ExpiringStore
