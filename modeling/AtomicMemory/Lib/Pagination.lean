import Mathlib.Data.List.Forall2
import Mathlib.Order.Lattice

-- A reader that asks for page after page, each of which comes with a cursor for the next one
-- unless it is the last.

namespace Pagination

universe u v w x

variable {ε : Type u} {α : Type v} {β : Type w} {γ : Type x}

/-- The pages a reader gets from request `i` on. It stops at a page without a cursor, and it
has no result when `fuel` requests were not enough. -/
def collect (fetch : ℕ → Option γ → Except ε (List β × Option γ)) :
    ℕ → ℕ → Option γ → Option (Except ε (List (List β)))
  | 0, _, _ => none
  | fuel + 1, i, cursor =>
    match fetch i cursor with
    | .error e => some (.error e)
    | .ok (page, none) => some (.ok [page])
    | .ok (page, some next) => (collect fetch fuel (i + 1) (some next)).map (·.map (page :: ·))

/-- From request `i` on the reader gets these pages and then no cursor. -/
def Ends (fetch : ℕ → Option γ → Except ε (List β × Option γ)) (i : ℕ) (cursor : Option γ)
    (pages : List (List β)) : Prop :=
  ∃ n, ∀ fuel ≥ n, collect fetch fuel i cursor = some (.ok pages)

/-- The reader comes to an end, and what it got are the rows, in order. -/
def Complete (fetch : ℕ → Option γ → Except ε (List β × Option γ)) (R : α → β → Prop)
    (rows : List α) : Prop :=
  ∃ pages, Ends fetch 0 none pages ∧ List.Forall₂ R rows pages.flatten

variable {fetch : ℕ → Option γ → Except ε (List β × Option γ)} {i : ℕ} {cursor : Option γ}
  {page : List β} {pages : List (List β)}

theorem ends_last (h : fetch i cursor = .ok (page, none)) :
    Ends fetch i cursor pages ↔ pages = [page] := by
  have hcollect (fuel : ℕ) : collect fetch (fuel + 1) i cursor = some (.ok [page]) := by
    rw [collect, h]
  constructor
  · rintro ⟨n, hn⟩
    have heq := (hcollect n).symm.trans (hn (n + 1) (Nat.le_succ n))
    exact (Except.ok.inj (Option.some.inj heq)).symm
  · rintro rfl
    refine ⟨1, fun fuel hfuel => ?_⟩
    obtain ⟨m, rfl⟩ := Nat.exists_eq_add_of_le' hfuel
    exact hcollect m

theorem ends_next {next : γ} (h : fetch i cursor = .ok (page, some next)) :
    Ends fetch i cursor pages ↔
      ∃ rest, pages = page :: rest ∧ Ends fetch (i + 1) (some next) rest := by
  have hcollect (fuel : ℕ) : collect fetch (fuel + 1) i cursor =
      (collect fetch fuel (i + 1) (some next)).map (·.map (page :: ·)) := by
    rw [collect, h]
  constructor
  · rintro ⟨n, hn⟩
    have hstep (fuel : ℕ) (hfuel : fuel ≥ n) :
        ∃ rest, collect fetch fuel (i + 1) (some next) = some (.ok rest) ∧
          page :: rest = pages := by
      have heq := (hcollect fuel).symm.trans (hn (fuel + 1) (Nat.le_succ_of_le hfuel))
      obtain ⟨result, hresult, hmap⟩ := Option.map_eq_some_iff.mp heq
      cases result with
      | error e => cases hmap
      | ok rest => exact ⟨rest, hresult, Except.ok.inj hmap⟩
    obtain ⟨rest, -, hrest⟩ := hstep n le_rfl
    refine ⟨rest, hrest.symm, n, fun fuel hfuel => ?_⟩
    obtain ⟨rest', hcollected, hrest'⟩ := hstep fuel hfuel
    rw [hcollected, List.cons_inj_right _ |>.mp (hrest'.trans hrest.symm)]
  · rintro ⟨rest, rfl, n, hn⟩
    refine ⟨n + 1, fun fuel hfuel => ?_⟩
    obtain ⟨m, rfl⟩ := Nat.exists_eq_add_of_le' (Nat.le_of_add_left_le hfuel)
    rw [hcollect, hn m (by omega)]
    rfl

/-- A source whose pages are windows on the rows. `At i o cursor` says that request `i` with
this cursor is one for the rows from `o` on: its page holds the next of them, and there is a
cursor for what follows unless nothing does. -/
def Windowed (fetch : ℕ → Option γ → Except ε (List β × Option γ)) (R : α → β → Prop)
    (rows : List α) (At : ℕ → ℕ → Option γ → Prop) : Prop :=
  ∀ i o cursor, At i o cursor → o ≤ rows.length → ∃ page next,
    fetch i cursor = .ok (page, next) ∧
    List.Forall₂ R ((rows.drop o).take page.length) page ∧
    (next = none → rows.length ≤ o + page.length) ∧
    ∀ c, next = some c → 0 < page.length ∧ At (i + 1) (o + page.length) (some c)

variable {R : α → β → Prop} {rows : List α} {At : ℕ → ℕ → Option γ → Prop}

theorem Windowed.ends (h : Windowed fetch R rows At) {o : ℕ} (hat : At i o cursor)
    (ho : o ≤ rows.length) :
    ∃ pages, Ends fetch i cursor pages ∧ List.Forall₂ R (rows.drop o) pages.flatten := by
  -- every page but the last brings the offset closer to the end
  induction hm : rows.length - o using Nat.strong_induction_on generalizing i o cursor with
  | _ m ih =>
    subst hm
    obtain ⟨page, next, hfetch, hpage, hlast, hnext⟩ := h i o cursor hat ho
    have hlength := hpage.length_eq
    rw [List.length_take, List.length_drop] at hlength
    cases next with
    | none =>
      refine ⟨[page], (ends_last hfetch).mpr rfl, ?_⟩
      have hall : (rows.drop o).length ≤ page.length := by
        have := hlast rfl
        rw [List.length_drop]
        omega
      rw [List.take_of_length_le hall] at hpage
      simpa using hpage
    | some c =>
      obtain ⟨hpos, hat'⟩ := hnext c rfl
      obtain ⟨rest, hends, hrest⟩ := ih (rows.length - (o + page.length)) (by omega) hat'
        (by omega) rfl
      refine ⟨page :: rest, (ends_next hfetch).mpr ⟨rest, rfl, hends⟩, ?_⟩
      rw [← List.take_append_drop page.length (rows.drop o), List.drop_drop]
      exact List.rel_append hpage hrest

theorem Windowed.complete (h : Windowed fetch R rows At) (hat : At 0 0 none) :
    Complete fetch R rows :=
  h.ends hat (Nat.zero_le _)

end Pagination
