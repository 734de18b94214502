import Mathlib.Data.List.Basic
import Mathlib.Logic.Relation

-- A machine is an initial state and a partial step function on labels. An
-- execution keeps its history, so that a property of the states visited can be
-- compared with a guard on the steps taken.

/-- `step s l = none` means that label `l` is not enabled in `s`. -/
structure Machine (σ ℓ : Type*) where
  init : σ
  step : σ → ℓ → Option σ

namespace Machine

variable {σ ℓ : Type*} (M : Machine σ ℓ)

/-- `M.Execution h s`: the steps of `h`, newest first and each with the state it
left, lead from the initial state to `s`. -/
inductive Execution : List (σ × ℓ) → σ → Prop
  | start : Execution [] M.init
  | next {h s l s'} : Execution h s → M.step s l = some s' → Execution ((s, l) :: h) s'

def Reachable (s : σ) : Prop := ∃ h, M.Execution h s

/-- Reachable by steps that all meet `guard`. -/
def ReachableBy (guard : σ → ℓ → Prop) (s : σ) : Prop :=
  ∃ h, M.Execution h s ∧ ∀ p ∈ h, guard p.1 p.2

/-- One step that meets `guard`. -/
def Next (guard : σ → ℓ → Prop) (s s' : σ) : Prop :=
  ∃ l, guard s l ∧ M.step s l = some s'

/-- Any number of steps that all meet `guard`. -/
def Leads (guard : σ → ℓ → Prop) : σ → σ → Prop := Relation.ReflTransGen (M.Next guard)

/-- `P` holds in every state of an execution, the last one included. -/
def Always (P : σ → Prop) (h : List (σ × ℓ)) (s : σ) : Prop := P s ∧ ∀ p ∈ h, P p.1

def exec (ls : List ℓ) : Option σ := ls.foldlM M.step M.init

def record (ls : List ℓ) : Option (List (σ × ℓ) × σ) :=
  ls.foldlM (fun p l => (M.step p.2 l).map fun s' => ((p.2, l) :: p.1, s')) ([], M.init)

variable {M}

theorem ReachableBy.start (guard : σ → ℓ → Prop) : M.ReachableBy guard M.init :=
  ⟨[], .start, by simp⟩

theorem ReachableBy.next {guard : σ → ℓ → Prop} {s s' : σ} {l : ℓ}
    (h : M.ReachableBy guard s) (hg : guard s l) (hs : M.step s l = some s') :
    M.ReachableBy guard s' := by
  obtain ⟨h, hex, hall⟩ := h
  refine ⟨(s, l) :: h, hex.next hs, ?_⟩
  simpa only [List.mem_cons, forall_eq_or_imp] using ⟨hg, hall⟩

theorem ReachableBy.leads {guard : σ → ℓ → Prop} {s s' : σ}
    (h : M.ReachableBy guard s) (hl : M.Leads guard s s') : M.ReachableBy guard s' := by
  induction hl with
  | refl => exact h
  | tail _ hn ih =>
    obtain ⟨l, hg, hs⟩ := hn
    exact ih.next hg hs

theorem ReachableBy.invariant {guard : σ → ℓ → Prop} {I : σ → Prop} (init : I M.init)
    (step : ∀ s l s', I s → guard s l → M.step s l = some s' → I s')
    {s : σ} (h : M.ReachableBy guard s) : I s := by
  obtain ⟨h, hex, hall⟩ := h
  induction hex with
  | start => exact init
  | next _ hs ih =>
    simp only [List.mem_cons, forall_eq_or_imp] at hall
    exact step _ _ _ (ih hall.2) hall.1 hs

theorem Reachable.invariant {I : σ → Prop} (init : I M.init)
    (step : ∀ s l s', I s → M.step s l = some s' → I s') {s : σ} (h : M.Reachable s) : I s := by
  obtain ⟨h, hex⟩ := h
  induction hex with
  | start => exact init
  | next _ hs ih => exact step _ _ _ ih hs

theorem Reachable.next {s s' : σ} {l : ℓ} (h : M.Reachable s) (hs : M.step s l = some s') :
    M.Reachable s' := by
  obtain ⟨h, hex⟩ := h
  exact ⟨_, hex.next hs⟩

theorem Leads.invariant {guard : σ → ℓ → Prop} {I : σ → Prop}
    (step : ∀ s l s', I s → guard s l → M.step s l = some s' → I s')
    {s s' : σ} (h : M.Leads guard s s') (hs : I s) : I s' := by
  induction h with
  | refl => exact hs
  | tail _ hn ih =>
    obtain ⟨l, hg, hst⟩ := hn
    exact step _ _ _ ih hg hst

theorem Execution.always (guard : σ → ℓ → Prop) {I : σ → Prop} (init : I M.init)
    (step : ∀ s l s', I s → guard s l → M.step s l = some s' → I s')
    {h : List (σ × ℓ)} {s : σ} (hex : M.Execution h s) (hall : ∀ p ∈ h, guard p.1 p.2) :
    Always I h s := by
  induction hex with
  | start => exact ⟨init, by simp⟩
  | next _ hs ih =>
    simp only [List.mem_cons, forall_eq_or_imp] at hall
    obtain ⟨hlast, hprev⟩ := ih hall.2
    refine ⟨step _ _ _ hlast hall.1 hs, ?_⟩
    simpa only [List.mem_cons, forall_eq_or_imp] using ⟨hlast, hprev⟩

/-- When a guarded step keeps the property and an unguarded step breaks it at
once, the property holds throughout exactly in the executions that meet the guard. -/
theorem Execution.always_iff {guard : σ → ℓ → Prop} {P : σ → Prop} (init : P M.init)
    (keeps : ∀ s l s', P s → guard s l → M.step s l = some s' → P s')
    (breaks : ∀ s l s', P s → ¬ guard s l → M.step s l = some s' → ¬ P s')
    {h : List (σ × ℓ)} {s : σ} (hex : M.Execution h s) :
    Always P h s ↔ ∀ p ∈ h, guard p.1 p.2 := by
  refine ⟨fun hP => ?_, hex.always guard init keeps⟩
  induction hex with
  | start => simp
  | next _ hs ih =>
    obtain ⟨hlast, hprev⟩ := hP
    simp only [List.mem_cons, forall_eq_or_imp] at hprev ⊢
    refine ⟨?_, ih hprev⟩
    by_contra hg
    exact breaks _ _ _ hprev.1 hg hs hlast

/-- `P` holds at every point of an execution, of the steps taken so far and the state they
led to. -/
def Throughout (P : List (σ × ℓ) → σ → Prop) : List (σ × ℓ) → σ → Prop
  | [], s => P [] s
  | (s', l) :: h, s => P ((s', l) :: h) s ∧ Throughout P h s'

theorem Throughout.last {P : List (σ × ℓ) → σ → Prop} {h : List (σ × ℓ)} {s : σ}
    (hP : Throughout P h s) : P h s := by
  cases h with
  | nil => exact hP
  | cons p h => exact hP.1

theorem Throughout.imp {P Q : List (σ × ℓ) → σ → Prop} (h : ∀ h s, P h s → Q h s)
    {history : List (σ × ℓ)} {s : σ} (hP : Throughout P history s) :
    Throughout Q history s := by
  induction history generalizing s with
  | nil => exact h _ _ hP
  | cons p history ih => exact ⟨h _ _ hP.1, ih hP.2⟩

theorem Execution.throughout {guard : σ → ℓ → Prop} {P : List (σ × ℓ) → σ → Prop}
    (init : P [] M.init)
    (keeps : ∀ h s l s', P h s → guard s l → M.step s l = some s' → P ((s, l) :: h) s')
    {h : List (σ × ℓ)} {s : σ} (hex : M.Execution h s) (hall : ∀ p ∈ h, guard p.1 p.2) :
    Throughout P h s := by
  induction hex with
  | start => exact init
  | next _ hs ih =>
    simp only [List.mem_cons, forall_eq_or_imp] at hall
    have hprev := ih hall.2
    exact ⟨keeps _ _ _ _ hprev.last hall.1 hs, hprev⟩

theorem Execution.guards_of_throughout {guard : σ → ℓ → Prop} {P : List (σ × ℓ) → σ → Prop}
    (breaks : ∀ h s l s', ¬ guard s l → M.step s l = some s' → ¬ P ((s, l) :: h) s')
    {h : List (σ × ℓ)} {s : σ} (hex : M.Execution h s) (hP : Throughout P h s) :
    ∀ p ∈ h, guard p.1 p.2 := by
  induction hex with
  | start => simp
  | next _ hs ih =>
    obtain ⟨hlast, hprev⟩ := hP
    simp only [List.mem_cons, forall_eq_or_imp]
    refine ⟨?_, ih hprev⟩
    by_contra hg
    exact breaks _ _ _ _ hg hs hlast

/-- As `always_iff`, for a property of the steps taken as well. -/
theorem Execution.throughout_iff {guard : σ → ℓ → Prop} {P : List (σ × ℓ) → σ → Prop}
    (init : P [] M.init)
    (keeps : ∀ h s l s', M.Execution h s → P h s → guard s l → M.step s l = some s' →
      P ((s, l) :: h) s')
    (breaks : ∀ h s l s', M.Execution h s → P h s → ¬ guard s l → M.step s l = some s' →
      ¬ P ((s, l) :: h) s')
    {h : List (σ × ℓ)} {s : σ} (hex : M.Execution h s) :
    Throughout P h s ↔ ∀ p ∈ h, guard p.1 p.2 := by
  induction hex with
  | start => exact ⟨fun _ => by simp, fun _ => init⟩
  | next hex hs ih =>
    simp only [List.mem_cons, forall_eq_or_imp]
    constructor
    · rintro ⟨hlast, hprev⟩
      refine ⟨?_, ih.mp hprev⟩
      by_contra hg
      exact breaks _ _ _ _ hex hprev.last hg hs hlast
    · rintro ⟨hg, hall⟩
      have hprev := ih.mpr hall
      exact ⟨keeps _ _ _ _ hex hprev.last hg hs, hprev⟩

theorem foldlM_reachable (ls : List ℓ) {s s' : σ} (hs : M.Reachable s)
    (h : ls.foldlM M.step s = some s') : M.Reachable s' := by
  induction ls generalizing s with
  | nil => simpa using (show s = s' by simpa using h) ▸ hs
  | cons l ls ih =>
    rw [List.foldlM_cons] at h
    obtain ⟨t, ht, hrest⟩ := Option.bind_eq_some_iff.mp h
    exact ih (hs.next ht) hrest

theorem reachable_exec (ls : List ℓ) {s : σ} (h : M.exec ls = some s) : M.Reachable s :=
  foldlM_reachable ls ⟨[], .start⟩ h

theorem foldlM_reachableBy {guard : σ → ℓ → Prop} (ls : List ℓ) (hg : ∀ s, ∀ l ∈ ls, guard s l)
    {s s' : σ} (hs : M.ReachableBy guard s) (h : ls.foldlM M.step s = some s') :
    M.ReachableBy guard s' := by
  induction ls generalizing s with
  | nil => simpa using (show s = s' by simpa using h) ▸ hs
  | cons l ls ih =>
    rw [List.foldlM_cons] at h
    obtain ⟨t, ht, hrest⟩ := Option.bind_eq_some_iff.mp h
    exact ih (fun s l hl => hg s l (List.mem_cons_of_mem _ hl))
      (hs.next (hg s l List.mem_cons_self) ht) hrest

theorem reachableBy_exec (guard : σ → ℓ → Prop) (ls : List ℓ) {s : σ}
    (hg : ∀ s, ∀ l ∈ ls, guard s l) (h : M.exec ls = some s) : M.ReachableBy guard s :=
  foldlM_reachableBy ls hg (.start guard) h

theorem execution_foldlM (ls : List ℓ) {p q : List (σ × ℓ) × σ} (hp : M.Execution p.1 p.2)
    (h : ls.foldlM (fun p l => (M.step p.2 l).map fun s' => ((p.2, l) :: p.1, s')) p = some q) :
    M.Execution q.1 q.2 := by
  induction ls generalizing p with
  | nil => simpa using (show p = q by simpa using h) ▸ hp
  | cons l ls ih =>
    rw [List.foldlM_cons] at h
    obtain ⟨t, ht, hrest⟩ := Option.bind_eq_some_iff.mp h
    obtain ⟨s', hs', rfl⟩ := Option.map_eq_some_iff.mp ht
    exact ih (hp.next hs') hrest

theorem execution_record (ls : List ℓ) {h : List (σ × ℓ)} {s : σ}
    (hrecord : M.record ls = some (h, s)) : M.Execution h s :=
  execution_foldlM ls .start hrecord

end Machine
