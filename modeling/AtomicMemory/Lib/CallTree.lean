import AtomicMemory.Lib.Coroutine

-- A program whose calls are answered from outside, and the traces of its calls and their
-- answers. A call may also be a coroutine that the program awaits.

universe u v w

/-- It has ended, or it makes a call and goes on with the answer. -/
inductive CallTree (κ : Type u) (ρ : κ → Type v) (α : Type w)
  | ends (result : α)
  | calls (call : κ) (next : ρ call → CallTree κ ρ α)

namespace CallTree

section

variable {κ : Type u} {ρ : κ → Type v} {α β : Type w}

def bind (f : α → CallTree κ ρ β) : CallTree κ ρ α → CallTree κ ρ β
  | ends a => f a
  | calls c next => calls c fun r => bind f (next r)

inductive Runs : CallTree κ ρ α → List (Sigma ρ) → α → Prop
  | ends (a : α) : Runs (ends a) [] a
  | calls {c : κ} {r : ρ c} {next : ρ c → CallTree κ ρ α} {trace : List (Sigma ρ)} {a : α}
      (h : Runs (next r) trace a) : Runs (calls c next) (⟨c, r⟩ :: trace) a

@[simp] theorem runs_ends_iff {trace : List (Sigma ρ)} {a b : α} :
    (ends a : CallTree κ ρ α).Runs trace b ↔ trace = [] ∧ b = a := by
  constructor
  · intro h
    cases h
    exact ⟨rfl, rfl⟩
  · rintro ⟨rfl, rfl⟩
    exact .ends b

@[simp] theorem runs_calls_iff {c : κ} {next : ρ c → CallTree κ ρ α} {trace : List (Sigma ρ)}
    {a : α} : (calls c next).Runs trace a ↔
      ∃ r rest, trace = ⟨c, r⟩ :: rest ∧ (next r).Runs rest a := by
  constructor
  · intro h
    cases h with
    | calls h => exact ⟨_, _, rfl, h⟩
  · rintro ⟨r, rest, rfl, h⟩
    exact .calls h

theorem runs_bind_iff {t : CallTree κ ρ α} {f : α → CallTree κ ρ β} {trace : List (Sigma ρ)}
    {b : β} : (t.bind f).Runs trace b ↔
      ∃ before after a, trace = before ++ after ∧ t.Runs before a ∧ (f a).Runs after b := by
  induction t generalizing trace with
  | ends a =>
    constructor
    · intro h
      exact ⟨[], trace, a, rfl, .ends a, h⟩
    · rintro ⟨before, after, a', rfl, hfirst, hrest⟩
      cases hfirst
      exact hrest
  | calls c next ih =>
    constructor
    · intro h
      obtain ⟨r, rest, rfl, hnext⟩ := runs_calls_iff.mp h
      obtain ⟨before, after, a, rfl, hfirst, hrest⟩ := (ih r).mp hnext
      exact ⟨⟨c, r⟩ :: before, after, a, rfl, .calls hfirst, hrest⟩
    · rintro ⟨before, after, a, rfl, hfirst, hrest⟩
      obtain ⟨r, before, rfl, hnext⟩ := runs_calls_iff.mp hfirst
      exact .calls ((ih r).mpr ⟨before, after, a, rfl, hnext, hrest⟩)

/-- The run in which `answer`, told the calls before, answers every call; with the trace. -/
def perform (answer : List (Sigma ρ) → (c : κ) → ρ c) :
    CallTree κ ρ α → List (Sigma ρ) → List (Sigma ρ) × α
  | ends a, _ => ([], a)
  | calls c next, before =>
    let r := answer before c
    let run := perform answer (next r) (before ++ [⟨c, r⟩])
    (⟨c, r⟩ :: run.1, run.2)

theorem runs_perform (answer : List (Sigma ρ) → (c : κ) → ρ c) (t : CallTree κ ρ α)
    (before : List (Sigma ρ)) :
    t.Runs (t.perform answer before).1 (t.perform answer before).2 := by
  induction t generalizing before with
  | ends a => exact .ends a
  | calls c next ih => exact .calls (ih _ _)

/-- `answer` answers the calls of the trace as they are answered there. -/
def Agrees (answer : List (Sigma ρ) → (c : κ) → ρ c) :
    List (Sigma ρ) → List (Sigma ρ) → Prop
  | _, [] => True
  | before, ⟨c, r⟩ :: rest => answer before c = r ∧ Agrees answer (before ++ [⟨c, r⟩]) rest

theorem Runs.perform_eq {answer : List (Sigma ρ) → (c : κ) → ρ c} {t : CallTree κ ρ α}
    {before trace : List (Sigma ρ)} {a : α} (h : t.Runs trace a)
    (hagrees : Agrees answer before trace) : t.perform answer before = (trace, a) := by
  induction h generalizing before with
  | ends a => rfl
  | calls h ih =>
    obtain ⟨hanswer, hrest⟩ := hagrees
    simp only [perform, hanswer, ih hrest]

end

section

variable {κ : Type u} {ε : Type v} {σ : κ → Type v} {α : Type w}

/-- The run in which every call is a coroutine that the program awaits: a resumption of the
program resumes the call. `none` when it is still suspended after the last. -/
def drive (start : List (Sigma fun c => Except ε (σ c)) → (c : κ) → Coroutine ε (σ c)) :
    CallTree κ (fun c => Except ε (σ c)) α → List (Option ε) →
      List (Sigma fun c => Except ε (σ c)) → Option (List (Sigma fun c => Except ε (σ c)) × α)
  | ends a, _, _ => some ([], a)
  | calls c next, resumptions, before =>
    match (start before c).finish resumptions with
    | none => none
    | some (r, rest) =>
      (drive start (next r) rest (before ++ [⟨c, r⟩])).map fun run => (⟨c, r⟩ :: run.1, run.2)

theorem runs_of_drive {start : List (Sigma fun c => Except ε (σ c)) → (c : κ) → Coroutine ε (σ c)}
    {t : CallTree κ (fun c => Except ε (σ c)) α} {resumptions : List (Option ε)}
    {before trace : List (Sigma fun c => Except ε (σ c))} {a : α}
    (h : t.drive start resumptions before = some (trace, a)) : t.Runs trace a := by
  induction t generalizing resumptions before trace with
  | ends b =>
    cases h
    exact .ends _
  | calls c next ih =>
    unfold drive at h
    split at h
    · cases h
    · obtain ⟨run, hrun, heq⟩ := Option.map_eq_some_iff.mp h
      cases heq
      exact .calls (ih _ hrun)

def Completes (start : List (Sigma fun c => Except ε (σ c)) → (c : κ) → Coroutine ε (σ c))
    (answer : List (Sigma fun c => Except ε (σ c)) → (c : κ) → Except ε (σ c)) : Prop :=
  ∀ before c, ∃ resumptions, ∀ rest,
    (start before c).finish (resumptions ++ rest) = some (answer before c, rest)

theorem drive_of_completes
    {start : List (Sigma fun c => Except ε (σ c)) → (c : κ) → Coroutine ε (σ c)}
    {answer : List (Sigma fun c => Except ε (σ c)) → (c : κ) → Except ε (σ c)}
    (h : Completes start answer) (t : CallTree κ (fun c => Except ε (σ c)) α)
    (before : List (Sigma fun c => Except ε (σ c))) :
    ∃ resumptions, t.drive start resumptions before = some (t.perform answer before) := by
  induction t generalizing before with
  | ends a => exact ⟨[], rfl⟩
  | calls c next ih =>
    obtain ⟨first, hfirst⟩ := h before c
    obtain ⟨rest, hrest⟩ := ih (answer before c) (before ++ [⟨c, answer before c⟩])
    refine ⟨first ++ rest, ?_⟩
    simp only [drive, hfirst, hrest]
    rfl

end

end CallTree
