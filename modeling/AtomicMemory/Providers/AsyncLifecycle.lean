import AtomicMemory.Core.Errors
import AtomicMemory.Lib.Machine

-- `initialize` and `close` of `AsyncAtomicMemoryProvider`, `AsyncMem0Provider` and
-- `AsyncHindsightProvider`, in any interleaving at their awaits. Only `close` awaits anything:
-- `aclose()` of its HTTP client.

namespace AtomicMemory.AsyncProviderLifecycle

abbrev ClientId := ℕ

/-- A call of `close()` that has begun. -/
inductive CloseCall
  | awaiting (client : ClientId)
  | finished (outcome : Outcome)

/-- `_client`, the client that `_handle` was made with, `_initialized`; the number of HTTP
clients made, those that `aclose()` was called on, and the calls of `close()`. -/
structure Provider where
  client : Option ClientId
  handle : Option ClientId
  initialized : Bool
  created : ℕ
  closed : List ClientId
  closes : List CloseCall

def Provider.new : Provider := ⟨none, none, false, 0, [], []⟩

/-- `initialize` of the three providers; only the first has a handle. -/
def initializeProvider (hasHandle : Bool) (p : Provider) : Provider :=
  let client := p.client.getD p.created
  { p with
    client := some client
    handle := if hasHandle then some (p.handle.getD client) else p.handle
    initialized := true
    created := if p.client.isSome then p.created else p.created + 1 }

/-- `close` up to its await; `aclose()` marks its client as closed at once. -/
def beginClose (p : Provider) : Provider :=
  match p.client with
  | none =>
    { p with handle := none, initialized := false, closes := p.closes ++ [.finished .returned] }
  | some client =>
    { p with
      handle := none
      closed := p.closed ++ [client]
      closes := p.closes ++ [.awaiting client] }

/-- The rest of `close`, when `aclose()` returns or raises; a cancellation raises there too. -/
def finishClose (p : Provider) (i : ℕ) (outcome : Outcome) : Option Provider :=
  match p.closes[i]? with
  | some (.awaiting _) =>
    let closes := p.closes.set i (.finished outcome)
    match outcome with
    | .returned => some { p with client := none, initialized := false, closes }
    | .raised _ => some { p with closes }
  | _ => none

inductive Label
  | callInitialize
  | callClose
  | acloseEnds (i : ℕ) (outcome : Outcome)

def step (hasHandle : Bool) (p : Provider) : Label → Option Provider
  | .callInitialize => some (initializeProvider hasHandle p)
  | .callClose => some (beginClose p)
  | .acloseEnds i outcome => finishClose p i outcome

def machine (hasHandle : Bool) : Machine Provider Label := ⟨.new, step hasHandle⟩

/-- `AsyncAtomicMemoryProvider`. `AsyncMem0Provider`, and `AsyncHindsightProvider`, whose handles
keep no client, are `machine false`. -/
def atomicMemory : Machine Provider Label := machine true

/-- Some call of `close()` awaits its client. -/
def Provider.Closing (p : Provider) : Prop := ∃ client, CloseCall.awaiting client ∈ p.closes

/-- Requests go out on a client that is open and that no `close()` is about to drop; those of
the handle go out on the same client. -/
def Live (hasHandle : Bool) (p : Provider) : Prop :=
  ∃ client, p.client = some client ∧ client ∉ p.closed ∧ p.initialized = true ∧
    (hasHandle = true → p.handle = some client) ∧ ¬ p.Closing

/-- The last call of the two was of `initialize()`. -/
def Opened : List (Provider × Label) → Prop
  | [] => False
  | (_, .callInitialize) :: _ => True
  | (_, .callClose) :: _ => False
  | (_, .acloseEnds _ _) :: history => Opened history

/-- `initialize()` is not called while a `close()` is under way, nor when one has failed and
left its client in place. -/
def Undisturbed (p : Provider) (l : Label) : Prop :=
  l = .callInitialize → ¬ p.Closing ∧ ∀ client, p.client = some client → client ∉ p.closed

def NoLeak (p : Provider) : Prop :=
  ∀ client < p.created, client ∈ p.closed ∨ p.client = some client

theorem awaiting_of_set {closes : List CloseCall} {i : ℕ} {outcome : Outcome} {client : ClientId}
    (h : CloseCall.awaiting client ∈ closes.set i (.finished outcome)) :
    CloseCall.awaiting client ∈ closes := by
  rcases List.mem_or_eq_of_mem_set h with h | h
  · exact h
  · cases h

structure Consistent (hasHandle : Bool) (history : List (Provider × Label)) (p : Provider) :
    Prop where
  live : Opened history → Live hasHandle p
  handle_opened : p.handle ≠ none → Opened history
  initialized_iff : p.initialized = true ↔ p.client ≠ none
  client_created : ∀ client, p.client = some client → client < p.created
  closed_created : ∀ client ∈ p.closed, client < p.created
  awaited : ∀ client, .awaiting client ∈ p.closes →
    client ∈ p.closed ∧ (p.client = none ∨ p.client = some client)
  noLeak : NoLeak p

theorem consistent_new (hasHandle : Bool) : Consistent hasHandle [] .new where
  live h := h.elim
  handle_opened h := (h rfl).elim
  initialized_iff := by simp [Provider.new]
  client_created client h := by cases h
  closed_created client h := by cases h
  awaited client h := by cases h
  noLeak client h := absurd h (Nat.not_lt_zero client)

variable {hasHandle : Bool} {history : List (Provider × Label)} {p p' : Provider}

theorem Consistent.handle_eq_none (hc : Consistent hasHandle history p) (h : p.client = none) :
    p.handle = none := by
  by_contra hne
  obtain ⟨client, hclient, -⟩ := hc.live (hc.handle_opened hne)
  rw [h] at hclient
  cases hclient

/-- The client of the provider after `initialize()`, and that of its handle. -/
theorem Consistent.live_initializeProvider (hc : Consistent hasHandle history p)
    (hu : Undisturbed p .callInitialize) : Live hasHandle (initializeProvider hasHandle p) := by
  obtain ⟨hclosing, hopen⟩ := hu rfl
  cases hclient : p.client with
  | none =>
    refine ⟨p.created, ?_, fun h => absurd (hc.closed_created _ h) (Nat.lt_irrefl _), rfl,
      fun hh => ?_, hclosing⟩
    · rw [initializeProvider, hclient]
      rfl
    · rw [initializeProvider, hclient, hc.handle_eq_none hclient, if_pos hh]
      rfl
  | some client =>
    refine ⟨client, ?_, hopen client hclient, rfl, fun hh => ?_, hclosing⟩
    · rw [initializeProvider, hclient]
      rfl
    · rw [initializeProvider, hclient, if_pos hh]
      cases hhandle : p.handle with
      | none => rfl
      | some held =>
        -- a handle that is still there was made with this client
        have hne : p.handle ≠ none := by
          rw [hhandle]
          exact Option.some_ne_none held
        obtain ⟨live, hlive, -, -, hheld, -⟩ := hc.live (hc.handle_opened hne)
        rw [hheld hh] at hhandle
        rw [hclient] at hlive
        cases hlive
        cases hhandle
        rfl

theorem Consistent.initializeProvider (hc : Consistent hasHandle history p)
    (hu : Undisturbed p .callInitialize) :
    Consistent hasHandle ((p, .callInitialize) :: history) (initializeProvider hasHandle p) := by
  obtain ⟨hclosing, -⟩ := hu rfl
  have hcreated : p.created ≤ (AsyncProviderLifecycle.initializeProvider hasHandle p).created := by
    unfold AsyncProviderLifecycle.initializeProvider
    dsimp only
    split <;> omega
  constructor
  · exact fun _ => hc.live_initializeProvider hu
  · exact fun _ => trivial
  · exact iff_of_true rfl (Option.some_ne_none _)
  · intro client h
    cases hclient : p.client with
    | none =>
      rw [AsyncProviderLifecycle.initializeProvider, hclient] at h ⊢
      cases h
      exact Nat.lt_succ_self _
    | some held =>
      rw [AsyncProviderLifecycle.initializeProvider, hclient] at h ⊢
      cases h
      exact hc.client_created _ hclient
  · exact fun client h => Nat.lt_of_lt_of_le (hc.closed_created client h) hcreated
  · exact fun client h => absurd ⟨client, h⟩ hclosing
  · intro client h
    cases hclient : p.client with
    | none =>
      rw [AsyncProviderLifecycle.initializeProvider, hclient] at h ⊢
      rcases Nat.lt_succ_iff_lt_or_eq.mp h with h | rfl
      · refine .inl ((hc.noLeak client h).resolve_right fun heq => ?_)
        rw [hclient] at heq
        cases heq
      · exact .inr rfl
    | some held =>
      rw [AsyncProviderLifecycle.initializeProvider, hclient] at h ⊢
      have hprev := hc.noLeak client h
      rw [hclient] at hprev
      exact hprev

theorem Consistent.beginClose (hc : Consistent hasHandle history p) :
    Consistent hasHandle ((p, .callClose) :: history) (beginClose p) := by
  obtain ⟨client, handle, initialized, created, closed, closes⟩ := p
  cases client with
  | none =>
    constructor
    · exact fun h => h.elim
    · exact fun h => (h rfl).elim
    · exact iff_of_false Bool.false_ne_true fun h => h rfl
    · exact hc.client_created
    · exact hc.closed_created
    · intro client h
      rcases List.mem_append.mp h with h | h
      · exact hc.awaited client h
      · cases List.mem_singleton.mp h
    · exact hc.noLeak
  | some held =>
    constructor
    · exact fun h => h.elim
    · exact fun h => (h rfl).elim
    · exact hc.initialized_iff
    · exact hc.client_created
    · intro client h
      rcases List.mem_append.mp h with h | h
      · exact hc.closed_created client h
      · rw [List.mem_singleton.mp h]
        exact hc.client_created held rfl
    · intro client h
      rcases List.mem_append.mp h with h | h
      · obtain ⟨hclosed, hheld⟩ := hc.awaited client h
        exact ⟨List.mem_append_left _ hclosed, hheld⟩
      · cases List.mem_singleton.mp h
        exact ⟨List.mem_append_right _ (List.mem_singleton_self _), .inr rfl⟩
    · exact fun client h => (hc.noLeak client h).imp_left (List.mem_append_left _)

theorem Consistent.finishClose (hc : Consistent hasHandle history p) {i : ℕ} {outcome : Outcome}
    (h : finishClose p i outcome = some p') :
    Consistent hasHandle ((p, .acloseEnds i outcome) :: history) p' := by
  unfold AsyncProviderLifecycle.finishClose at h
  split at h
  · rename_i awaited hcall
    have hmem : CloseCall.awaiting awaited ∈ p.closes := List.mem_of_getElem? hcall
    -- the caller has not opened the provider again
    have hopened : ¬ Opened history := by
      intro hopened
      obtain ⟨_, -, -, -, -, hclosing⟩ := hc.live hopened
      exact hclosing ⟨awaited, hmem⟩
    obtain ⟨hclosed, hheld⟩ := hc.awaited awaited hmem
    cases outcome with
    | returned =>
      cases h
      constructor
      · exact fun h => absurd h hopened
      · exact hc.handle_opened
      · simp
      · simp
      · exact hc.closed_created
      · intro client h
        exact ⟨(hc.awaited client (awaiting_of_set h)).1, .inl rfl⟩
      · intro client h
        refine .inl ((hc.noLeak client h).elim id fun heq => ?_)
        rw [heq] at hheld
        rcases hheld with hnone | hsame
        · cases hnone
        · cases hsame
          exact hclosed
    | raised e =>
      cases h
      exact ⟨fun h => absurd h hopened, hc.handle_opened, hc.initialized_iff, hc.client_created,
        hc.closed_created, fun client h => hc.awaited client (awaiting_of_set h), hc.noLeak⟩
  · cases h

theorem consistent_step (l : Label) (hc : Consistent hasHandle history p) (hu : Undisturbed p l)
    (h : step hasHandle p l = some p') : Consistent hasHandle ((p, l) :: history) p' := by
  cases l with
  | callInitialize =>
    cases h
    exact hc.initializeProvider hu
  | callClose =>
    cases h
    exact hc.beginClose
  | acloseEnds i outcome => exact hc.finishClose h

/-- A disturbed `initialize()` returns with a provider that is not live. -/
theorem not_live_of_disturbed {l : Label} (hu : ¬ Undisturbed p l)
    (h : step hasHandle p l = some p') :
    ¬ (Opened ((p, l) :: history) → Live hasHandle p') := by
  intro hlive
  have hinit : l = .callInitialize := by
    by_contra hne
    exact hu fun heq => absurd heq hne
  subst hinit
  cases h
  obtain ⟨client, hclient, hopen, -, -, hclosing⟩ := hlive trivial
  refine hu fun _ => ⟨hclosing, fun held hheld => ?_⟩
  rw [initializeProvider, hheld] at hclient
  cases hclient
  exact hopen

/-- In every interleaving of `initialize()` and `close()`: after every `initialize()` and until
the next `close()` is called, requests and the handle's requests go out on the one open client
of the provider and no `close()` is pending, exactly when no `initialize()` was called while a
`close()` was pending or on the client that a failed one has closed; and then no client is ever
left open behind. -/
theorem live_iff_undisturbed (hasHandle : Bool) {history : List (Provider × Label)} {p : Provider}
    (h : (machine hasHandle).Execution history p) :
    (Machine.Throughout (fun history p => Opened history → Live hasHandle p) history p ↔
      ∀ s ∈ history, Undisturbed s.1 s.2) ∧
    ((∀ s ∈ history, Undisturbed s.1 s.2) →
      Machine.Throughout (fun _ p => NoLeak p ∧ (p.initialized = true ↔ p.client ≠ none))
        history p) := by
  have hconsistent (hall : ∀ s ∈ history, Undisturbed s.1 s.2) :
      Machine.Throughout (Consistent hasHandle) history p :=
    h.throughout (consistent_new hasHandle)
      (fun _ _ l _ hc hu hstep => consistent_step l hc hu hstep) hall
  refine ⟨⟨fun hlive => ?_, fun hall => ?_⟩, fun hall => ?_⟩
  · exact h.guards_of_throughout (fun _ _ _ _ hu hstep => not_live_of_disturbed hu hstep) hlive
  · exact (hconsistent hall).imp fun _ _ hc => hc.live
  · exact (hconsistent hall).imp fun _ _ hc => ⟨hc.noLeak, hc.initialized_iff⟩

/-- Opened, closed and opened again, with a request in between. -/
theorem live_iff_undisturbed_reopened :
    ∃ history p, atomicMemory.Execution history p ∧ p.created = 2 ∧ p.closed = [0] ∧
      Machine.Throughout (fun history p => Opened history → Live true p) history p := by
  let p₁ : Provider := ⟨some 0, some 0, true, 1, [], []⟩
  let p₂ : Provider := ⟨some 0, none, true, 1, [0], [.awaiting 0]⟩
  let p₃ : Provider := ⟨none, none, false, 1, [0], [.finished .returned]⟩
  let p₄ : Provider := ⟨some 1, some 1, true, 2, [0], [.finished .returned]⟩
  have hrecord : atomicMemory.record
      [.callInitialize, .callClose, .acloseEnds 0 .returned, .callInitialize] =
      some ([(p₃, .callInitialize), (p₂, .acloseEnds 0 .returned), (p₁, .callClose),
        (.new, .callInitialize)], p₄) := rfl
  have hex := Machine.execution_record _ hrecord
  refine ⟨_, p₄, hex, rfl, rfl, (live_iff_undisturbed true hex).1.mpr ?_⟩
  simp [Undisturbed, Provider.Closing, Provider.new, p₃]

/-- Two calls of `close()` with an `initialize()` between their ends: the second client is
open, and no `close()` will ever find it. -/
example : ∃ p, atomicMemory.exec [.callInitialize, .callClose, .callClose, .acloseEnds 0 .returned,
    .callInitialize, .acloseEnds 1 .returned] = some p ∧
      p.created = 2 ∧ p.closed = [0, 0] ∧ p.client = none ∧ p.handle = some 1 :=
  ⟨_, rfl, rfl, rfl, rfl, rfl⟩

end AtomicMemory.AsyncProviderLifecycle
