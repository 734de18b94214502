import AtomicMemory.Core.Errors
import AtomicMemory.Lib.ExpiringStore
import AtomicMemory.Lib.KeyedTable
import AtomicMemory.Lib.PyValue
import Mathlib.Data.Set.Card

-- The calls of `StorageAdapter`, and what a cache is for: a store of expiring entries, from
-- which some calls collect what is stale. Clock readings and durations are of any linearly
-- ordered type with an addition.

open PyValue hiding none

namespace AtomicMemory

/-- A call of an adapter that is initialized; `set` is called without `encrypt`. -/
inductive CacheOp (τ : Type)
  | get (key : String)
  | set (key : String) (value : PyValue) (ttlSeconds : Option τ)
  | delete (key : String)
  | has (key : String)
  | keys
  | size
  | clear

inductive CacheResult
  /-- The `None` of `set` and `clear`. -/
  | done
  | value (v : PyValue)
  | flag (b : Bool)
  | keys (ks : List String)
  | count (n : ℕ)
  | raised (e : PyError)

inductive CacheAnswer
  | done
  | value (v : PyValue)
  | flag (b : Bool)
  | keys (ks : Set String)
  | count (n : ℕ)
  | raised (e : PyError)

namespace CacheResult

def answer : CacheResult → CacheAnswer
  | done => .done
  | value v => .value v
  | flag b => .flag b
  | keys ks => .keys {k | k ∈ ks}
  | count n => .count n
  | raised e => .raised e

/-- The `list[str]` that was returned, if one was. -/
def keyList : CacheResult → List String
  | keys ks => ks
  | _ => []

theorem eq_of_answer {r r' : CacheResult} (h : r.answer = r'.answer)
    (hkeys : (∀ k, k ∈ r.keyList ↔ k ∈ r'.keyList) → r.keyList = r'.keyList) : r = r' := by
  cases r <;> cases r' <;> simp only [answer, reduceCtorEq, CacheAnswer.value.injEq,
    CacheAnswer.flag.injEq, CacheAnswer.keys.injEq, CacheAnswer.count.injEq,
    CacheAnswer.raised.injEq] at h
  case done.done => rfl
  case keys.keys ks ks' => exact congrArg keys (hkeys fun k => Set.ext_iff.mp h k)
  all_goals rw [h]

/-- `get`, of what an entry decodes to. -/
def ofValue : Except PyError PyValue → CacheResult
  | .ok v => .value v
  | .error e => .raised e

/-- `self.get(key) is not None`. -/
def isPresent : Except PyError PyValue → CacheResult
  | .ok v => .flag !v.isNone
  | .error e => .raised e

end CacheResult

namespace Cache

abbrev Store (τ : Type) := ExpiringStore String (Except PyError PyValue) τ

variable {τ : Type}

def Store.empty : Store τ := fun _ => none

/-- What reading the entry under a key gives; a key without one reads as `None`. -/
def Store.read (s : Store τ) (key : String) : Except PyError PyValue :=
  match s key with
  | some entry => entry.value
  | none => .ok .none

theorem Store.read_none {s : Store τ} {key : String} (h : s key = none) :
    s.read key = .ok .none := by
  rw [read, h]

theorem Store.read_some {s : Store τ} {key : String}
    {entry : ExpiringEntry (Except PyError PyValue) τ} (h : s key = some entry) :
    s.read key = entry.value := by
  rw [read, h]

variable [LinearOrder τ] [Add τ]

open Function in
/-- What a call answers at a clock reading, and the store it leaves. `stored` is what a value
reads as once it is set, or the error that setting it raises. Reads collect the stale entries
they come across; `delete` looks for an entry, stale or not. -/
noncomputable def step (stored : PyValue → Except PyError (Except PyError PyValue)) (now : τ) :
    CacheOp τ → Store τ → CacheAnswer × Store τ
  | .get key, s =>
    ((CacheResult.ofValue (Store.read (s.live now) key)).answer, update s key (s.live now key))
  | .set key value ttlSeconds, s =>
    match stored value with
    | .ok reads => (.done, update s key (some ⟨reads, ttlSeconds.map (now + ·)⟩))
    | .error e => (.raised e, s)
  | .delete key, s => (.flag (s key).isSome, update s key none)
  | .has key, s =>
    ((CacheResult.isPresent (Store.read (s.live now) key)).answer, update s key (s.live now key))
  | .keys, s => (.keys {key | (s.live now key).isSome}, s.live now)
  | .size, s => (.count {key | (s.live now key).isSome}.ncard, s.live now)
  | .clear, _ => (.done, Store.empty)

open ExpiringStore

/-- A call is told apart from the same call after some collection only if it is a `delete`
that finds a stale entry. -/
theorem step_collected {stored : PyValue → Except PyError (Except PyError PyValue)} {now : τ}
    {s s' : Store τ} (h : Collected now s s') {op : CacheOp τ}
    (hfresh : ∀ key, op = .delete key → ¬ s.StaleAt now key) :
    (step stored now op s').1 = (step stored now op s).1 ∧
      Collected now (step stored now op s).2 (step stored now op s').2 := by
  have hlive := h.live_eq
  cases op with
  | get key =>
    simp only [step, hlive]
    exact ⟨trivial, h.update key _⟩
  | set key value ttlSeconds =>
    simp only [step]
    cases stored value with
    | ok reads => exact ⟨rfl, h.update key _⟩
    | error e => exact ⟨rfl, h⟩
  | delete key =>
    -- a delete answers from the store itself, where a stale entry still counts
    simp only [step, h.eq_of_not_stale (hfresh key rfl)]
    exact ⟨trivial, h.update key none⟩
  | has key =>
    simp only [step, hlive]
    exact ⟨trivial, h.update key _⟩
  | keys =>
    simp only [step, hlive]
    exact ⟨trivial, .refl now _⟩
  | size =>
    simp only [step, hlive]
    exact ⟨trivial, .refl now _⟩
  | clear => exact ⟨rfl, .refl now _⟩

/-- A `delete` that finds a stale entry answers otherwise once the entry is collected. -/
theorem delete_stale {stored : PyValue → Except PyError (Except PyError PyValue)} {now : τ}
    {s : Store τ} {key : String} (h : s.StaleAt now key) :
    (step stored now (.delete key) s).1 ≠
      (step stored now (.delete key) (step stored now (.get key) s).2).1 := by
  have hlive := live_eq_none_of_stale h
  obtain ⟨entry, hentry, -⟩ := h
  simp [step, hentry, hlive]

end Cache

inductive CacheRead
  | get (key : String)
  | has (key : String)
  | keys
  | size

def CacheRead.op {τ : Type} : CacheRead → CacheOp τ
  | get key => .get key
  | has key => .has key
  | keys => .keys
  | size => .size

theorem Cache.step_read {τ : Type} [LinearOrder τ] [Add τ]
    (stored : PyValue → Except PyError (Except PyError PyValue)) (now : τ) (read : CacheRead)
    (s : Store τ) : ExpiringStore.Collected now s (step stored now read.op s).2 := by
  have hone (key : String) :
      ExpiringStore.Collected now s (Function.update s key (s.live now key)) := by
    intro other
    by_cases hother : other = key
    · subst hother
      rw [Function.update_self]
      exact ExpiringStore.Collected.collect_live now s other
    · exact .inl (Function.update_of_ne hother _ _)
  cases read with
  | get key => exact hone key
  | has key => exact hone key
  | keys => exact .collect_live now s
  | size => exact .collect_live now s

/-- An implementation of the protocol as a state machine. `Extra` are the calls that only read,
those that the protocol does not have included. -/
structure CacheAdapter (τ : Type) where
  State : Type
  init : State
  call : τ → CacheOp τ → State → CacheResult × State
  Extra : Type
  read : τ → Extra → State → State

namespace CacheAdapter

variable {τ : Type}

/-- The results of the calls of a timeline; those of its extra reads are dropped. -/
def observe (A : CacheAdapter τ) : List (τ × (CacheOp τ ⊕ A.Extra)) → A.State → List CacheResult
  | [], _ => []
  | (now, .inl op) :: rest, s => (A.call now op s).1 :: A.observe rest (A.call now op s).2
  | (now, .inr extra) :: rest, s => A.observe rest (A.read now extra s)

def timeline (A : CacheAdapter τ) (calls : List (τ × CacheOp τ)) :
    List (τ × (CacheOp τ ⊕ A.Extra)) := calls.map fun call => (call.1, .inl call.2)

def calls {A : CacheAdapter τ} (events : List (τ × (CacheOp τ ⊕ A.Extra))) :
    List (τ × CacheOp τ) := events.filterMap fun
  | (now, .inl op) => some (now, op)
  | (_, .inr _) => none

def results (A : CacheAdapter τ) (calls : List (τ × CacheOp τ)) (s : A.State) :
    List CacheResult := A.observe (A.timeline calls) s

@[simp] theorem results_cons (A : CacheAdapter τ) (now : τ) (op : CacheOp τ)
    (rest : List (τ × CacheOp τ)) (s : A.State) :
    A.results ((now, op) :: rest) s = (A.call now op s).1 :: A.results rest (A.call now op s).2 :=
  rfl

def ClockRuns [LinearOrder τ] {α : Type} (events : List (τ × α)) : Prop :=
  (events.map Prod.fst).Pairwise (· ≤ ·)

structure Refines [LinearOrder τ] [Add τ] (A : CacheAdapter τ)
    (stored : PyValue → Except PyError (Except PyError PyValue)) where
  store : A.State → Cache.Store τ
  init : store A.init = Cache.Store.empty
  call : ∀ now op s, (A.call now op s).1.answer = (Cache.step stored now op (store s)).1 ∧
    store (A.call now op s).2 = (Cache.step stored now op (store s)).2
  read : ∀ now extra s, ExpiringStore.Collected now (store s) (store (A.read now extra s))
  /-- `get` is among the reads. -/
  get : String → A.Extra
  read_get : ∀ now key s, A.read now (get key) s = (A.call now (.get key) s).2

noncomputable def answers [LinearOrder τ] [Add τ]
    (stored : PyValue → Except PyError (Except PyError PyValue)) :
    List (τ × CacheOp τ) → Cache.Store τ → List CacheAnswer
  | [], _ => []
  | (now, op) :: rest, s =>
    (Cache.step stored now op s).1 :: answers stored rest (Cache.step stored now op s).2

theorem Refines.answers_results [LinearOrder τ] [Add τ] {A : CacheAdapter τ}
    {stored : PyValue → Except PyError (Except PyError PyValue)} (R : A.Refines stored)
    (calls : List (τ × CacheOp τ)) (s : A.State) :
    (A.results calls s).map CacheResult.answer = answers stored calls (R.store s) := by
  induction calls generalizing s with
  | nil => rfl
  | cons call rest ih =>
    obtain ⟨now, op⟩ := call
    obtain ⟨hanswer, hstore⟩ := R.call now op s
    rw [results_cons, List.map_cons, ih, hanswer, hstore]
    rfl

end CacheAdapter

end AtomicMemory
