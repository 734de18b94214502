import AtomicMemory.Core.Python
import AtomicMemory.KvCache.SqliteStorage
import Mathlib.Data.Int.Order.Basic

-- Any number of `SQLiteStorageAdapter`s that are opened, called and closed in any order, on
-- database files they may share or on `:memory:`. What is stored is the text of `json.dumps`.

open PyValue hiding none

namespace AtomicMemory

/-- Python's `json`, on its own text. -/
def JsonCodec.python (floats : JsonText.FloatText) : JsonCodec where
  dumps value := (jsonDumps floats .spaced value).map String.ofList
  loads text := jsonLoads floats text.toList

namespace SqliteStorage

/-- `db_path`. -/
inductive DbPath (π : Type)
  | file (path : π)
  | memory

inductive SessionCall (τ : Type)
  | op (op : CacheOp τ)
  /-- `set(key, value, ttl_seconds=..., encrypt=True)`. -/
  | setEncrypted (key : String) (value : PyValue) (ttlSeconds : Option τ)
  | vacuumExpired

/-- Whether `_require` is reached at all: `encrypt` is looked at before. -/
def SessionCall.connects {τ : Type} : SessionCall τ → Bool
  | setEncrypted _ _ _ => false
  | _ => true

inductive SessionEvent (ι τ : Type)
  /-- `initialize()`. -/
  | opens (adapter : ι)
  | closes (adapter : ι)
  | calls (adapter : ι) (now : τ) (call : SessionCall τ)

inductive SessionResult (ρ : Type)
  | returned
  | ofCall (r : ρ)
  /-- The `RuntimeError` of `_require`. -/
  | notInitialized

def SessionResult.map {ρ ρ' : Type} (f : ρ → ρ') : SessionResult ρ → SessionResult ρ'
  | returned => .returned
  | ofCall r => .ofCall (f r)
  | notInitialized => .notInitialized

structure Backend (τ δ ρ : Type) where
  empty : δ
  run : τ → SessionCall τ → δ → ρ × δ

/-- The databases of the files and of the connections to `:memory:`, and which adapters have a
connection. -/
structure Sessions (π ι δ : Type) where
  files : π → δ
  memory : ι → δ
  connected : ι → Bool

namespace Sessions

variable {π ι τ δ δ' ρ ρ' : Type} [DecidableEq π] [DecidableEq ι] (path : ι → DbPath π)

def database (s : Sessions π ι δ) (adapter : ι) : δ :=
  match path adapter with
  | .file p => s.files p
  | .memory => s.memory adapter

def write (s : Sessions π ι δ) (adapter : ι) (d : δ) : Sessions π ι δ :=
  match path adapter with
  | .file p => { s with files := Function.update s.files p d }
  | .memory => { s with memory := Function.update s.memory adapter d }

/-- `initialize`: a file keeps its database, and a connection to `:memory:` makes its own. -/
def opened (empty : δ) (s : Sessions π ι δ) (adapter : ι) : Sessions π ι δ :=
  if s.connected adapter then s
  else
    match path adapter with
    | .file _ => { s with connected := Function.update s.connected adapter true }
    | .memory => {
        files := s.files
        memory := Function.update s.memory adapter empty
        connected := Function.update s.connected adapter true }

def closed (s : Sessions π ι δ) (adapter : ι) : Sessions π ι δ :=
  { s with connected := Function.update s.connected adapter false }

def step (b : Backend τ δ ρ) :
    SessionEvent ι τ → Sessions π ι δ → SessionResult ρ × Sessions π ι δ
  | .opens adapter, s => (.returned, s.opened path b.empty adapter)
  | .closes adapter, s => (.returned, s.closed adapter)
  | .calls adapter now call, s =>
    if call.connects && !s.connected adapter then (.notInitialized, s)
    else
      let (r, d) := b.run now call (s.database path adapter)
      (.ofCall r, s.write path adapter d)

def run (b : Backend τ δ ρ) : List (SessionEvent ι τ) → Sessions π ι δ → List (SessionResult ρ)
  | [], _ => []
  | event :: rest, s => (s.step path b event).1 :: run b rest (s.step path b event).2

def map (view : δ → δ') (s : Sessions π ι δ) : Sessions π ι δ' where
  files p := view (s.files p)
  memory i := view (s.memory i)
  connected := s.connected

variable (view : δ → δ') (s : Sessions π ι δ)

omit [DecidableEq π] [DecidableEq ι] in
theorem connected_map : (s.map view).connected = s.connected := rfl

omit [DecidableEq π] [DecidableEq ι] in
theorem database_map (adapter : ι) :
    (s.map view).database path adapter = view (s.database path adapter) := by
  unfold database
  cases path adapter <;> rfl

theorem map_update {κ : Type} [DecidableEq κ] (f : κ → δ) (k : κ) (d : δ) :
    (fun x => view (Function.update f k d x)) = Function.update (fun x => view (f x)) k (view d) :=
  Function.comp_update view f k d

theorem write_map (adapter : ι) (d : δ) :
    (s.write path adapter d).map view = (s.map view).write path adapter (view d) := by
  unfold write map
  cases path adapter with
  | file p => simp only [map_update]
  | memory => simp only [map_update]

omit [DecidableEq π] in
theorem opened_map (empty : δ) (adapter : ι) :
    (s.opened path empty adapter).map view = (s.map view).opened path (view empty) adapter := by
  unfold opened
  cases hconnected : s.connected adapter with
  | true => rw [connected_map, hconnected, if_pos rfl, if_pos rfl]
  | false =>
    rw [connected_map, hconnected, if_neg Bool.false_ne_true, if_neg Bool.false_ne_true]
    cases path adapter with
    | file p => rfl
    | memory => simp only [map, map_update]

variable {view}

theorem run_map {b : Backend τ δ ρ} {b' : Backend τ δ' ρ'} {f : ρ → ρ'}
    (hempty : view b.empty = b'.empty) (events : List (SessionEvent ι τ))
    (hcalls : ∀ adapter now call, SessionEvent.calls adapter now call ∈ events → ∀ d,
      f (b.run now call d).1 = (b'.run now call (view d)).1 ∧
        view (b.run now call d).2 = (b'.run now call (view d)).2) :
    (s.run path b events).map (SessionResult.map f) = (s.map view).run path b' events := by
  induction events generalizing s with
  | nil => rfl
  | cons event rest ih =>
    have hstep : (s.step path b event).1.map f = ((s.map view).step path b' event).1 ∧
        (s.step path b event).2.map view = ((s.map view).step path b' event).2 := by
      cases event with
      | opens adapter =>
        refine ⟨rfl, ?_⟩
        rw [step, step, opened_map, hempty]
      | closes adapter => exact ⟨rfl, rfl⟩
      | calls adapter now call =>
        obtain ⟨hresult, hdatabase⟩ :=
          hcalls adapter now call List.mem_cons_self (s.database path adapter)
        rw [step, step, connected_map, database_map]
        by_cases h : (call.connects && !s.connected adapter) = true
        · rw [if_pos h, if_pos h]
          exact ⟨rfl, rfl⟩
        · rw [if_neg h, if_neg h]
          refine ⟨congrArg SessionResult.ofCall hresult, ?_⟩
          rw [write_map, hdatabase]
    rw [run, run, List.map_cons, hstep.1, ih _ fun adapter now call hmem =>
      hcalls adapter now call (List.mem_cons_of_mem _ hmem), hstep.2]

end Sessions

inductive CallResult
  | result (r : CacheResult)
  | vacuumed (n : ℕ)

inductive CallAnswer
  | answer (a : CacheAnswer)
  | vacuumed (n : ℕ)

def CallResult.answer : CallResult → CallAnswer
  | result r => .answer r.answer
  | vacuumed n => .vacuumed n

variable {τ : Type} [LinearOrder τ] [Add τ]

def tables (json : JsonCodec) : Backend τ (Table τ) CallResult where
  empty := .empty
  run now
    | .op op, table => (call json now op table).map .result id
    | .setEncrypted key value ttlSeconds, table =>
      ((set json key value ttlSeconds true).run now table).map
        (fun
          | .ok () => .result .done
          | .error e => .result (.raised e)) id
    | .vacuumExpired, table => (vacuumExpired.run now table).map .vacuumed id

/-- The error of `encrypt=True`. -/
def encryptError : PyError :=
  .configError ("SQLiteStorageAdapter does not implement encryption; passing " ++
    "encrypt=True would silently store plaintext. Omit the flag or use a backend that " ++
    "implements ciphered storage.")

noncomputable def stores (stored : PyValue → Except PyError (Except PyError PyValue)) :
    Backend τ (Cache.Store τ) CallAnswer where
  empty := Cache.Store.empty
  run now
    | .op op, store => (Cache.step stored now op store).map .answer id
    | .setEncrypted _ _ _, store => (.answer (.raised encryptError), store)
    | .vacuumExpired, store => (.vacuumed {key | store.StaleAt now key}.ncard, store.live now)

omit [Add τ] in
theorem rowcount_deleteExpired (json : JsonCodec) (now : τ) (table : Table τ) :
    (SqlWrite.deleteExpired now).rowcount table =
      {key | (store json table).StaleAt now key}.ncard := by
  have hcount := KeyedTable.countWhere_eq_ncard (SqliteRow.entry json) table
    (ExpiringEntry.stale now)
  refine hcount.trans (congrArg Set.ncard (Set.ext fun key => ?_))
  show ((store json table key).filter _).isSome = true ↔ ∃ entry, store json table key = some entry ∧ _
  cases store json table key with
  | none => simp
  | some entry => simp [Option.filter]

def keep (floats : JsonText.FloatText) (value : PyValue) :
    Except PyError (Except PyError PyValue) :=
  (jsonDumps floats .spaced value).map fun _ => .ok value

theorem stored_python {floats : JsonText.FloatText} {value : PyValue}
    (h : JsonText.Proper floats value) : stored (.python floats) value = keep floats value := by
  show ((jsonDumps floats .spaced value).map String.ofList).map
    (fun text => jsonLoads floats text.toList) = _
  unfold keep
  cases hdumps : jsonDumps floats .spaced value with
  | error e => rfl
  | ok text =>
    show Except.ok (jsonLoads floats (String.ofList text).toList) = _
    rw [String.toList_ofList, jsonLoads_jsonDumps h hdumps]
    rfl

def SetsProper {ι : Type} (floats : JsonText.FloatText) (events : List (SessionEvent ι τ)) : Prop :=
  ∀ adapter now key value ttlSeconds,
    SessionEvent.calls adapter now (.op (.set key value ttlSeconds)) ∈ events →
      JsonText.Proper floats value

/-- Whatever the adapters do, each answers as the store of its database, which outlives its
connections if it is a file; without a connection it answers nothing and changes nothing. -/
theorem sessions_answers {π ι : Type} [DecidableEq π] [DecidableEq ι] (floats : JsonText.FloatText)
    (path : ι → DbPath π) (events : List (SessionEvent ι τ)) (hvalues : SetsProper floats events)
    (s : Sessions π ι (Table τ)) :
    (s.run path (tables (.python floats)) events).map (SessionResult.map CallResult.answer) =
      (s.map (store (.python floats))).run path (stores (keep floats)) events := by
  apply Sessions.run_map
  · rfl
  · intro adapter now call hmem table
    cases call with
    | op op =>
      have hrefines := call_refines (.python floats) now op table
      have hstep : Cache.step (stored (.python floats)) now op (store (.python floats) table) =
          Cache.step (keep floats) now op (store (.python floats) table) := by
        cases op with
        | set key value ttlSeconds =>
          rw [Cache.step, Cache.step, stored_python (hvalues adapter now key value ttlSeconds hmem)]
        | _ => rfl
      rw [hstep] at hrefines
      exact ⟨congrArg CallAnswer.answer hrefines.1, hrefines.2⟩
    | setEncrypted key value ttlSeconds => exact ⟨rfl, rfl⟩
    | vacuumExpired =>
      exact ⟨congrArg CallAnswer.vacuumed (rowcount_deleteExpired _ now table),
        store_deleteExpired _ now table⟩

/-- A value is set, the adapter is closed, and another one on the file reads the value. -/
def reopened : List (SessionEvent Bool ℤ) :=
  [.opens true, .calls true 0 (.op (.set "k" (.list [.int 1, .none]) (some 5))), .closes true,
    .calls true 1 (.op (.get "k")), .opens false, .calls false 4 (.op (.get "k")),
    .calls false 5 .vacuumExpired]

def noSessions : Sessions Unit Bool (Table ℤ) := ⟨fun _ => .empty, fun _ => .empty, fun _ => false⟩

theorem sessions_answers_reopened :
    (noSessions.run (fun _ => .file ()) (tables (.python .tenths)) reopened).map
        (SessionResult.map CallResult.answer) =
      (noSessions.map (store (.python .tenths))).run (fun _ => .file ()) (stores (keep .tenths))
        reopened := by
  apply sessions_answers
  intro adapter now key value ttlSeconds hmem
  have hvalue : value = .list [.int 1, .none] := by
    simp only [reopened, List.mem_cons, reduceCtorEq, SessionEvent.calls.injEq,
      SessionCall.op.injEq, CacheOp.set.injEq, and_false, false_or, or_false,
      List.not_mem_nil] at hmem
    exact hmem.2.2.2.1
  rw [hvalue]
  exact ⟨trivial, trivial, trivial⟩

end SqliteStorage

end AtomicMemory
