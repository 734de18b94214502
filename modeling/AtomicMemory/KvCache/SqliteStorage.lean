import AtomicMemory.KvCache.StorageAdapter
import Mathlib.Data.String.Basic
import Mathlib.Data.List.Sort

-- `SQLiteStorageAdapter`, initialized. A method is a program: it reads the clock and executes
-- statements, one at a time, and goes on with what each of them gave.

open PyValue hiding none

namespace AtomicMemory

/-- The module's `json.dumps` and `json.loads`. -/
structure JsonCodec where
  dumps : PyValue → Except PyError String
  loads : String → Except PyError PyValue

def JsonCodec.RoundTrips (json : JsonCodec) (v : PyValue) : Prop :=
  ∃ text, json.dumps v = .ok text ∧ json.loads text = .ok v

def JsonCodec.literals : JsonCodec where
  dumps
    | .none => .ok "null"
    | .bool true => .ok "true"
    | .bool false => .ok "false"
    | _ => .error .typeError
  loads text :=
    if text = "null" then .ok .none
    else if text = "true" then .ok (.bool true)
    else if text = "false" then .ok (.bool false)
    else .error (.valueError "Expecting value")

namespace SqliteStorage

/-- A row of `atomicmemory_kv`, whose primary key is `key`. -/
structure SqliteRow (τ : Type) where
  value : String
  createdAt : τ
  expiresAt : Option τ

abbrev Table (τ : Type) := KeyedTable String (SqliteRow τ)

inductive SqlWrite (τ : Type)
  /-- `INSERT ... ON CONFLICT(key) DO UPDATE`. -/
  | upsert (key : String) (row : SqliteRow τ)
  /-- `DELETE ... WHERE key = ?`. -/
  | deleteKey (key : String)
  /-- `DELETE ... WHERE expires_at IS NOT NULL AND expires_at <= ?`. -/
  | deleteExpired (now : τ)
  /-- `DELETE FROM atomicmemory_kv`. -/
  | deleteAll

/-- `SELECT value, expires_at ... WHERE key = ?`. -/
def selectedRow {τ : Type} (key : String) (table : Table τ) : Option (String × Option τ) :=
  (table.find? key).map fun row => (row.value, row.expiresAt)

/-- `SELECT key ... ORDER BY key`. -/
def selectedKeys {τ : Type} (table : Table τ) : List String :=
  table.keys.mergeSort fun a b => decide (a ≤ b)

variable {τ : Type} [LinearOrder τ]

/-- `expires_at IS NOT NULL AND expires_at <= ?`. -/
def SqliteRow.expired (now : τ) (row : SqliteRow τ) : Bool :=
  match row.expiresAt with
  | some expiresAt => decide (expiresAt ≤ now)
  | none => false

def SqlWrite.apply : SqlWrite τ → Table τ → Table τ
  | upsert key row, table => table.put key row
  | deleteKey key, table => table.erase key
  | deleteExpired now, table => table.deleteWhere fun _ row => row.expired now
  | deleteAll, table => table.deleteWhere fun _ _ => true

/-- `cursor.rowcount`. -/
def SqlWrite.rowcount : SqlWrite τ → Table τ → ℕ
  | upsert _ _, _ => 1
  | deleteKey key, table => table.countWhere fun k _ => k = key
  | deleteExpired now, table => table.countWhere fun _ row => row.expired now
  | deleteAll, table => table.countWhere fun _ _ => true

inductive Program (τ ρ : Type)
  | done (result : ρ)
  | clock (next : τ → Program τ ρ)
  | selectRow (key : String) (next : Option (String × Option τ) → Program τ ρ)
  | selectKeys (next : List String → Program τ ρ)
  | selectCount (next : ℕ → Program τ ρ)
  /-- The rest is told the rowcount. -/
  | write (statement : SqlWrite τ) (next : ℕ → Program τ ρ)

namespace Program

variable {ρ σ : Type}

def bind {τ : Type} : Program τ ρ → (ρ → Program τ σ) → Program τ σ
  | done result, f => f result
  | clock next, f => clock fun now => (next now).bind f
  | selectRow key next, f => selectRow key fun row => (next row).bind f
  | selectKeys next, f => selectKeys fun keys => (next keys).bind f
  | selectCount next, f => selectCount fun n => (next n).bind f
  | write statement next, f => write statement fun n => (next n).bind f

def map {τ : Type} (f : ρ → σ) (p : Program τ ρ) : Program τ σ :=
  p.bind fun result => done (f result)

/-- The program alone on a table, all its clock readings being `now`. -/
def run (now : τ) : Program τ ρ → Table τ → ρ × Table τ
  | done result, table => (result, table)
  | clock next, table => (next now).run now table
  | selectRow key next, table => (next (selectedRow key table)).run now table
  | selectKeys next, table => (next (selectedKeys table)).run now table
  | selectCount next, table => (next table.rows.length).run now table
  | write statement next, table =>
    (next (statement.rowcount table)).run now (statement.apply table)

theorem run_bind (now : τ) (p : Program τ ρ) (f : ρ → Program τ σ) (table : Table τ) :
    (p.bind f).run now table = (f (p.run now table).1).run now (p.run now table).2 := by
  induction p generalizing table with
  | done result => rfl
  | clock next ih => exact ih now table
  | selectRow key next ih => exact ih _ table
  | selectKeys next ih => exact ih _ table
  | selectCount next ih => exact ih _ table
  | write statement next ih => exact ih _ _

@[simp] theorem run_map (now : τ) (p : Program τ ρ) (f : ρ → σ) (table : Table τ) :
    (p.map f).run now table = (f (p.run now table).1, (p.run now table).2) :=
  run_bind now p _ table

end Program

section

variable {τ : Type} (json : JsonCodec)

def delete (key : String) : Program τ Bool :=
  .write (.deleteKey key) fun rowcount => .done (0 < rowcount)

/-- `self.delete(key)`, whose result `get` drops. -/
def evict (key : String) : Program τ (Except PyError PyValue) :=
  (delete key).bind fun _ => .done (.ok .none)

def get [LinearOrder τ] (key : String) : Program τ (Except PyError PyValue) :=
  .selectRow key fun
    | none => .done (.ok .none)
    | some (valueText, none) => .done (json.loads valueText)
    | some (valueText, some expiresAt) =>
      .clock fun now =>
        if now ≥ expiresAt then evict key else .done (json.loads valueText)

def set [Add τ] (key : String) (value : PyValue) (ttlSeconds : Option τ) (encrypt : Bool) :
    Program τ (Except PyError Unit) :=
  if encrypt then
    .done (.error (.configError ("SQLiteStorageAdapter does not implement encryption; passing " ++
      "encrypt=True would silently store plaintext. Omit the flag or use a backend that " ++
      "implements ciphered storage.")))
  else
    .clock fun now =>
      match json.dumps value with
      | .error e => .done (.error e)
      | .ok text =>
        .write (.upsert key ⟨text, now, ttlSeconds.map (now + ·)⟩) fun _ => .done (.ok ())

def vacuumExpired : Program τ ℕ := .clock fun now => .write (.deleteExpired now) .done

def keys : Program τ (List String) := vacuumExpired.bind fun _ => .selectKeys .done

def size : Program τ ℕ := vacuumExpired.bind fun _ => .selectCount .done

def clear : Program τ Unit := .write .deleteAll fun _ => .done ()

def program [LinearOrder τ] [Add τ] : CacheOp τ → Program τ CacheResult
  | .get key => (get json key).map .ofValue
  | .set key value ttlSeconds =>
    (set json key value ttlSeconds false).map fun
      | .ok () => .done
      | .error e => .raised e
  | .delete key => (delete key).map .flag
  -- `self.get(key) is not None`
  | .has key => (get json key).map .isPresent
  | .keys => keys.map .keys
  | .size => size.map .count
  | .clear => clear.map fun _ => .done

end

variable [Add τ] (json : JsonCodec)

def call (now : τ) (op : CacheOp τ) (table : Table τ) : CacheResult × Table τ :=
  (program json op).run now table

/-- The calls that only read, with `vacuum_expired`. -/
inductive SqliteRead
  | op (read : CacheRead)
  | vacuumExpired

def read (now : τ) : SqliteRead → Table τ → Table τ
  | .op read, table => (call json now read.op table).2
  | .vacuumExpired, table => (vacuumExpired.run now table).2

def adapter : CacheAdapter τ where
  State := Table τ
  init := .empty
  call := call json
  Extra := SqliteRead
  read := read json

def SqliteRow.entry {τ : Type} (json : JsonCodec) (row : SqliteRow τ) :
    ExpiringEntry (Except PyError PyValue) τ :=
  ⟨json.loads row.value, row.expiresAt⟩

def store {τ : Type} (json : JsonCodec) (table : Table τ) : Cache.Store τ :=
  table.view (SqliteRow.entry json)

omit [Add τ] in
theorem store_deleteExpired (now : τ) (table : Table τ) :
    store json ((SqlWrite.deleteExpired now).apply table) = (store json table).live now :=
  KeyedTable.view_deleteWhere (SqliteRow.entry json) table (ExpiringEntry.stale now)

omit [Add τ] in
theorem store_deleteAll (table : Table τ) :
    store json (SqlWrite.deleteAll.apply table) = Cache.Store.empty := by
  funext key
  show ((table.deleteWhere fun _ _ => true).find? key).map _ = none
  rw [KeyedTable.find?_deleteWhere_all, Option.map_none]

omit [Add τ] in
/-- `get` answers what is live under the key, and collects an entry that is stale. -/
theorem get_spec (now : τ) (key : String) (table : Table τ) :
    Cache.Store.read ((store json table).live now) key = ((get json key).run now table).1 ∧
      store json ((get json key).run now table).2 =
        Function.update (store json table) key ((store json table).live now key) := by
  have hstore : store json table key = (table.find? key).map (SqliteRow.entry json) := rfl
  unfold get
  rw [Program.run, selectedRow]
  cases hfind : table.find? key with
  | none =>
    rw [hfind, Option.map_none] at hstore
    have hlive : (store json table).live now key = store json table key := by
      simp [ExpiringStore.live, hstore]
    rw [Cache.Store.read_none (hlive.trans hstore), hlive, Function.update_eq_self]
    exact ⟨rfl, rfl⟩
  | some row =>
    rw [hfind, Option.map_some] at hstore
    -- an expired row is deleted by the read
    by_cases hexpired : row.expired now = true
    · have hlive : (store json table).live now key = none :=
        ExpiringStore.live_eq_none_of_stale ⟨_, hstore, hexpired⟩
      obtain ⟨expiresAt, hexpires, hle⟩ := ExpiringEntry.stale_iff.mp
        (show (row.entry json).stale now = true from hexpired)
      have hrow : row.expiresAt = some expiresAt := hexpires
      rw [Cache.Store.read_none hlive, hlive, Option.map_some, hrow]
      simp only [Program.run, if_pos hle, ge_iff_le]
      exact ⟨rfl, KeyedTable.view_erase (SqliteRow.entry json) table key⟩
    · have hlive : (store json table).live now key = store json table key := by
        apply ExpiringStore.live_eq_of_not_stale
        rintro ⟨entry, hentry, hstale⟩
        rw [hstore, Option.some.injEq] at hentry
        subst hentry
        exact hexpired hstale
      rw [Cache.Store.read_some (hlive.trans hstore), hlive, Function.update_eq_self,
        Option.map_some]
      cases hrow : row.expiresAt with
      | none => exact ⟨rfl, rfl⟩
      | some expiresAt =>
        -- a row that expires later is returned like one that never does
        have hlt : ¬ now ≥ expiresAt := by
          intro hle
          apply hexpired
          rw [SqliteRow.expired, hrow]
          exact decide_eq_true hle
        simp only [Program.run, if_neg hlt]
        exact ⟨rfl, trivial⟩

def stored (value : PyValue) : Except PyError (Except PyError PyValue) :=
  (json.dumps value).map json.loads

theorem call_refines (now : τ) (op : CacheOp τ) (table : Table τ) :
    (call json now op table).1.answer = (Cache.step (stored json) now op (store json table)).1 ∧
      store json (call json now op table).2 =
        (Cache.step (stored json) now op (store json table)).2 := by
  unfold call
  cases op with
  | get key =>
    obtain ⟨hread, hstore⟩ := get_spec json now key table
    rw [program, Program.run_map, Cache.step, hread]
    exact ⟨rfl, hstore⟩
  | set key value ttlSeconds =>
    rw [program, Program.run_map, set, if_neg Bool.false_ne_true, Program.run, Cache.step, stored]
    cases json.dumps value with
    | error e => exact ⟨rfl, rfl⟩
    | ok text => exact ⟨rfl, KeyedTable.view_put (SqliteRow.entry json) table key _⟩
  | delete key =>
    refine ⟨?_, KeyedTable.view_erase (SqliteRow.entry json) table key⟩
    refine congrArg CacheAnswer.flag ?_
    show decide (0 < table.countWhere fun k _ => k = key) = (store json table key).isSome
    rw [Bool.eq_iff_iff, decide_eq_true_iff, KeyedTable.countWhere_key_pos_iff, store,
      KeyedTable.view, Option.isSome_map, Option.isSome_iff_exists]
  | has key =>
    obtain ⟨hread, hstore⟩ := get_spec json now key table
    rw [program, Program.run_map, Cache.step, hread]
    exact ⟨rfl, hstore⟩
  | keys =>
    have hstore := store_deleteExpired json now table
    refine ⟨?_, hstore⟩
    rw [Cache.step, ← hstore]
    refine congrArg CacheAnswer.keys (Set.ext fun key => ?_)
    show key ∈ selectedKeys _ ↔ _
    rw [selectedKeys, List.mem_mergeSort]
    exact KeyedTable.mem_keys_iff_view (SqliteRow.entry json)
  | size =>
    have hstore := store_deleteExpired json now table
    refine ⟨?_, hstore⟩
    rw [Cache.step, ← hstore]
    exact congrArg CacheAnswer.count (KeyedTable.length_eq_ncard (SqliteRow.entry json) _)
  | clear => exact ⟨rfl, store_deleteAll json table⟩

theorem read_collected (now : τ) (extra : SqliteRead) (table : Table τ) :
    ExpiringStore.Collected now (store json table) (store json (read json now extra table)) := by
  cases extra with
  | op read =>
    show ExpiringStore.Collected now _ (store json (call json now read.op table).2)
    rw [(call_refines json now read.op table).2]
    exact Cache.step_read (stored json) now read (store json table)
  | vacuumExpired =>
    show ExpiringStore.Collected now _ (store json ((SqlWrite.deleteExpired now).apply table))
    rw [store_deleteExpired]
    exact .collect_live now (store json table)

def refines : (adapter json : CacheAdapter τ).Refines (stored json) where
  store := store json
  init := rfl
  call := call_refines json
  read := read_collected json
  get key := .op (.get key)
  read_get _ _ _ := rfl

end SqliteStorage

end AtomicMemory
