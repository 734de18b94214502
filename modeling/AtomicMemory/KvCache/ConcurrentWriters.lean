import AtomicMemory.KvCache.SqliteStorage
import AtomicMemory.Lib.Machine
import Mathlib.Data.Int.Order.Basic

-- Any number of initialized SQLite adapters work on one table. Each makes its calls one after
-- another, and between two statements of a call the others may execute theirs.

open PyValue hiding none

namespace AtomicMemory.SqliteStorage

inductive SqliteCall (τ : Type)
  | op (op : CacheOp τ)
  | vacuumExpired

section

variable {ι τ : Type} [LinearOrder τ] [Add τ] (json : JsonCodec)

def callProgram : SqliteCall τ → Program τ CacheResult
  | .op op => program json op
  | .vacuumExpired => vacuumExpired.map .count

/-- The table, the time, and for each adapter the call it is in with what is left of it. -/
structure Database (ι τ : Type) where
  table : Table τ
  clock : τ
  running : ι → Option (SqliteCall τ × Program τ CacheResult)

inductive Event (ι τ : Type)
  | call (adapter : ι) (call : SqliteCall τ)
  /-- The adapter reads the clock, executes a statement or returns. -/
  | step (adapter : ι)
  | tick (now : τ)

variable [DecidableEq ι]

def Database.goOn (s : Database ι τ) (i : ι) (call : SqliteCall τ)
    (rest : Program τ CacheResult) : Database ι τ :=
  { s with running := Function.update s.running i (some (call, rest)) }

omit [Add τ] in
def advance (s : Database ι τ) (i : ι) (call : SqliteCall τ) :
    Program τ CacheResult → Database ι τ
  | .done _ => { s with running := Function.update s.running i none }
  | .clock next => s.goOn i call (next s.clock)
  | .selectRow key next => s.goOn i call (next (selectedRow key s.table))
  | .selectKeys next => s.goOn i call (next (selectedKeys s.table))
  | .selectCount next => s.goOn i call (next s.table.rows.length)
  | .write statement next =>
    { s with table := statement.apply s.table }.goOn i call (next (statement.rowcount s.table))

def step (s : Database ι τ) : Event ι τ → Option (Database ι τ)
  | .call i call =>
    match s.running i with
    | none => some (s.goOn i call (callProgram json call))
    | some _ => none
  | .step i => (s.running i).map fun running => advance s i running.1 running.2
  | .tick now => if s.clock ≤ now then some { s with clock := now } else none

def machine (table : Table τ) (clock : τ) : Machine (Database ι τ) (Event ι τ) where
  init := ⟨table, clock, fun _ => none⟩
  step := step json

def Program.nextWrite {ρ : Type} : Program τ ρ → Option (SqlWrite τ)
  | .write statement _ => some statement
  | _ => none

def executed (s : Database ι τ) : Event ι τ → Option (SqliteCall τ × SqlWrite τ)
  | .step i => (s.running i).bind fun running => running.2.nextWrite.map fun w => (running.1, w)
  | _ => none

/-- For each key the value and the row that a `set` wrote, until another `set`, a `delete` or
a `clear` executes its statement. -/
abbrev Written (τ : Type) := String → Option (PyValue × SqliteRow τ)

def Written.track (written : Written τ) : Option (SqliteCall τ × SqlWrite τ) → Written τ
  | some (.op (.set _ value _), .upsert key row) => Function.update written key (some (value, row))
  | some (.op (.delete _), .deleteKey key) => Function.update written key none
  | some (.op .clear, .deleteAll) => fun _ => none
  | _ => written

def lastSet : List (Database ι τ × Event ι τ) → Written τ
  | [] => fun _ => none
  | (s, event) :: h => (lastSet h).track (executed s event)

/-- The key whose row a `get` or a `has` deletes with this event. -/
def evicts (s : Database ι τ) (event : Event ι τ) : Option String :=
  match executed s event with
  | some (.op (.get _), .deleteKey key) => some key
  | some (.op (.has _), .deleteKey key) => some key
  | _ => none

end

variable {τ : Type} [LinearOrder τ]

/-- What a step, other than an eviction, does to the table and to what is written. -/
inductive Effect (json : JsonCodec) (now : τ) (table : Table τ) (written : Written τ) :
    Table τ → Written τ → Prop
  | idle : Effect json now table written table written
  | set (key : String) (value : PyValue) (row : SqliteRow τ)
    (h : json.dumps value = .ok row.value) :
    Effect json now table written (table.put key row)
      (Function.update written key (some (value, row)))
  | delete (key : String) :
    Effect json now table written (table.erase key) (Function.update written key none)
  | clear : Effect json now table written (table.deleteWhere fun _ _ => true) fun _ => none
  | vacuum (reading : τ) (h : reading ≤ now) :
    Effect json now table written (table.deleteWhere fun _ row => row.expired reading) written

theorem SqliteRow.expired_mono {now later : τ} (hle : now ≤ later) {row : SqliteRow τ}
    (h : row.expired now = true) : row.expired later = true := by
  have hstale : (⟨row.value, row.expiresAt⟩ : ExpiringEntry String τ).stale now = true := h
  exact ExpiringEntry.stale_mono hle hstale

/-- What a `set` wrote is in the table, unless its deadline has been reached. -/
def Survives (json : JsonCodec) (now : τ) (table : Table τ) (written : Written τ) : Prop :=
  ∀ key value row, written key = some (value, row) →
    json.dumps value = .ok row.value ∧
      (row.expired now = false → table.find? key = some row)

theorem Survives.later {json : JsonCodec} {now later : τ} {table : Table τ} {written : Written τ}
    (h : Survives json now table written) (hle : now ≤ later) :
    Survives json later table written := by
  intro key value row hwritten
  obtain ⟨htext, hrow⟩ := h key value row hwritten
  refine ⟨htext, fun hfresh => hrow ?_⟩
  rw [Bool.eq_false_iff] at hfresh ⊢
  exact fun hexpired => hfresh (SqliteRow.expired_mono hle hexpired)

theorem Survives.effect {json : JsonCodec} {now : τ} {table table' : Table τ}
    {written written' : Written τ} (h : Survives json now table written)
    (heffect : Effect json now table written table' written') :
    Survives json now table' written' := by
  intro key value row hwritten
  cases heffect with
  | idle => exact h key value row hwritten
  | set k v r hdumps =>
    rw [KeyedTable.find?_put]
    by_cases hkey : key = k
    · rw [hkey, Function.update_self, Option.some.injEq, Prod.mk.injEq] at hwritten
      obtain ⟨rfl, rfl⟩ := hwritten
      exact ⟨hdumps, fun _ => if_pos hkey⟩
    · rw [Function.update_of_ne hkey] at hwritten
      rw [if_neg hkey]
      exact h key value row hwritten
  | delete k =>
    rw [KeyedTable.find?_erase]
    by_cases hkey : key = k
    · rw [hkey, Function.update_self] at hwritten
      cases hwritten
    · rw [Function.update_of_ne hkey] at hwritten
      rw [if_neg hkey]
      exact h key value row hwritten
  | clear => cases hwritten
  | vacuum reading hle =>
    obtain ⟨htext, hrow⟩ := h key value row hwritten
    refine ⟨htext, fun hfresh => ?_⟩
    -- the clock of the deletion was read before now, and rows only get older
    have hunread : row.expired reading = false := by
      rw [Bool.eq_false_iff] at hfresh ⊢
      exact fun hexpired => hfresh (SqliteRow.expired_mono hle hexpired)
    rw [KeyedTable.find?_deleteWhere, hrow hfresh, Option.filter_some, hunread]
    rfl

theorem Survives.evict {json : JsonCodec} {now : τ} {table : Table τ} {written : Written τ}
    (h : Survives json now table written) {key : String}
    (hdue : ∀ row, table.find? key = some row → row.expired now = true) :
    Survives json now (table.erase key) written := by
  intro k value row hwritten
  obtain ⟨htext, hrow⟩ := h k value row hwritten
  refine ⟨htext, fun hfresh => ?_⟩
  have hk : k ≠ key := by
    rintro rfl
    rw [hdue row (hrow hfresh)] at hfresh
    cases hfresh
  rw [KeyedTable.find?_erase, if_neg hk]
  exact hrow hfresh

/-- A row of the key that is not due at `now` is one that a `set` of this run wrote. -/
def Superseded (table : Table τ) (written : Written τ) (key : String) (now : τ) : Prop :=
  ∀ row, table.find? key = some row → row.expired now = false →
    ∃ value, written key = some (value, row)

theorem Superseded.effect {json : JsonCodec} {now reading : τ} {table table' : Table τ}
    {written written' : Written τ} {key : String} (h : Superseded table written key reading)
    (heffect : Effect json now table written table' written') :
    Superseded table' written' key reading := by
  intro row hrow hfresh
  cases heffect with
  | idle => exact h row hrow hfresh
  | set k v r hdumps =>
    rw [KeyedTable.find?_put] at hrow
    by_cases hkey : key = k
    · -- a row that is put is the row last written
      rw [if_pos hkey, Option.some.injEq] at hrow
      exact ⟨v, by rw [hkey, Function.update_self, hrow]⟩
    · rw [if_neg hkey] at hrow
      rw [Function.update_of_ne hkey]
      exact h row hrow hfresh
  | delete k =>
    rw [KeyedTable.find?_erase] at hrow
    by_cases hkey : key = k
    · rw [if_pos hkey] at hrow
      cases hrow
    · rw [if_neg hkey] at hrow
      rw [Function.update_of_ne hkey]
      exact h row hrow hfresh
  | clear =>
    rw [KeyedTable.find?_deleteWhere_all] at hrow
    cases hrow
  | vacuum t hle =>
    rw [KeyedTable.find?_deleteWhere, Option.filter_eq_some_iff] at hrow
    exact h row hrow.1 hfresh

theorem Superseded.evict {table : Table τ} {written : Written τ} {key : String} {reading : τ}
    (h : Superseded table written key reading) (k : String) :
    Superseded (table.erase k) written key reading := by
  intro row hrow hfresh
  rw [KeyedTable.find?_erase] at hrow
  split at hrow
  · cases hrow
  · exact h row hrow hfresh

/-- Every write of the program, from this clock reading on, is as `ok` says. -/
def Program.Writes {ρ : Type} (ok : τ → SqlWrite τ → Prop) : τ → Program τ ρ → Prop
  | _, .done _ => True
  | now, .clock next => ∀ later, now ≤ later → (next later).Writes ok later
  | now, .selectRow _ next => ∀ row, (next row).Writes ok now
  | now, .selectKeys next => ∀ keys, (next keys).Writes ok now
  | now, .selectCount next => ∀ n, (next n).Writes ok now
  | now, .write statement next => ok now statement ∧ ∀ n, (next n).Writes ok now

theorem Program.Writes.later {ρ : Type} {ok : τ → SqlWrite τ → Prop}
    (hok : ∀ now later statement, now ≤ later → ok now statement → ok later statement)
    {now later : τ} (hle : now ≤ later) {p : Program τ ρ} (h : p.Writes ok now) :
    p.Writes ok later := by
  induction p with
  | done result => trivial
  | clock next ih => exact fun t ht => h t (hle.trans ht)
  | selectRow key next ih => exact fun row => ih row (h row)
  | selectKeys next ih => exact fun keys => ih keys (h keys)
  | selectCount next ih => exact fun n => ih n (h n)
  | write statement next ih => exact ⟨hok _ _ _ hle h.1, fun n => ih n (h.2 n)⟩

/-- The call is a `get` or a `has` of the key. -/
def Reads (call : SqliteCall τ) (key : String) : Prop :=
  call = .op (.get key) ∨ call = .op (.has key)

/-- The writes of the calls that are neither `get` nor `has`. -/
def Allowed (json : JsonCodec) (call : SqliteCall τ) (now : τ) (statement : SqlWrite τ) : Prop :=
  match call, statement with
  | .op (.set key value _), .upsert k row => k = key ∧ json.dumps value = .ok row.value
  | .op (.delete key), .deleteKey k => k = key
  | .op .clear, .deleteAll => True
  | .op .keys, .deleteExpired reading => reading ≤ now
  | .op .size, .deleteExpired reading => reading ≤ now
  | .vacuumExpired, .deleteExpired reading => reading ≤ now
  | _, _ => False

theorem Allowed.later (json : JsonCodec) (call : SqliteCall τ) (now later : τ)
    (statement : SqlWrite τ) (hle : now ≤ later) (h : Allowed json call now statement) :
    Allowed json call later statement := by
  unfold Allowed at h ⊢
  split at h
  · exact h
  · exact h
  · exact h
  · exact h.trans hle
  · exact h.trans hle
  · exact h.trans hle
  · exact h.elim

/-- How far an adapter is in a call, and what it may rely on there. -/
inductive Stage (json : JsonCodec) (table : Table τ) (written : Written τ) (now : τ) :
    SqliteCall τ → Program τ CacheResult → Prop
  | done (call : SqliteCall τ) (result : CacheResult) :
    Stage json table written now call (.done result)
  | reading {call : SqliteCall τ} {key : String} (f : Except PyError PyValue → CacheResult)
    (hcall : Reads call key) : Stage json table written now call ((get json key).map f)
  /-- The row that was read has a deadline. -/
  | selected {call : SqliteCall τ} {key : String} (f : Except PyError PyValue → CacheResult)
    (hcall : Reads call key) (valueText : String) (expiresAt : τ)
    (hrow : ∀ reading, expiresAt ≤ reading → Superseded table written key reading) :
    Stage json table written now call
      (.clock fun reading => Program.map f
        (if reading ≥ expiresAt then evict key else .done (json.loads valueText)))
  /-- The row that was read was due. -/
  | evicting {call : SqliteCall τ} {key : String} (f : Except PyError PyValue → CacheResult)
    (hcall : Reads call key) (hrow : Superseded table written key now) :
    Stage json table written now call ((evict key).map f)
  | writing {call : SqliteCall τ} {p : Program τ CacheResult}
    (hwrites : p.Writes (Allowed json call) now) : Stage json table written now call p

theorem stage_callProgram [Add τ] (json : JsonCodec) (table : Table τ) (written : Written τ)
    (now : τ) (call : SqliteCall τ) :
    Stage json table written now call (callProgram json call) := by
  cases call with
  | vacuumExpired => exact .writing fun later _ => ⟨le_rfl, fun _ => trivial⟩
  | op op =>
    cases op with
    | get key => exact .reading _ (.inl rfl)
    | has key => exact .reading _ (.inr rfl)
    | set key value ttlSeconds =>
      refine .writing fun later _ => ?_
      cases hdumps : json.dumps value with
      | error e => trivial
      | ok text => exact ⟨⟨rfl, hdumps⟩, fun _ => trivial⟩
    | delete key => exact .writing ⟨rfl, fun _ => trivial⟩
    | keys => exact .writing fun later _ => ⟨le_rfl, fun _ _ => trivial⟩
    | size => exact .writing fun later _ => ⟨le_rfl, fun _ _ => trivial⟩
    | clear => exact .writing ⟨trivial, fun _ => trivial⟩

theorem Stage.keep {json : JsonCodec} {table table' : Table τ} {written written' : Written τ}
    {now later : τ} (hle : now ≤ later)
    (hkeep : ∀ key reading, Superseded table written key reading →
      Superseded table' written' key reading)
    {call : SqliteCall τ} {p : Program τ CacheResult} (h : Stage json table written now call p) :
    Stage json table' written' later call p := by
  cases h with
  | done => exact .done _ _
  | reading f hcall => exact .reading f hcall
  | selected f hcall valueText expiresAt hrow =>
    exact .selected f hcall valueText expiresAt fun reading hdue => hkeep _ _ (hrow reading hdue)
  | evicting f hcall hrow =>
    refine .evicting f hcall (hkeep _ _ fun row hfind hfresh => hrow row hfind ?_)
    rw [Bool.eq_false_iff] at hfresh ⊢
    exact fun hexpired => hfresh (SqliteRow.expired_mono hle hexpired)
  | writing hwrites => exact .writing (hwrites.later (Allowed.later json _) hle)

/-- What `get` goes on with once it has its row. -/
theorem Stage.afterSelect {json : JsonCodec} {table : Table τ} (written : Written τ) (now : τ)
    {call : SqliteCall τ} {key : String} (f : Except PyError PyValue → CacheResult)
    (hcall : Reads call key) {next : Option (String × Option τ) → Program τ CacheResult}
    (hnext : (get json key).map f = .selectRow key next) :
    Stage json table written now call (next (selectedRow key table)) := by
  cases hnext
  rw [selectedRow]
  cases hfind : table.find? key with
  | none => exact .done _ _
  | some row =>
    rw [Option.map_some]
    cases hexpires : row.expiresAt with
    | none => exact .done _ _
    | some expiresAt =>
      refine .selected f hcall row.value expiresAt fun reading hdue other hother hfresh => ?_
      rw [hfind, Option.some.injEq] at hother
      rw [← hother, SqliteRow.expired, hexpires] at hfresh
      exact absurd hdue (of_decide_eq_false hfresh)

section

variable {json : JsonCodec} {table : Table τ} {written : Written τ} {now : τ} {call : SqliteCall τ}

theorem Stage.clock {next : τ → Program τ CacheResult}
    (h : Stage json table written now call (.clock next)) :
    Stage json table written now call (next now) := by
  generalize hp : Program.clock next = p at h
  cases h with
  | done => cases hp
  | reading => cases hp
  | selected f hcall valueText expiresAt hrow =>
    cases hp
    by_cases hdue : now ≥ expiresAt
    · simp only [if_pos hdue]
      exact .evicting f hcall (hrow now hdue)
    · simp only [if_neg hdue]
      exact .done _ _
  | evicting => cases hp
  | writing hwrites =>
    cases hp
    exact .writing (hwrites now le_rfl)

theorem Stage.selectRow {key : String} {next : Option (String × Option τ) → Program τ CacheResult}
    (h : Stage json table written now call (.selectRow key next)) :
    Stage json table written now call (next (selectedRow key table)) := by
  generalize hp : Program.selectRow key next = p at h
  cases h with
  | done => cases hp
  | reading f hcall =>
    have hkey := hp
    cases hkey
    exact Stage.afterSelect written now f hcall hp.symm
  | selected => cases hp
  | evicting => cases hp
  | writing hwrites =>
    cases hp
    exact .writing (hwrites _)

theorem Stage.selectKeys {next : List String → Program τ CacheResult}
    (h : Stage json table written now call (.selectKeys next)) (keys : List String) :
    Stage json table written now call (next keys) := by
  generalize hp : Program.selectKeys next = p at h
  cases h with
  | done => cases hp
  | reading => cases hp
  | selected => cases hp
  | evicting => cases hp
  | writing hwrites =>
    cases hp
    exact .writing (hwrites keys)

theorem Stage.selectCount {next : ℕ → Program τ CacheResult}
    (h : Stage json table written now call (.selectCount next)) (n : ℕ) :
    Stage json table written now call (next n) := by
  generalize hp : Program.selectCount next = p at h
  cases h with
  | done => cases hp
  | reading => cases hp
  | selected => cases hp
  | evicting => cases hp
  | writing hwrites =>
    cases hp
    exact .writing (hwrites n)

/-- A write is an eviction, or it is one that its call is there to make. -/
theorem Stage.write {statement : SqlWrite τ} {next : ℕ → Program τ CacheResult}
    (h : Stage json table written now call (.write statement next)) :
    (∃ key, statement = .deleteKey key ∧ Reads call key ∧ Superseded table written key now ∧
        ∀ n, ∃ result, next n = .done result) ∨
      (Allowed json call now statement ∧ ∀ n, (next n).Writes (Allowed json call) now) := by
  generalize hp : Program.write statement next = p at h
  cases h with
  | done => cases hp
  | reading => cases hp
  | selected => cases hp
  | evicting f hcall hrow =>
    cases hp
    exact .inl ⟨_, rfl, hcall, hrow, fun _ => ⟨_, rfl⟩⟩
  | writing hwrites =>
    cases hp
    exact .inr hwrites

theorem Allowed.effect {statement : SqlWrite τ} (h : Allowed json call now statement)
    (table : Table τ) (written : Written τ) :
    Effect json now table written (statement.apply table)
      (written.track (some (call, statement))) := by
  unfold Allowed at h
  split at h
  · rename_i value _ _ row
    obtain ⟨rfl, hdumps⟩ := h
    exact .set _ value row hdumps
  · subst h
    exact .delete _
  · exact .clear
  · exact .vacuum _ h
  · exact .vacuum _ h
  · exact .vacuum _ h
  · exact h.elim

end

section

variable {ι : Type} (json : JsonCodec)

def Staged (h : List (Database ι τ × Event ι τ)) (s : Database ι τ) : Prop :=
  ∀ i call p, s.running i = some (call, p) →
    Stage json s.table (lastSet h) s.clock call p

/-- What a step does: it evicts a key, or it has one of the other effects. -/
inductive Stepped (h : List (Database ι τ × Event ι τ)) (s : Database ι τ) (event : Event ι τ)
    (s' : Database ι τ) : Prop
  | effect (hclock : s.clock ≤ s'.clock) (hevicts : evicts s event = none)
    (heffect : Effect json s.clock s.table (lastSet h) s'.table (lastSet ((s, event) :: h)))
  | evict (key : String) (hclock : s'.clock = s.clock) (hevicts : evicts s event = some key)
    (hrow : Superseded s.table (lastSet h) key s.clock) (htable : s'.table = s.table.erase key)
    (hwritten : lastSet ((s, event) :: h) = lastSet h)

theorem Stepped.clock_le {h : List (Database ι τ × Event ι τ)} {s s' : Database ι τ}
    {event : Event ι τ} (hstepped : Stepped json h s event s') : s.clock ≤ s'.clock := by
  cases hstepped with
  | effect hclock => exact hclock
  | evict key hclock => exact hclock.ge

theorem Stepped.superseded {h : List (Database ι τ × Event ι τ)} {s s' : Database ι τ}
    {event : Event ι τ} (hstepped : Stepped json h s event s') (key : String) (reading : τ)
    (hrow : Superseded s.table (lastSet h) key reading) :
    Superseded s'.table (lastSet ((s, event) :: h)) key reading := by
  cases hstepped with
  | effect hclock hevicts heffect => exact hrow.effect heffect
  | evict k hclock hevicts hother htable hwritten =>
    rw [htable, hwritten]
    exact hrow.evict k

theorem Stepped.staged [DecidableEq ι] {h : List (Database ι τ × Event ι τ)} {s s' : Database ι τ}
    {event : Event ι τ} (hstepped : Stepped json h s event s') (hstaged : Staged json h s) {i : ι}
    {running : Option (SqliteCall τ × Program τ CacheResult)}
    (hrunning : s'.running = Function.update s.running i running)
    (hown : ∀ call p, running = some (call, p) →
      Stage json s'.table (lastSet ((s, event) :: h)) s'.clock call p) :
    Staged json ((s, event) :: h) s' := by
  intro j call p hj
  rw [hrunning] at hj
  by_cases hij : j = i
  · rw [hij, Function.update_self] at hj
    exact hown call p hj
  · rw [Function.update_of_ne hij] at hj
    exact (hstaged j call p hj).keep hstepped.clock_le hstepped.superseded

variable {json}

theorem stepped_of_executed_none {h : List (Database ι τ × Event ι τ)} {s s' : Database ι τ}
    {event : Event ι τ} (hexecuted : executed s event = none) (htable : s'.table = s.table)
    (hclock : s.clock ≤ s'.clock) : Stepped json h s event s' := by
  refine .effect hclock (by rw [evicts, hexecuted]) ?_
  rw [htable, lastSet, hexecuted]
  exact .idle

variable [DecidableEq ι]

theorem advance_spec {h : List (Database ι τ × Event ι τ)} {s : Database ι τ} {i : ι}
    {call : SqliteCall τ} {p : Program τ CacheResult} (hrunning : s.running i = some (call, p))
    (hstaged : Staged json h s) :
    Stepped json h s (.step i) (advance s i call p) ∧
      Staged json ((s, .step i) :: h) (advance s i call p) := by
  have hstage := hstaged i call p hrunning
  have hexecuted : executed s (.step i) = p.nextWrite.map fun w => (call, w) := by
    rw [executed, hrunning, Option.bind_some]
  -- the adapter goes on with `q`, and has written nothing
  have hquiet (q : Option (SqliteCall τ × Program τ CacheResult)) (s' : Database ι τ)
      (hnone : executed s (.step i) = none)
      (hs' : s' = { s with running := Function.update s.running i q })
      (hown : ∀ c r, q = some (c, r) → Stage json s.table (lastSet h) s.clock c r) :
      Stepped json h s (.step i) s' ∧ Staged json ((s, .step i) :: h) s' := by
    subst hs'
    have hstepped : Stepped json h s (.step i)
        { s with running := Function.update s.running i q } :=
      stepped_of_executed_none hnone rfl le_rfl
    refine ⟨hstepped, hstepped.staged json hstaged rfl fun c r hq => ?_⟩
    exact (hown c r hq).keep le_rfl hstepped.superseded
  have hgoOn (r : Program τ CacheResult) (hr : Stage json s.table (lastSet h) s.clock call r) :
      ∀ c r', some (call, r) = some (c, r') → Stage json s.table (lastSet h) s.clock c r' := by
    rintro c r' heq
    cases heq
    exact hr
  cases p with
  | done result => exact hquiet none _ hexecuted rfl (by simp)
  | clock next => exact hquiet _ _ hexecuted rfl (hgoOn _ hstage.clock)
  | selectRow key next => exact hquiet _ _ hexecuted rfl (hgoOn _ hstage.selectRow)
  | selectKeys next => exact hquiet _ _ hexecuted rfl (hgoOn _ (hstage.selectKeys _))
  | selectCount next => exact hquiet _ _ hexecuted rfl (hgoOn _ (hstage.selectCount _))
  | write statement next =>
    rw [Program.nextWrite, Option.map_some] at hexecuted
    have hwritten : lastSet ((s, .step i) :: h) = (lastSet h).track (some (call, statement)) := by
      rw [lastSet, hexecuted]
    rcases hstage.write with ⟨key, rfl, hreads, hrow, hdone⟩ | ⟨hallowed, hwrites⟩
    · have hevicts : evicts s (.step i) = some key := by
        rw [evicts, hexecuted]
        rcases hreads with rfl | rfl <;> rfl
      have htrack : (lastSet h).track (some (call, .deleteKey key)) = lastSet h := by
        rcases hreads with rfl | rfl <;> rfl
      have hstepped :
          Stepped json h s (.step i) (advance s i call (.write (.deleteKey key) next)) :=
        .evict key rfl hevicts hrow rfl (hwritten.trans htrack)
      refine ⟨hstepped, hstepped.staged json hstaged rfl fun c r heq => ?_⟩
      obtain ⟨result, hresult⟩ := hdone (SqlWrite.rowcount (.deleteKey key) s.table)
      rw [Option.some.injEq, Prod.mk.injEq] at heq
      rw [← heq.2, hresult]
      exact .done _ _
    · have hevicts : evicts s (.step i) = none := by
        rw [evicts, hexecuted]
        unfold Allowed at hallowed
        split at hallowed <;> first | rfl | exact hallowed.elim
      have hstepped : Stepped json h s (.step i) (advance s i call (.write statement next)) := by
        refine .effect le_rfl hevicts ?_
        rw [hwritten]
        exact hallowed.effect s.table (lastSet h)
      refine ⟨hstepped, hstepped.staged json hstaged rfl fun c r heq => ?_⟩
      rw [Option.some.injEq, Prod.mk.injEq] at heq
      rw [← heq.1, ← heq.2]
      exact .writing (hwrites _)

variable [Add τ]

theorem step_spec {h : List (Database ι τ × Event ι τ)} {s s' : Database ι τ} {event : Event ι τ}
    (hstep : step json s event = some s') (hstaged : Staged json h s) :
    Stepped json h s event s' ∧ Staged json ((s, event) :: h) s' := by
  cases event with
  | call i call =>
    rw [step] at hstep
    split at hstep
    · cases hstep
      have hstepped : Stepped json h s (.call i call) (s.goOn i call (callProgram json call)) :=
        stepped_of_executed_none rfl rfl le_rfl
      refine ⟨hstepped, hstepped.staged json hstaged rfl fun c r heq => ?_⟩
      cases heq
      exact stage_callProgram json _ _ _ call
    · cases hstep
  | step i =>
    rw [step, Option.map_eq_some_iff] at hstep
    obtain ⟨⟨call, p⟩, hrunning, rfl⟩ := hstep
    exact advance_spec hrunning hstaged
  | tick now =>
    rw [step] at hstep
    split at hstep
    · rename_i hle
      cases hstep
      have hstepped : Stepped json h s (.tick now) { s with clock := now } :=
        stepped_of_executed_none rfl rfl hle
      exact ⟨hstepped, fun i call p hi => (hstaged i call p hi).keep hle hstepped.superseded⟩
    · cases hstep

theorem execution_staged {table : Table τ} {clock : τ} {h : List (Database ι τ × Event ι τ)}
    {s : Database ι τ} (hex : (machine json table clock).Execution h s) : Staged json h s := by
  induction hex with
  | start => exact fun i call p hi => by cases hi
  | next _ hstep ih => exact (step_spec hstep ih).2

/-- No `get` or `has` deletes, with this event, a row that is not due. -/
def EvictsDue (s : Database ι τ) (event : Event ι τ) : Prop :=
  ∀ key, evicts s event = some key →
    ∀ row, s.table.find? key = some row → row.expired s.clock = true

/-- What a `set` wrote stays until its deadline in exactly the runs in which every eviction finds
a row that is due. -/
theorem set_survives_iff (table : Table τ) (clock : τ) {h : List (Database ι τ × Event ι τ)}
    {s : Database ι τ} (hex : (machine json table clock).Execution h s) :
    Machine.Throughout (fun h s => Survives json s.clock s.table (lastSet h)) h s ↔
      ∀ p ∈ h, EvictsDue p.1 p.2 := by
  refine hex.throughout_iff (fun key value row hnone => by cases hnone) ?_ ?_
  · intro h s event s' hex hsurvives hguard hstep
    cases (step_spec hstep (execution_staged hex)).1 with
    | effect hclock hevicts heffect => exact (hsurvives.effect heffect).later hclock
    | evict key hclock hevicts hrow htable hwritten =>
      rw [hclock, htable, hwritten]
      exact hsurvives.evict (hguard key hevicts)
  · intro h s event s' hex hsurvives hguard hstep hsurvives'
    unfold EvictsDue at hguard
    push Not at hguard
    obtain ⟨k, hk, row, hfind, hfresh⟩ := hguard
    cases (step_spec hstep (execution_staged hex)).1 with
    | effect hclock hevicts heffect =>
      rw [hevicts] at hk
      cases hk
    | evict key hclock hevicts hrow htable hwritten =>
      rw [hevicts, Option.some.injEq] at hk
      subst hk
      rw [ne_eq, Bool.not_eq_true] at hfresh
      obtain ⟨value, hvalue⟩ := hrow row hfind hfresh
      -- the evicted row was written and has not expired, yet it is gone
      have hlost := (hsurvives' key value row (hwritten ▸ hvalue)).2 (hclock ▸ hfresh)
      rw [htable, KeyedTable.find?_erase, if_pos rfl] at hlost
      cases hlost

end

section

variable {ι : Type} [DecidableEq ι] [Add τ] (json : JsonCodec) (table : Table τ) (clock : τ)

theorem next_advance {i : ι} {call : SqliteCall τ} {p : Program τ CacheResult} {s : Database ι τ}
    (hrunning : s.running i = some (call, p)) :
    (machine json table clock).Next (fun _ _ => True) s (advance s i call p) := by
  refine ⟨.step i, trivial, ?_⟩
  show (s.running i).map _ = _
  rw [hrunning, Option.map_some]

def Database.returned (s : Database ι τ) (i : ι) (table : Table τ) : Database ι τ :=
  { s with table := table, running := Function.update s.running i none }

omit [LinearOrder τ] [Add τ] in
theorem Database.returned_goOn (s : Database ι τ) (i : ι) (call : SqliteCall τ)
    (rest : Program τ CacheResult) (table : Table τ) :
    (s.goOn i call rest).returned i table = s.returned i table := by
  simp only [returned, goOn, Function.update_idem]

/-- A call that no other adapter's statement interrupts does what it does alone on the table. -/
theorem leads_run (i : ι) (call : SqliteCall τ) (p : Program τ CacheResult) (s : Database ι τ)
    (hrunning : s.running i = some (call, p)) :
    (machine json table clock).Leads (fun _ _ => True) s
      (s.returned i (p.run s.clock s.table).2) := by
  have hself (s : Database ι τ) (rest : Program τ CacheResult) :
      (s.goOn i call rest).running i = some (call, rest) := Function.update_self i _ s.running
  -- each step of the program leads to a state in which the rest is running
  induction p generalizing s with
  | done result => exact .single (next_advance json table clock hrunning)
  | clock next ih =>
    have hrest := ih s.clock _ (hself s (next s.clock))
    rw [Database.returned_goOn] at hrest
    exact .head (next_advance json table clock hrunning) hrest
  | selectRow key next ih =>
    have hrest := ih (selectedRow key s.table) _ (hself s _)
    rw [Database.returned_goOn] at hrest
    exact .head (next_advance json table clock hrunning) hrest
  | selectKeys next ih =>
    have hrest := ih (selectedKeys s.table) _ (hself s _)
    rw [Database.returned_goOn] at hrest
    exact .head (next_advance json table clock hrunning) hrest
  | selectCount next ih =>
    have hrest := ih s.table.rows.length _ (hself s _)
    rw [Database.returned_goOn] at hrest
    exact .head (next_advance json table clock hrunning) hrest
  | write statement next ih =>
    have hrest := ih (statement.rowcount s.table) _
      (hself { s with table := statement.apply s.table } _)
    rw [Database.returned_goOn] at hrest
    exact .head (next_advance json table clock hrunning) hrest

end

/-- A reader selects an entry that is due; before it deletes the entry, a writer sets the key. -/
def lostWrite : List (Event ℕ ℤ) :=
  [.call 0 (.op (.set "k" (.bool false) (some 5))), .step 0, .step 0, .step 0, .tick 10,
    .call 1 (.op (.get "k")), .step 1, .step 1,
    .call 0 (.op (.set "k" (.bool true) none)), .step 0, .step 0, .step 1]

theorem set_survives_iff_lostWrite :
    ∃ h s, (machine JsonCodec.literals KeyedTable.empty (0 : ℤ)).record lostWrite = some (h, s) ∧
      (Machine.Throughout
          (fun h s => Survives JsonCodec.literals s.clock s.table (lastSet h)) h s ↔
        ∀ p ∈ h, EvictsDue p.1 p.2) := by
  have hrecord : ((machine JsonCodec.literals KeyedTable.empty (0 : ℤ)).record
    lostWrite).isSome = true := rfl
  obtain ⟨⟨h, s⟩, hrecord⟩ := Option.isSome_iff_exists.mp hrecord
  exact ⟨h, s, hrecord, set_survives_iff _ _ (Machine.execution_record _ hrecord)⟩

/-- The row that the writer wrote has no deadline, and the reader's `DELETE` removed it. -/
theorem not_set_survives :
    ¬ ∀ (h : List (Database ℕ ℤ × Event ℕ ℤ)) (s : Database ℕ ℤ),
      (machine JsonCodec.literals KeyedTable.empty 0).Execution h s →
        Machine.Throughout
          (fun h s => Survives JsonCodec.literals s.clock s.table (lastSet h)) h s := by
  intro hclaim
  have hrecord : ((machine JsonCodec.literals KeyedTable.empty (0 : ℤ)).record lostWrite).map
      (fun p => (p.2.table.find? "k", lastSet p.1 "k")) =
        some (none, some (.bool true, ⟨"true", 10, none⟩)) := rfl
  obtain ⟨⟨h, s⟩, hrecord, heq⟩ := Option.map_eq_some_iff.mp hrecord
  rw [Prod.mk.injEq] at heq
  have hlast := (hclaim h s (Machine.execution_record _ hrecord)).last
  have hrow := (hlast "k" _ _ heq.2).2 rfl
  rw [heq.1] at hrow
  cases hrow

end AtomicMemory.SqliteStorage
