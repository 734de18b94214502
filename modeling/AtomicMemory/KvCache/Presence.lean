import AtomicMemory.KvCache.Interchangeable

-- `has` looks at the value that `get` gives, `keys` and `size` at the deadlines, and `delete` at
-- what it removes. A stored `None` is there for all of them but `has`.

open PyValue hiding none

namespace AtomicMemory

namespace CacheResult

theorem eq_flag_of_answer {r : CacheResult} {b : Bool} (h : r.answer = .flag b) : r = .flag b := by
  cases r <;> cases h
  rfl

theorem eq_count_of_answer {r : CacheResult} {n : ℕ} (h : r.answer = .count n) : r = .count n := by
  cases r <;> cases h
  rfl

theorem eq_keys_of_answer {r : CacheResult} {K : Set String} (h : r.answer = .keys K) :
    ∃ ks, r = .keys ks ∧ ∀ key, key ∈ ks ↔ key ∈ K := by
  cases r <;> cases h
  exact ⟨_, rfl, fun _ => Iff.rfl⟩

end CacheResult

namespace Cache.Store

variable {τ : Type}

def Reads (P : Except PyError PyValue → Prop) (s : Store τ) : Prop :=
  ∀ key entry, s key = some entry → P entry.value

variable [LinearOrder τ]

/-- No entry that is not stale reads as `None`. -/
def NoNull (now : τ) (s : Store τ) : Prop :=
  ∀ key entry, s key = some entry → entry.stale now = false → entry.value ≠ .ok .none

theorem live_eq_some_iff {now : τ} {s : Store τ} {key : String}
    {entry : ExpiringEntry (Except PyError PyValue) τ} :
    ExpiringStore.live now s key = some entry ↔ s key = some entry ∧ entry.stale now = false := by
  rw [ExpiringStore.live, Option.filter_eq_some_iff, Bool.not_eq_true']

theorem Reads.live {P : Except PyError PyValue → Prop} {s : Store τ} (h : s.Reads P) (now : τ) :
    Reads P (ExpiringStore.live now s) :=
  fun key entry hentry => h key entry (live_eq_some_iff.mp hentry).1

omit [LinearOrder τ] in
open Function in
theorem Reads.update {P : Except PyError PyValue → Prop} {s : Store τ} (h : s.Reads P)
    {key : String} {entry : Option (ExpiringEntry (Except PyError PyValue) τ)}
    (hentry : ∀ e, entry = some e → P e.value) : Reads P (update s key entry) := by
  intro other e he
  by_cases hother : other = key
  · subst hother
    rw [update_self] at he
    exact hentry e he
  · rw [update_of_ne hother] at he
    exact h other e he

variable [Add τ] {stored : PyValue → Except PyError (Except PyError PyValue)}

/-- A call keeps what the entries read as, when what it sets is of the kind. -/
theorem Reads.step {P : Except PyError PyValue → Prop} {s : Store τ} (h : s.Reads P) (now : τ)
    {op : CacheOp τ} (hset : ∀ key value ttlSeconds, op = .set key value ttlSeconds →
      ∀ reads, stored value = .ok reads → P reads) :
    Reads P (Cache.step stored now op s).2 := by
  cases op with
  | get key => exact h.update fun e he => h.live now key e he
  | set key value ttlSeconds =>
    rw [Cache.step]
    cases hstored : stored value with
    | error e => exact h
    | ok reads =>
      apply h.update
      rintro e ⟨⟩
      exact hset key value ttlSeconds rfl reads hstored
  | delete key => exact h.update fun e he => by cases he
  | has key => exact h.update fun e he => h.live now key e he
  | keys => exact h.live now
  | size => exact h.live now
  | clear => exact fun key e he => by cases he

end Cache.Store

namespace CacheAdapter

variable {τ : Type}

def after (A : CacheAdapter τ) : List (τ × CacheOp τ) → A.State → A.State
  | [], s => s
  | (now, op) :: rest, s => A.after rest (A.call now op s).2

def Sets (P : PyValue → Prop) (calls : List (τ × CacheOp τ)) : Prop :=
  ∀ now key value ttlSeconds, (now, CacheOp.set key value ttlSeconds) ∈ calls → P value

/-- At the clock reading: `has` holds of the keys that are listed and of no others, they are
listed once and counted, and `delete` of one of them says what `has` says. -/
def PresenceAgrees (A : CacheAdapter τ) (now : τ) (s : A.State) : Prop :=
  ∃ keys, (A.call now .keys s).1 = .keys keys ∧ keys.Nodup ∧
    (A.call now .size s).1 = .count keys.length ∧
    ∀ key, (A.call now (.has key) s).1 = .flag (decide (key ∈ keys)) ∧
      (key ∈ keys → (A.call now (.delete key) s).1 = (A.call now (.has key) s).1)

def ListsOnce (A : CacheAdapter τ) : Prop :=
  ∀ now s keys, (A.call now .keys s).1 = .keys keys → keys.Nodup

variable [LinearOrder τ] [Add τ] {A : CacheAdapter τ}
  {stored : PyValue → Except PyError (Except PyError PyValue)} (R : A.Refines stored)

open Cache

theorem Refines.reads_after {P : Except PyError PyValue → Prop} {calls : List (τ × CacheOp τ)}
    (hset : Sets (fun value => ∀ reads, stored value = .ok reads → P reads) calls) {s : A.State}
    (hs : (R.store s).Reads P) : (R.store (A.after calls s)).Reads P := by
  induction calls generalizing s with
  | nil => exact hs
  | cons call rest ih =>
    obtain ⟨now, op⟩ := call
    refine ih (fun now' key value ttlSeconds hmem =>
      hset now' key value ttlSeconds (List.mem_cons_of_mem _ hmem)) ?_
    rw [(R.call now op s).2]
    refine hs.step now fun key value ttlSeconds hop => ?_
    subst hop
    exact hset now key value ttlSeconds List.mem_cons_self

/-- What `has` says of a key whose entry can be read. -/
theorem Refines.has_eq (now : τ) {s : A.State} (hreads : (R.store s).Reads (∃ v, · = .ok v))
    (key : String) : ∃ v, Store.read (ExpiringStore.live now (R.store s)) key = .ok v ∧
      (A.call now (.has key) s).1 = .flag !v.isNone := by
  obtain ⟨v, hv⟩ : ∃ v, Store.read (ExpiringStore.live now (R.store s)) key = .ok v := by
    cases hlive : ExpiringStore.live now (R.store s) key with
    | none => exact ⟨.none, Store.read_none hlive⟩
    | some entry =>
      rw [Store.read_some hlive]
      exact hreads.live now key entry hlive
  refine ⟨v, hv, CacheResult.eq_flag_of_answer ?_⟩
  rw [(R.call now (.has key) s).1, Cache.step, hv]
  rfl

theorem ncard_of_nodup {α : Type} {l : List α} (h : l.Nodup) : {a | a ∈ l}.ncard = l.length := by
  classical
  rw [← List.toFinset_card_of_nodup h, ← Set.ncard_coe_finset, List.coe_toFinset]

theorem Refines.presence_iff (honce : A.ListsOnce) (now : τ) {s : A.State}
    (hreads : (R.store s).Reads (∃ v, · = .ok v)) :
    A.PresenceAgrees now s ↔ (R.store s).NoNull now := by
  obtain ⟨keys, hkeys, hmem⟩ := CacheResult.eq_keys_of_answer (R.call now .keys s).1
  have hmem (key : String) :
      key ∈ keys ↔ (ExpiringStore.live now (R.store s) key).isSome = true := hmem key
  constructor
  · rintro ⟨keys', hkeys', -, -, hhas⟩ key entry hentry hfresh hvalue
    obtain rfl : keys = keys' := CacheResult.keys.inj (hkeys.symm.trans hkeys')
    have hlive : ExpiringStore.live now (R.store s) key = some entry :=
      Store.live_eq_some_iff.mpr ⟨hentry, hfresh⟩
    have hkey : key ∈ keys := (hmem key).mpr (by rw [hlive, Option.isSome_some])
    obtain ⟨v, hv, hflag⟩ := R.has_eq now hreads key
    rw [Store.read_some hlive, hvalue] at hv
    cases hv
    have htrue := CacheResult.flag.inj (hflag.symm.trans (hhas key).1)
    rw [decide_eq_true hkey] at htrue
    cases htrue
  · intro hnull
    have honce := honce now s keys hkeys
    have hsize : (A.call now .size s).1 = .count keys.length := by
      apply CacheResult.eq_count_of_answer
      rw [(R.call now .size s).1, ← ncard_of_nodup honce]
      simp only [Cache.step, hmem]
    refine ⟨keys, hkeys, honce, hsize, fun key => ?_⟩
    obtain ⟨v, hv, hflag⟩ := R.has_eq now hreads key
    cases hlive : ExpiringStore.live now (R.store s) key with
    | none =>
      have hkey : key ∉ keys := by rw [hmem, hlive]; exact Bool.false_ne_true
      rw [Store.read_none hlive] at hv
      cases hv
      refine ⟨?_, fun h => absurd h hkey⟩
      rw [hflag, decide_eq_false hkey]
      rfl
    | some entry =>
      obtain ⟨hentry, hfresh⟩ := Store.live_eq_some_iff.mp hlive
      have hkey : key ∈ keys := by rw [hmem, hlive]; rfl
      have hpresent : v.isNone = false := by
        rw [Bool.eq_false_iff, ne_eq, isNone_iff]
        rintro rfl
        rw [Store.read_some hlive] at hv
        exact hnull key entry hentry hfresh hv
      have hdelete : (A.call now (.delete key) s).1 = .flag true := by
        apply CacheResult.eq_flag_of_answer
        rw [(R.call now (.delete key) s).1, Cache.step, hentry, Option.isSome_some]
      rw [hdelete, hflag, hpresent, decide_eq_true hkey]
      exact ⟨rfl, fun _ => rfl⟩

/-- After calls whose values survive being stored, the answers agree unless a `None` is there. -/
theorem Refines.presence_after_iff (honce : A.ListsOnce) {calls : List (τ × CacheOp τ)}
    (hvalues : Sets (fun value => stored value = .ok (.ok value)) calls) (now : τ) :
    A.PresenceAgrees now (A.after calls A.init) ↔
      (R.store (A.after calls A.init)).NoNull now := by
  apply R.presence_iff honce
  refine R.reads_after (fun now' key value ttlSeconds hmem reads hstored => ?_) ?_
  · rw [hvalues now' key value ttlSeconds hmem] at hstored
    exact ⟨value, (Except.ok.inj hstored).symm⟩
  · rw [R.init]
    exact fun key entry hentry => by cases hentry

/-- No `None` is there when none was set. -/
theorem Refines.noNull_after {calls : List (τ × CacheOp τ)}
    (hvalues : Sets (fun value => stored value = .ok (.ok value)) calls)
    (hnull : Sets (· ≠ .none) calls) (now : τ) :
    (R.store (A.after calls A.init)).NoNull now := by
  have hreads : (R.store (A.after calls A.init)).Reads (· ≠ .ok .none) := by
    refine R.reads_after (fun now' key value ttlSeconds hmem reads hstored => ?_) ?_
    · rw [hvalues now' key value ttlSeconds hmem] at hstored
      cases hstored
      intro h
      exact hnull now' key value ttlSeconds hmem (Except.ok.inj h)
    · rw [R.init]
      exact fun key entry hentry => by cases hentry
  exact fun key entry hentry _ => hreads key entry hentry

end CacheAdapter

open CacheAdapter

variable {τ : Type} [LinearOrder τ] [Add τ]

theorem MemoryStorage.listsOnce : (MemoryStorage.adapter τ).ListsOnce := by
  rintro now data keys ⟨⟩
  exact KeyedTable.keys_nodup _

theorem SqliteStorage.listsOnce (json : JsonCodec) :
    (SqliteStorage.adapter json : CacheAdapter τ).ListsOnce := by
  rintro now table keys ⟨⟩
  rw [selectedKeys, (List.mergeSort_perm _ _).nodup_iff]
  exact KeyedTable.keys_nodup _

theorem presence_agrees_iff (json : JsonCodec) (calls : List (τ × CacheOp τ))
    (hvalues : Sets json.RoundTrips calls) :
    (∀ now, (MemoryStorage.adapter τ).PresenceAgrees now
        ((MemoryStorage.adapter τ).after calls .empty) ↔
      (MemoryStorage.store ((MemoryStorage.adapter τ).after calls .empty)).NoNull now) ∧
    (∀ now, (SqliteStorage.adapter json).PresenceAgrees now
        ((SqliteStorage.adapter json).after calls .empty) ↔
      (SqliteStorage.store json ((SqliteStorage.adapter json).after calls .empty)).NoNull now) ∧
    (Sets (· ≠ .none) calls → ∀ now,
      (MemoryStorage.adapter τ).PresenceAgrees now
        ((MemoryStorage.adapter τ).after calls .empty) ∧
      (SqliteStorage.adapter json).PresenceAgrees now
        ((SqliteStorage.adapter json).after calls .empty)) := by
  have hmemory : Sets (fun value => MemoryStorage.stored value = .ok (.ok value)) calls :=
    fun _ _ _ _ _ => rfl
  have hsqlite : Sets (fun value => SqliteStorage.stored json value = .ok (.ok value)) calls :=
    fun now key value ttlSeconds hmem => SqliteStorage.stored_eq (hvalues now key value _ hmem)
  have hmemoryIff := MemoryStorage.refines.presence_after_iff MemoryStorage.listsOnce hmemory
  have hsqliteIff :=
    (SqliteStorage.refines json).presence_after_iff (SqliteStorage.listsOnce json) hsqlite
  refine ⟨hmemoryIff, hsqliteIff, fun hnull now => ⟨?_, ?_⟩⟩
  · exact (hmemoryIff now).mpr (MemoryStorage.refines.noNull_after hmemory hnull now)
  · exact (hsqliteIff now).mpr ((SqliteStorage.refines json).noNull_after hsqlite hnull now)

/-- A `None` and a value that expires. -/
def nullCalls : List (ℤ × CacheOp ℤ) :=
  [(0, .set "k" .none none), (0, .set "l" (.bool true) (some 5))]

theorem presence_agrees_iff_null :
    (∀ now, (MemoryStorage.adapter ℤ).PresenceAgrees now
        ((MemoryStorage.adapter ℤ).after nullCalls .empty) ↔
      (MemoryStorage.store ((MemoryStorage.adapter ℤ).after nullCalls .empty)).NoNull now) ∧
    (∀ now, (SqliteStorage.adapter JsonCodec.literals).PresenceAgrees now
        ((SqliteStorage.adapter JsonCodec.literals).after nullCalls .empty) ↔
      (SqliteStorage.store JsonCodec.literals
        ((SqliteStorage.adapter JsonCodec.literals).after nullCalls .empty)).NoNull now) ∧
    (Sets (· ≠ .none) nullCalls → ∀ now,
      (MemoryStorage.adapter ℤ).PresenceAgrees now
        ((MemoryStorage.adapter ℤ).after nullCalls .empty) ∧
      (SqliteStorage.adapter JsonCodec.literals).PresenceAgrees now
        ((SqliteStorage.adapter JsonCodec.literals).after nullCalls .empty)) := by
  apply presence_agrees_iff
  intro now key value ttlSeconds hmem
  have hvalue : value = .none ∨ value = .bool true := by
    simp only [nullCalls, List.mem_cons, Prod.mk.injEq, CacheOp.set.injEq, List.not_mem_nil,
      or_false] at hmem
    exact hmem.imp (fun h => h.2.2.1) fun h => h.2.2.1
  rcases hvalue with rfl | rfl
  · exact ⟨"null", rfl, rfl⟩
  · exact ⟨"true", rfl, rfl⟩

/-- `has` denies a stored `None` that `keys` lists. -/
theorem presence_disagrees :
    ¬(MemoryStorage.adapter ℤ).PresenceAgrees 0
      ((MemoryStorage.adapter ℤ).after [(0, .set "k" .none none)] .empty) ∧
    ¬(SqliteStorage.adapter JsonCodec.literals).PresenceAgrees (0 : ℤ)
      ((SqliteStorage.adapter JsonCodec.literals).after [(0, .set "k" .none none)] .empty) := by
  constructor
  · rintro ⟨keys, hkeys, -, -, hhas⟩
    cases hkeys
    have hflag := (hhas "k").1
    cases hflag
  · intro h
    obtain ⟨keys, hkeys, -, -, hhas⟩ := h
    have hmem : "k" ∈ keys := by
      rw [← CacheResult.keys.inj hkeys]
      exact List.mem_mergeSort.mpr (by decide)
    have hflag := CacheResult.flag.inj (hhas "k").1
    rw [decide_eq_true hmem] at hflag
    cases hflag

end AtomicMemory
