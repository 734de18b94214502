import AtomicMemory.KvCache.StorageAdapter

-- `MemoryStorageAdapter`: a `dict` from keys to items.

open PyValue hiding none

namespace AtomicMemory.MemoryStorage

/-- `_MemoryItem`. -/
structure MemoryItem (τ : Type) where
  value : PyValue
  createdAt : τ
  expiresAt : Option τ

/-- `_data`. -/
abbrev Data (τ : Type) := KeyedTable String (MemoryItem τ)

variable {τ : Type} [LinearOrder τ]

/-- `item.expires_at is not None and now >= item.expires_at`. -/
def MemoryItem.expired (now : τ) (item : MemoryItem τ) : Bool :=
  match item.expiresAt with
  | some expiresAt => decide (now ≥ expiresAt)
  | none => false

def get (now : τ) (key : String) (data : Data τ) : PyValue × Data τ :=
  match data.find? key with
  | none => (.none, data)
  | some item => if item.expired now then (.none, data.erase key) else (item.value, data)

def set {τ : Type} [Add τ] (now : τ) (key : String) (value : PyValue) (ttlSeconds : Option τ)
    (encrypt : Bool) (data : Data τ) : Except PyError (Data τ) :=
  if encrypt then
    .error (.configError ("MemoryStorageAdapter does not implement encryption; passing " ++
      "encrypt=True would silently store plaintext. Omit the flag or use a backend that " ++
      "implements ciphered storage."))
  else .ok (data.put key ⟨value, now, ttlSeconds.map (now + ·)⟩)

/-- `self._data.pop(key, None) is not None`. -/
def delete {τ : Type} (key : String) (data : Data τ) : Bool × Data τ :=
  ((data.find? key).isSome, data.erase key)

def has (now : τ) (key : String) (data : Data τ) : Bool × Data τ :=
  let (value, data) := get now key data
  (!value.isNone, data)

def keys (now : τ) (data : Data τ) : List String × Data τ :=
  let data := data.deleteWhere fun _ item => item.expired now
  (data.keys, data)

def size (now : τ) (data : Data τ) : ℕ × Data τ :=
  let (live, data) := keys now data
  (live.length, data)

def clear {τ : Type} (_ : Data τ) : Data τ := .empty

variable [Add τ]

def call (now : τ) : CacheOp τ → Data τ → CacheResult × Data τ
  | .get key, data => (.value (get now key data).1, (get now key data).2)
  | .set key value ttlSeconds, data =>
    match set now key value ttlSeconds false data with
    | .ok data => (.done, data)
    | .error e => (.raised e, data)
  | .delete key, data => (.flag (delete key data).1, (delete key data).2)
  | .has key, data => (.flag (has now key data).1, (has now key data).2)
  | .keys, data => (.keys (keys now data).1, (keys now data).2)
  | .size, data => (.count (size now data).1, (size now data).2)
  | .clear, data => (.done, clear data)

def adapter (τ : Type) [LinearOrder τ] [Add τ] : CacheAdapter τ where
  State := Data τ
  init := .empty
  call := call
  Extra := CacheRead
  read := fun now read data => (call now read.op data).2

def MemoryItem.entry {τ : Type} (item : MemoryItem τ) : ExpiringEntry (Except PyError PyValue) τ :=
  ⟨.ok item.value, item.expiresAt⟩

def store {τ : Type} (data : Data τ) : Cache.Store τ := data.view MemoryItem.entry

omit [Add τ] in
theorem store_keys (now : τ) (data : Data τ) :
    store (keys now data).2 = (store data).live now :=
  KeyedTable.view_deleteWhere MemoryItem.entry data (ExpiringEntry.stale now)

omit [Add τ] in
/-- `get` answers what is live under the key, and collects an entry that is stale. -/
theorem get_spec (now : τ) (key : String) (data : Data τ) :
    Cache.Store.read ((store data).live now) key = .ok (get now key data).1 ∧
      store (get now key data).2 =
        Function.update (store data) key ((store data).live now key) := by
  have hstore : store data key = (data.find? key).map MemoryItem.entry := rfl
  unfold get
  cases hfind : data.find? key with
  | none =>
    rw [hfind, Option.map_none] at hstore
    have hlive : (store data).live now key = store data key := by
      simp [ExpiringStore.live, hstore]
    rw [Cache.Store.read_none (hlive.trans hstore), hlive, Function.update_eq_self]
    exact ⟨rfl, rfl⟩
  | some item =>
    rw [hfind, Option.map_some] at hstore
    -- an expired item is deleted by the read
    by_cases hexpired : item.expired now = true
    · have hlive : (store data).live now key = none :=
        ExpiringStore.live_eq_none_of_stale ⟨_, hstore, hexpired⟩
      simp only [if_pos hexpired]
      rw [Cache.Store.read_none hlive, hlive]
      exact ⟨rfl, KeyedTable.view_erase MemoryItem.entry data key⟩
    · have hlive : (store data).live now key = store data key := by
        apply ExpiringStore.live_eq_of_not_stale
        rintro ⟨entry, hentry, hstale⟩
        rw [hstore, Option.some.injEq] at hentry
        subst hentry
        exact hexpired hstale
      simp only [if_neg hexpired]
      rw [Cache.Store.read_some (hlive.trans hstore), hlive, Function.update_eq_self]
      exact ⟨rfl, rfl⟩

def stored (value : PyValue) : Except PyError (Except PyError PyValue) := .ok (.ok value)

theorem call_refines (now : τ) (op : CacheOp τ) (data : Data τ) :
    (call now op data).1.answer = (Cache.step stored now op (store data)).1 ∧
      store (call now op data).2 = (Cache.step stored now op (store data)).2 := by
  cases op with
  | get key =>
    obtain ⟨hread, hstore⟩ := get_spec now key data
    refine ⟨?_, hstore⟩
    simp only [call, Cache.step, hread]
    rfl
  | set key value ttlSeconds =>
    exact ⟨rfl, KeyedTable.view_put MemoryItem.entry data key _⟩
  | delete key =>
    refine ⟨?_, KeyedTable.view_erase MemoryItem.entry data key⟩
    simp [call, delete, CacheResult.answer, Cache.step, store, KeyedTable.view]
  | has key =>
    obtain ⟨hread, hstore⟩ := get_spec now key data
    refine ⟨?_, hstore⟩
    simp only [call, has, Cache.step, hread]
    rfl
  | keys =>
    have hstore := store_keys now data
    refine ⟨?_, hstore⟩
    simp only [call, CacheResult.answer, Cache.step, ← hstore]
    exact congrArg CacheAnswer.keys (Set.ext fun _ => KeyedTable.mem_keys_iff_view MemoryItem.entry)
  | size =>
    have hstore := store_keys now data
    refine ⟨?_, hstore⟩
    simp only [call, CacheResult.answer, Cache.step, ← hstore]
    show CacheAnswer.count (List.length (List.map _ _)) = _
    rw [List.length_map, KeyedTable.length_eq_ncard MemoryItem.entry]
    rfl
  | clear => exact ⟨rfl, rfl⟩

def refines : (adapter τ).Refines stored where
  store := store
  init := rfl
  call := call_refines
  read now read data := by
    show ExpiringStore.Collected now (store data) (store (call now read.op data).2)
    rw [(call_refines now read.op data).2]
    exact Cache.step_read stored now read (store data)
  get := .get
  read_get _ _ _ := rfl

end AtomicMemory.MemoryStorage
