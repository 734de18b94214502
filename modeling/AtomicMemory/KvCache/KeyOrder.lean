import AtomicMemory.KvCache.EvictionTiming
import AtomicMemory.KvCache.MemoryStorage
import Mathlib.Data.Int.Order.Basic

-- `keys()` lists a `dict`, whose keys keep the place of their first assignment. A stale item
-- that is assigned to keeps its place too, and a collected one has lost it.

open PyValue hiding none

namespace AtomicMemory

namespace MemoryStorage

variable {τ : Type} [LinearOrder τ] [Add τ]

/-- The keys stay stored until some `keys()` lists both. -/
def Listed (a b : String) : List (τ × CacheOp τ) → Data τ → Prop
  | [], _ => False
  | (now, op) :: rest, data =>
    (op = .keys ∧ a ∈ (keys now data).1 ∧ b ∈ (keys now data).1) ∨
      (a ∈ (call now op data).2.keys ∧ b ∈ (call now op data).2.keys ∧
        Listed a b rest (call now op data).2)

/-- Some `set` gives a stale item a new value in its old place, before a key with which it is
listed later. -/
def RevivesInPlace : List (τ × CacheOp τ) → Data τ → Prop
  | [], _ => False
  | (now, op) :: rest, data =>
    (∃ a value ttlSeconds b, op = .set a value ttlSeconds ∧ (store data).StaleAt now a ∧
        data.Before a b ∧ Listed a b rest (call now op data).2) ∨
      RevivesInPlace rest (call now op data).2

theorem keys_get_sublist {τ : Type} [LinearOrder τ] (now : τ) (key : String) (data : Data τ) :
    (get now key data).2.keys.Sublist data.keys := by
  unfold get
  split
  · exact List.Sublist.refl _
  · split
    · exact KeyedTable.keys_deleteWhere_sublist data _
    · exact List.Sublist.refl _

/-- Only `set` adds keys. -/
theorem keys_call_sublist (now : τ) {op : CacheOp τ} (data : Data τ)
    (h : ∀ key value ttlSeconds, op ≠ .set key value ttlSeconds) :
    (call now op data).2.keys.Sublist data.keys := by
  cases op with
  | get key => exact keys_get_sublist now key data
  | set key value ttlSeconds => exact absurd rfl (h key value ttlSeconds)
  | delete key => exact KeyedTable.keys_deleteWhere_sublist data _
  | has key => exact keys_get_sublist now key data
  | keys => exact KeyedTable.keys_deleteWhere_sublist data _
  | size => exact KeyedTable.keys_deleteWhere_sublist data _
  | clear => exact List.nil_sublist _

theorem keys_read_sublist (now : τ) (read : CacheRead) (data : Data τ) :
    (call now read.op data).2.keys.Sublist data.keys := by
  apply keys_call_sublist
  intro key value ttlSeconds
  cases read <;> simp [CacheRead.op]

theorem mem_keys_iff_store {τ : Type} {data : Data τ} {key : String} :
    key ∈ data.keys ↔ ∃ entry, store data key = some entry := by
  rw [KeyedTable.mem_keys_iff_view MemoryItem.entry, Option.isSome_iff_exists]
  rfl

open ExpiringStore (Collected StaleAt)

omit [Add τ] in
theorem mem_keys_of_collected {now : τ} {data data' : Data τ}
    (hc : Collected now (store data) (store data')) {key : String} (h : key ∈ data'.keys) :
    key ∈ data.keys := by
  rw [mem_keys_iff_store] at h ⊢
  rcases hc key with heq | ⟨-, entry, hentry, -⟩
  · exact heq ▸ h
  · exact ⟨entry, hentry⟩

omit [Add τ] in
theorem stale_of_notMem {now : τ} {data data' : Data τ}
    (hc : Collected now (store data) (store data')) {key : String} (h : key ∈ data.keys)
    (h' : key ∉ data'.keys) : (store data).StaleAt now key := by
  rw [mem_keys_iff_store] at h h'
  rcases hc key with heq | ⟨-, hstale⟩
  · exact absurd (heq ▸ h) h'
  · exact hstale

/-- The keys that both hold are in the same order in both, those apart that no `keys()` of the
rest of the run lists together. -/
def SameOrder (rest : List (τ × CacheOp τ)) (data data' : Data τ) : Prop :=
  ∀ a b, a ∈ data'.keys → b ∈ data'.keys → data.Before a b →
    data'.Before a b ∨ ¬ Listed a b rest data

theorem SameOrder.read {rest : List (τ × CacheOp τ)} {data data' : Data τ}
    (h : SameOrder rest data data') (now : τ) (read : CacheRead) :
    SameOrder rest data (call now read.op data').2 := by
  intro a b ha hb hab
  have hsub := keys_read_sublist now read data'
  refine (h a b (hsub.subset ha) (hsub.subset hb) hab).imp_left fun hab' => ?_
  exact hab'.of_sublist hsub ha hb

theorem not_listed_tail {a b : String} {now : τ} {op : CacheOp τ} {rest : List (τ × CacheOp τ)}
    {data : Data τ} (h : ¬ Listed a b ((now, op) :: rest) data)
    (hab : (call now op data).2.Before a b) : ¬ Listed a b rest (call now op data).2 :=
  fun hlisted => h (.inr ⟨hab.left_mem, hab.right_mem, hlisted⟩)

/-- A key that is assigned to in `data'` as a new one was stale in `data`, or it is new there
too. -/
theorem SameOrder.put {now : τ} {rest : List (τ × CacheOp τ)} {data data' : Data τ} {key : String}
    {value : PyValue} {ttlSeconds : Option τ}
    (hc : Collected now (store data) (store data'))
    (h : SameOrder ((now, .set key value ttlSeconds) :: rest) data data')
    (hrevives : ¬ RevivesInPlace ((now, .set key value ttlSeconds) :: rest) data) :
    SameOrder rest (call now (.set key value ttlSeconds) data).2
      (call now (.set key value ttlSeconds) data').2 := by
  intro a b ha hb hab
  have htail : ¬ Listed a b ((now, .set key value ttlSeconds) :: rest) data →
      ¬ Listed a b rest (MemoryStorage.call now (.set key value ttlSeconds) data).2 :=
    fun hnot => not_listed_tail hnot hab
  change a ∈ (data'.put key _).keys at ha
  change b ∈ (data'.put key _).keys at hb
  change (data.put key _).Before a b at hab
  show (data'.put key _).Before a b ∨ _
  by_cases hmem' : key ∈ data'.keys
  · -- both stores have the key, and a put keeps its place in each
    have hmem := mem_keys_of_collected hc hmem'
    rw [KeyedTable.keys_put_of_mem hmem'] at ha hb
    rw [KeyedTable.Before, KeyedTable.keys_put_of_mem hmem] at hab
    rw [KeyedTable.Before, KeyedTable.keys_put_of_mem hmem']
    exact (h a b ha hb hab).imp_right htail
  · rw [KeyedTable.keys_put_of_notMem hmem', List.mem_append, List.mem_singleton] at ha hb
    rw [KeyedTable.before_put_of_notMem hmem']
    have hne : a ≠ b := by
      rintro rfl
      exact hab.asymm hab
    by_cases hmem : key ∈ data.keys
    · -- the collected store has dropped the key, so the put appends it there
      have hstale := stale_of_notMem hc hmem hmem'
      rw [KeyedTable.Before, KeyedTable.keys_put_of_mem hmem] at hab
      rcases ha with ha | rfl
      · rcases hb with hb | rfl
        · exact (h a b ha hb hab).imp .inl htail
        · exact .inl (.inr ⟨ha, rfl⟩)
      · -- the key is before `b` in the one and behind it in the other
        right
        exact fun hlisted => hrevives (.inl ⟨a, value, ttlSeconds, b, rfl, hstale, hab, hlisted⟩)
    · rcases (KeyedTable.before_put_of_notMem hmem _).mp hab with hab' | ⟨ha', rfl⟩
      · have ha := ha.resolve_right fun heq => hmem (heq ▸ hab'.left_mem)
        have hb := hb.resolve_right fun heq => hmem (heq ▸ hab'.right_mem)
        exact (h a b ha hb hab').imp .inl htail
      · exact .inl (.inr ⟨ha.resolve_right hne, rfl⟩)

theorem SameOrder.call {now : τ} {op : CacheOp τ} {rest : List (τ × CacheOp τ)}
    {data data' : Data τ} (hc : Collected now (store data) (store data'))
    (h : SameOrder ((now, op) :: rest) data data')
    (hrevives : ¬ RevivesInPlace ((now, op) :: rest) data) :
    SameOrder rest (call now op data).2 (call now op data').2 := by
  by_cases hset : ∃ key value ttlSeconds, op = .set key value ttlSeconds
  · obtain ⟨key, value, ttlSeconds, rfl⟩ := hset
    exact h.put hc hrevives
  · push Not at hset
    intro a b ha hb hab
    have hsub := keys_call_sublist now data hset
    have hsub' := keys_call_sublist now data' hset
    rcases h a b (hsub'.subset ha) (hsub'.subset hb) (hab.mono hsub) with hab' | hnot
    · exact .inl (hab'.of_sublist hsub' ha hb)
    · exact .inr (not_listed_tail hnot hab)

theorem SameOrder.keyList {now : τ} {op : CacheOp τ} {rest : List (τ × CacheOp τ)}
    {data data' : Data τ} (h : SameOrder ((now, op) :: rest) data data')
    (hmem : ∀ key, key ∈ (MemoryStorage.call now op data').1.keyList ↔
      key ∈ (MemoryStorage.call now op data).1.keyList) :
    (MemoryStorage.call now op data').1.keyList = (MemoryStorage.call now op data).1.keyList := by
  cases op with
  | keys =>
    refine (KeyedTable.keys_eq_of_before (fun key => (hmem key).symm) fun a b hab => ?_).symm
    have ha : a ∈ (keys now data').1 := (hmem a).mpr hab.left_mem
    have hb : b ∈ (keys now data').1 := (hmem b).mpr hab.right_mem
    have hsub := KeyedTable.keys_deleteWhere_sublist data' fun _ item => item.expired now
    have hab' := (h a b (hsub.subset ha) (hsub.subset hb)
      (hab.mono (KeyedTable.keys_deleteWhere_sublist data _))).resolve_right
        fun hnot => hnot (.inl ⟨rfl, hab.left_mem, hab.right_mem⟩)
    exact hab'.of_sublist hsub ha hb
  | _ => rfl

/-- Extra reads change no result of a run that neither deletes a stale item nor revives one
in its place. -/
theorem observe_results (events : List (τ × (CacheOp τ ⊕ (adapter τ).Extra)))
    {data data' : Data τ} (hclock : CacheAdapter.ClockRuns events)
    (hc : ∀ e ∈ events, Collected e.1 (store data) (store data'))
    (horder : SameOrder (CacheAdapter.calls events) data data')
    (hfresh : refines.FreshDeletes (CacheAdapter.calls events) data)
    (hrevives : ¬ RevivesInPlace (CacheAdapter.calls events) data) :
    (adapter τ).observe events data' = (adapter τ).results (CacheAdapter.calls events) data := by
  induction events generalizing data data' with
  | nil => rfl
  | cons e rest ih =>
    obtain ⟨now, op | extra⟩ := e
    · obtain ⟨hlater, hclock⟩ := CacheAdapter.clockRuns_cons.mp hclock
      obtain ⟨hnow, hfresh⟩ := hfresh
      have hcnow := hc _ List.mem_cons_self
      obtain ⟨hanswer, hc'⟩ := refines.call_collected hcnow hnow
      have hresult := CacheResult.eq_of_answer hanswer horder.keyList
      have hrest := ih hclock (fun e he => hc'.mono (hlater e he)) (horder.call hcnow hrevives)
        hfresh fun h => hrevives (.inr h)
      exact List.cons_eq_cons.mpr ⟨hresult, hrest⟩
    · obtain ⟨hlater, hclock⟩ := CacheAdapter.clockRuns_cons.mp hclock
      refine ih hclock (fun e he => ?_) (horder.read now extra) hfresh hrevives
      exact ((hc _ List.mem_cons_self).trans (refines.read now extra data')).mono (hlater e he)

theorem before_call {now : τ} {op : CacheOp τ} {data : Data τ} {a b : String}
    (h : data.Before a b) (ha : a ∈ (call now op data).2.keys)
    (hb : b ∈ (call now op data).2.keys) : (call now op data).2.Before a b := by
  by_cases hset : ∃ key value ttlSeconds, op = .set key value ttlSeconds
  · obtain ⟨key, value, ttlSeconds, rfl⟩ := hset
    show (data.put key _).Before a b
    by_cases hmem : key ∈ data.keys
    · rw [KeyedTable.Before, KeyedTable.keys_put_of_mem hmem]
      exact h
    · exact (KeyedTable.before_put_of_notMem hmem _).mpr (.inl h)
  · push Not at hset
    exact h.of_sublist (keys_call_sublist now data hset) ha hb

theorem mem_keys_congr {τ : Type} {data data' : Data τ} (h : store data = store data')
    {key : String} : key ∈ data.keys ↔ key ∈ data'.keys := by
  rw [mem_keys_iff_store, mem_keys_iff_store, h]

/-- The same items in another order, which a later `keys()` lists. -/
theorem results_ne_of_listed (cs : List (τ × CacheOp τ)) {data data' : Data τ} {a b : String}
    (hstore : store data = store data') (h : data.Before a b) (h' : data'.Before b a)
    (hlisted : Listed a b cs data) :
    (adapter τ).results cs data' ≠ (adapter τ).results cs data := by
  induction cs generalizing data data' with
  | nil => cases hlisted
  | cons c rest ih =>
    obtain ⟨now, op⟩ := c
    intro heq
    obtain ⟨hhead, htail⟩ := List.cons.inj heq
    rcases hlisted with ⟨rfl, ha, hb⟩ | ⟨ha, hb, hlisted⟩
    · have hkeys : (keys now data').1 = (keys now data).1 := CacheResult.keys.inj hhead
      have hab : [a, b].Sublist (keys now data).1 :=
        h.of_sublist (KeyedTable.keys_deleteWhere_sublist data _) ha hb
      rw [← hkeys] at ha hb
      have hba : [b, a].Sublist (keys now data').1 :=
        h'.of_sublist (KeyedTable.keys_deleteWhere_sublist data' _) hb ha
      rw [hkeys] at hba
      exact KeyedTable.not_sublist_swap (KeyedTable.keys_nodup _) hab hba
    · have hstore' : store (call now op data).2 = store (call now op data').2 := by
        rw [(call_refines now op data).2, (call_refines now op data').2, hstore]
      have ha' := (mem_keys_congr hstore').mp ha
      have hb' := (mem_keys_congr hstore').mp hb
      exact ih hstore' (before_call h ha hb) (before_call h' hb' ha') hlisted htail

/-- A read of the revived key, right before it is revived, moves it behind the others. -/
theorem disturbed_of_revives (cs : List (τ × CacheOp τ)) {data : Data τ}
    (hclock : CacheAdapter.ClockRuns cs) (h : RevivesInPlace cs data) :
    (adapter τ).Disturbed id cs data := by
  induction cs generalizing data with
  | nil => cases h
  | cons c rest ih =>
    obtain ⟨now, op⟩ := c
    rcases h with ⟨a, value, ttlSeconds, b, rfl, hstale, hab, hlisted⟩ | h
    · -- a read of `a` right before the call drops it, so the put moves it behind `b`
      refine .head hclock (.get a) fun heq => ?_
      have hread : store (get now a data).2 = Function.update (store data) a none := by
        rw [(get_spec now a data).2, ExpiringStore.live_eq_none_of_stale hstale]
      have hne : b ≠ a := by
        rintro rfl
        exact hab.asymm hab
      have hgone : a ∉ (get now a data).2.keys := by
        rw [mem_keys_iff_store, hread, Function.update_self]
        simp
      have hleft : b ∈ (get now a data).2.keys := by
        rw [mem_keys_iff_store, hread, Function.update_of_ne hne, ← mem_keys_iff_store]
        exact hab.right_mem
      rw [List.map_id, List.map_id] at heq
      refine results_ne_of_listed rest ?_ ?_ ?_ hlisted (List.cons.inj heq).2
      · let item : MemoryItem τ := ⟨value, now, ttlSeconds.map (now + ·)⟩
        have hput : store (data.put a item) = Function.update (store data) a (some item.entry) :=
          KeyedTable.view_put MemoryItem.entry data a item
        have hput' : store ((get now a data).2.put a item) =
            Function.update (store (get now a data).2) a (some item.entry) :=
          KeyedTable.view_put MemoryItem.entry _ a item
        rw [hread, Function.update_idem] at hput'
        exact hput.trans hput'.symm
      · show (data.put a _).Before a b
        rw [KeyedTable.Before, KeyedTable.keys_put_of_mem hab.left_mem]
        exact hab
      · exact (KeyedTable.before_put_of_notMem hgone _).mpr (.inr ⟨hleft, rfl⟩)
    · exact .cons hclock (ih (CacheAdapter.clockRuns_cons.mp hclock).2 h)

/-- Extra reads leave all results as they are exactly in the runs that neither delete a stale
item nor revive one in its place. -/
theorem results_stable_iff (cs : List (τ × CacheOp τ)) (hclock : CacheAdapter.ClockRuns cs) :
    (∀ events : List (τ × (CacheOp τ ⊕ (adapter τ).Extra)),
      CacheAdapter.Interleaves events cs →
      (adapter τ).observe events (adapter τ).init =
        (adapter τ).results cs (adapter τ).init) ↔
      refines.FreshDeletes cs (adapter τ).init ∧
        ¬ RevivesInPlace cs (adapter τ).init := by
  constructor
  · refine fun hstable => ⟨?_, fun hrevives => ?_⟩
    · apply (refines.answers_stable_iff cs hclock _).mp
      intro events hevents
      exact congrArg _ (hstable events hevents)
    · obtain ⟨events, hevents, -, hne⟩ := disturbed_of_revives cs hclock hrevives
      rw [List.map_id, List.map_id] at hne
      exact hne (hstable events hevents)
  · rintro ⟨hfresh, hrevives⟩ events ⟨rfl, hruns⟩
    exact observe_results events hruns (fun e _ => .refl e.1 _) (fun a b _ _ hab => .inl hab)
      hfresh hrevives

end MemoryStorage

/-- In which runs of the two adapters extra reads change no result. -/
theorem eviction_unobservable_iff {τ : Type} [LinearOrder τ] [Add τ] (json : JsonCodec)
    (cs : List (τ × CacheOp τ)) (hclock : CacheAdapter.ClockRuns cs) :
    ((∀ events : List (τ × (CacheOp τ ⊕ (MemoryStorage.adapter τ).Extra)),
        CacheAdapter.Interleaves events cs →
        (MemoryStorage.adapter τ).observe events (MemoryStorage.adapter τ).init =
          (MemoryStorage.adapter τ).results cs (MemoryStorage.adapter τ).init) ↔
      MemoryStorage.refines.FreshDeletes cs (MemoryStorage.adapter τ).init ∧
        ¬ MemoryStorage.RevivesInPlace cs (MemoryStorage.adapter τ).init) ∧
    ((∀ events : List (τ × (CacheOp τ ⊕ (SqliteStorage.adapter json).Extra)),
        CacheAdapter.Interleaves events cs →
        (SqliteStorage.adapter json).observe events (SqliteStorage.adapter json).init =
          (SqliteStorage.adapter json).results cs (SqliteStorage.adapter json).init) ↔
      (SqliteStorage.refines json).FreshDeletes cs (SqliteStorage.adapter json).init) :=
  ⟨MemoryStorage.results_stable_iff cs hclock, SqliteStorage.results_stable_iff json cs hclock⟩

def lateDelete : List (ℤ × CacheOp ℤ) := [(0, .set "k" (.bool true) (some 5)), (6, .delete "k")]

theorem eviction_unobservable_iff_lateDelete :
    (SqliteStorage.refines JsonCodec.literals).FreshDeletes lateDelete
        (SqliteStorage.adapter JsonCodec.literals).init ↔
      ∀ events : List (ℤ × (CacheOp ℤ ⊕ (SqliteStorage.adapter JsonCodec.literals).Extra)),
        CacheAdapter.Interleaves events lateDelete →
        (SqliteStorage.adapter JsonCodec.literals).observe events
            (SqliteStorage.adapter JsonCodec.literals).init =
          (SqliteStorage.adapter JsonCodec.literals).results lateDelete
            (SqliteStorage.adapter JsonCodec.literals).init :=
  (eviction_unobservable_iff JsonCodec.literals lateDelete
    (by simp [CacheAdapter.ClockRuns, lateDelete])).2.symm

/-- The late delete is told that there was an entry, unless the key was read before it; in
both adapters. -/
theorem not_eviction_unobservable :
    ¬ (∀ events : List (ℤ × (CacheOp ℤ ⊕ (MemoryStorage.adapter ℤ).Extra)),
        CacheAdapter.Interleaves events lateDelete →
        (MemoryStorage.adapter ℤ).observe events (MemoryStorage.adapter ℤ).init =
          (MemoryStorage.adapter ℤ).results lateDelete (MemoryStorage.adapter ℤ).init) ∧
    ¬ (∀ events : List (ℤ × (CacheOp ℤ ⊕ (SqliteStorage.adapter JsonCodec.literals).Extra)),
        CacheAdapter.Interleaves events lateDelete →
        (SqliteStorage.adapter JsonCodec.literals).observe events
            (SqliteStorage.adapter JsonCodec.literals).init =
          (SqliteStorage.adapter JsonCodec.literals).results lateDelete
            (SqliteStorage.adapter JsonCodec.literals).init) := by
  constructor
  · intro h
    have heq := h [(0, .inl (.set "k" (.bool true) (some 5))), (6, .inr (.get "k")),
      (6, .inl (.delete "k"))] ⟨rfl, by simp [CacheAdapter.ClockRuns]⟩
    have hflag : [CacheResult.done, .flag false] = [.done, .flag true] := heq
    simp at hflag
  · intro h
    have heq := h [(0, .inl (.set "k" (.bool true) (some 5))), (6, .inr (.op (.get "k"))),
      (6, .inl (.delete "k"))] ⟨rfl, by simp [CacheAdapter.ClockRuns]⟩
    have hflag : [CacheResult.done, .flag false] = [.done, .flag true] := heq
    simp at hflag

end AtomicMemory
