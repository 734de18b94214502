import AtomicMemory.KvCache.SqliteStorage

-- What more reads do to the results of a run of calls: they collect stale entries, which
-- `delete` would still have found.

open PyValue hiding none

namespace AtomicMemory

namespace CacheAdapter

variable {τ : Type} [LinearOrder τ]

theorem clockRuns_cons {α : Type} {now : τ} {event : α} {rest : List (τ × α)} :
    ClockRuns ((now, event) :: rest) ↔ (∀ e ∈ rest, now ≤ e.1) ∧ ClockRuns rest := by
  rw [ClockRuns, List.map_cons, List.pairwise_cons]
  simp only [List.mem_map, forall_exists_index, and_imp, forall_apply_eq_imp_iff₂]
  rfl

omit [LinearOrder τ] in
@[simp] theorem calls_timeline (A : CacheAdapter τ) (cs : List (τ × CacheOp τ)) :
    calls (A.timeline cs) = cs := by
  induction cs with
  | nil => rfl
  | cons c cs ih => exact congrArg (c :: ·) ih

structure Interleaves {A : CacheAdapter τ} (events : List (τ × (CacheOp τ ⊕ A.Extra)))
    (cs : List (τ × CacheOp τ)) : Prop where
  calls : CacheAdapter.calls events = cs
  clock : ClockRuns events

/-- Some interleaving of the calls shows, by its clock readings one of the run's own, results
that `obs` tells from those of the calls alone. -/
def Disturbed {α : Type} (A : CacheAdapter τ) (obs : CacheResult → α) (cs : List (τ × CacheOp τ))
    (s : A.State) : Prop :=
  ∃ events : List (τ × (CacheOp τ ⊕ A.Extra)), Interleaves events cs ∧
    (∀ e ∈ events, ∃ c ∈ cs, c.1 = e.1) ∧
    (A.observe events s).map obs ≠ (A.results cs s).map obs

section

variable {α : Type} {A : CacheAdapter τ} {obs : CacheResult → α} {now : τ} {op : CacheOp τ}
  {rest : List (τ × CacheOp τ)} {s : A.State}

theorem Disturbed.cons (hclock : ClockRuns ((now, op) :: rest))
    (h : A.Disturbed obs rest (A.call now op s).2) : A.Disturbed obs ((now, op) :: rest) s := by
  obtain ⟨events, ⟨hcalls, hruns⟩, htimes, hne⟩ := h
  refine ⟨(now, .inl op) :: events, ⟨congrArg (List.cons (now, op)) hcalls, ?_⟩, ?_, ?_⟩
  · refine clockRuns_cons.mpr ⟨fun e he => ?_, hruns⟩
    obtain ⟨c, hc, heq⟩ := htimes e he
    exact heq ▸ (clockRuns_cons.mp hclock).1 c hc
  · intro e he
    rcases List.mem_cons.mp he with rfl | he
    · exact ⟨_, List.mem_cons_self, rfl⟩
    · obtain ⟨c, hc, heq⟩ := htimes e he
      exact ⟨c, List.mem_cons_of_mem _ hc, heq⟩
  · intro heq
    exact hne (List.cons.inj heq).2

theorem Disturbed.head (hclock : ClockRuns ((now, op) :: rest)) (extra : A.Extra)
    (h : (A.results ((now, op) :: rest) (A.read now extra s)).map obs ≠
      (A.results ((now, op) :: rest) s).map obs) : A.Disturbed obs ((now, op) :: rest) s := by
  have hruns : ClockRuns (A.timeline ((now, op) :: rest)) := by
    simpa [ClockRuns, timeline, Function.comp_def] using hclock
  refine ⟨(now, .inr extra) :: A.timeline ((now, op) :: rest),
    ⟨calls_timeline A ((now, op) :: rest), ?_⟩, ?_, h⟩
  · refine clockRuns_cons.mpr ⟨fun e he => ?_, hruns⟩
    rcases List.mem_cons.mp he with rfl | he
    · exact le_rfl
    · exact (clockRuns_cons.mp hruns).1 e he
  · intro e he
    rcases List.mem_cons.mp he with rfl | he
    · exact ⟨_, List.mem_cons_self, rfl⟩
    · obtain ⟨c, hc, rfl⟩ := List.mem_map.mp he
      exact ⟨c, hc, rfl⟩

end

variable [Add τ] {A : CacheAdapter τ}
  {stored : PyValue → Except PyError (Except PyError PyValue)}

namespace Refines

variable (R : A.Refines stored)

/-- No `delete` of the run finds an entry whose deadline has been reached. -/
def FreshDeletes : List (τ × CacheOp τ) → A.State → Prop
  | [], _ => True
  | (now, op) :: rest, s =>
    (∀ key, op = .delete key → ¬ (R.store s).StaleAt now key) ∧
      FreshDeletes rest (A.call now op s).2

/-- What is known of two states while the same calls are made in both, with extra reads in the
second one only. -/
theorem call_collected {now : τ} {op : CacheOp τ} {s s' : A.State}
    (hc : ExpiringStore.Collected now (R.store s) (R.store s'))
    (hfresh : ∀ key, op = .delete key → ¬ (R.store s).StaleAt now key) :
    (A.call now op s').1.answer = (A.call now op s).1.answer ∧
      ExpiringStore.Collected now (R.store (A.call now op s).2)
        (R.store (A.call now op s').2) := by
  obtain ⟨hanswer, hstore⟩ := R.call now op s
  obtain ⟨hanswer', hstore'⟩ := R.call now op s'
  rw [hanswer, hanswer', hstore, hstore']
  exact Cache.step_collected hc hfresh

theorem observe_answers (events : List (τ × (CacheOp τ ⊕ A.Extra))) {s s' : A.State}
    (hclock : ClockRuns events)
    (hc : ∀ e ∈ events, ExpiringStore.Collected e.1 (R.store s) (R.store s'))
    (hfresh : R.FreshDeletes (calls events) s) :
    (A.observe events s').map CacheResult.answer =
      (A.results (calls events) s).map CacheResult.answer := by
  induction events generalizing s s' with
  | nil => rfl
  | cons e rest ih =>
    obtain ⟨now, op | extra⟩ := e
    · obtain ⟨hlater, hclock⟩ := clockRuns_cons.mp hclock
      obtain ⟨hnow, hfresh⟩ := hfresh
      obtain ⟨hanswer, hc'⟩ := R.call_collected (hc _ List.mem_cons_self) hnow
      have hrest := ih hclock (fun e he => hc'.mono (hlater e he)) hfresh
      show CacheResult.answer _ :: List.map _ _ = CacheResult.answer _ :: List.map _ _
      rw [hanswer, hrest]
      rfl
    · obtain ⟨hlater, hclock⟩ := clockRuns_cons.mp hclock
      refine ih hclock (fun e he => ?_) hfresh
      have hread := (hc _ List.mem_cons_self).trans (R.read now extra s')
      exact hread.mono (hlater e he)

/-- A `delete` that finds a stale entry answers otherwise after a read of its key. -/
theorem disturbed_of_stale (cs : List (τ × CacheOp τ)) {s : A.State} (hclock : ClockRuns cs)
    (hstale : ¬ R.FreshDeletes cs s) : A.Disturbed CacheResult.answer cs s := by
  induction cs generalizing s with
  | nil => exact absurd trivial hstale
  | cons c rest ih =>
    obtain ⟨now, op⟩ := c
    by_cases hnow : ∀ key, op = .delete key → ¬ (R.store s).StaleAt now key
    · exact .cons hclock (ih (clockRuns_cons.mp hclock).2 fun h => hstale ⟨hnow, h⟩)
    · push Not at hnow
      obtain ⟨key, rfl, hentry⟩ := hnow
      refine .head hclock (R.get key) fun heq => ?_
      have hhead := (List.cons.inj heq).1
      rw [R.read_get, (R.call now _ _).1, (R.call now _ _).1, (R.call now _ _).2] at hhead
      exact Cache.delete_stale hentry hhead.symm

/-- Extra reads leave all answers as they are exactly in the runs without a stale delete. -/
theorem answers_stable_iff (cs : List (τ × CacheOp τ)) (hclock : ClockRuns cs) (s : A.State) :
    (∀ events : List (τ × (CacheOp τ ⊕ A.Extra)), Interleaves events cs →
      (A.observe events s).map CacheResult.answer = (A.results cs s).map CacheResult.answer) ↔
      R.FreshDeletes cs s := by
  constructor
  · intro hstable
    by_contra hstale
    obtain ⟨events, hevents, -, hne⟩ := R.disturbed_of_stale cs hclock hstale
    exact hne (hstable events hevents)
  · rintro hfresh events ⟨rfl, hruns⟩
    exact R.observe_answers events hruns (fun e _ => .refl e.1 _) hfresh

end Refines

end CacheAdapter

namespace SqliteStorage

def Sorted (r : CacheResult) : Prop := r.keyList.Pairwise (· ≤ ·) ∧ r.keyList.Nodup

theorem eq_of_answers {rs rs' : List CacheResult} (hrs : ∀ r ∈ rs, Sorted r)
    (hrs' : ∀ r ∈ rs', Sorted r)
    (h : rs.map CacheResult.answer = rs'.map CacheResult.answer) : rs = rs' := by
  induction rs generalizing rs' with
  | nil => exact (List.map_eq_nil_iff.mp h.symm).symm
  | cons r rs ih =>
    cases rs' with
    | nil => cases h
    | cons r' rs' =>
      obtain ⟨hhead, htail⟩ := List.cons.inj h
      have hr := hrs r List.mem_cons_self
      have hr' := hrs' r' List.mem_cons_self
      have heq : r = r' := CacheResult.eq_of_answer hhead fun hmem =>
        ((List.perm_ext_iff_of_nodup hr.2 hr'.2).mpr hmem).eq_of_pairwise' hr.1 hr'.1
      rw [heq, ih (fun x hx => hrs x (List.mem_cons_of_mem _ hx))
        (fun x hx => hrs' x (List.mem_cons_of_mem _ hx)) htail]

theorem selectedKeys_sorted {τ : Type} (table : Table τ) :
    (selectedKeys table).Pairwise (· ≤ ·) ∧ (selectedKeys table).Nodup :=
  ⟨List.pairwise_mergeSort' _ _, (List.mergeSort_perm _ _).nodup_iff.mpr table.keys_nodup⟩

variable {τ : Type} [LinearOrder τ] [Add τ] (json : JsonCodec)

theorem call_sorted (now : τ) (op : CacheOp τ) (table : Table τ) :
    Sorted (call json now op table).1 := by
  have hnil : Sorted .done := ⟨.nil, .nil⟩
  unfold call
  cases op with
  | get key =>
    rw [program, Program.run_map]
    cases ((get json key).run now table).1 <;> exact hnil
  | set key value ttlSeconds =>
    rw [program, Program.run_map]
    cases ((set json key value ttlSeconds false).run now table).1 <;> exact hnil
  | delete key => exact hnil
  | has key =>
    rw [program, Program.run_map]
    cases ((get json key).run now table).1 <;> exact hnil
  | keys => exact selectedKeys_sorted _
  | size => exact hnil
  | clear => exact hnil

theorem observe_sorted (events : List (τ × (CacheOp τ ⊕ SqliteRead))) (table : Table τ) :
    ∀ r ∈ (adapter json).observe events table, Sorted r := by
  induction events generalizing table with
  | nil => simp [CacheAdapter.observe]
  | cons e rest ih =>
    obtain ⟨now, op | extra⟩ := e
    · intro r hr
      rcases List.mem_cons.mp hr with rfl | hr
      · exact call_sorted json now op table
      · exact ih _ r hr
    · exact ih _

/-- Extra reads leave all results as they are exactly in the runs without a stale delete. -/
theorem results_stable_iff (cs : List (τ × CacheOp τ)) (hclock : CacheAdapter.ClockRuns cs) :
    (∀ events : List (τ × (CacheOp τ ⊕ (adapter json).Extra)),
      CacheAdapter.Interleaves events cs →
      (adapter json).observe events (adapter json).init =
        (adapter json).results cs (adapter json).init) ↔
      (refines json).FreshDeletes cs (adapter json).init := by
  refine Iff.trans ?_ ((refines json).answers_stable_iff cs hclock _)
  constructor
  · intro h events hevents
    exact congrArg _ (h events hevents)
  · intro h events hevents
    exact eq_of_answers (observe_sorted json events _) (observe_sorted json _ _)
      (h events hevents)

end SqliteStorage

end AtomicMemory
