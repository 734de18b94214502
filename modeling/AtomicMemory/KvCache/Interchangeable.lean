import AtomicMemory.KvCache.MemoryStorage
import AtomicMemory.KvCache.SqliteStorage
import Mathlib.Data.Int.Order.Basic

-- Both adapters refine the same abstract cache, so that no sequence of calls tells them apart.

open PyValue hiding none

namespace AtomicMemory

variable {τ : Type} [LinearOrder τ] [Add τ]

theorem SqliteStorage.stored_eq {json : JsonCodec} {value : PyValue} (h : json.RoundTrips value) :
    SqliteStorage.stored json value = MemoryStorage.stored value := by
  obtain ⟨text, hdumps, hloads⟩ := h
  rw [stored, hdumps]
  show Except.ok (json.loads text) = _
  rw [hloads]
  rfl

theorem CacheAdapter.answers_congr
    {stored stored' : PyValue → Except PyError (Except PyError PyValue)}
    (calls : List (τ × CacheOp τ))
    (h : ∀ now key value ttlSeconds, (now, CacheOp.set key value ttlSeconds) ∈ calls →
      stored value = stored' value) (s : Cache.Store τ) :
    answers stored calls s = answers stored' calls s := by
  induction calls generalizing s with
  | nil => rfl
  | cons call rest ih =>
    obtain ⟨now, op⟩ := call
    have hstep : Cache.step stored now op s = Cache.step stored' now op s := by
      cases op with
      | set key value ttlSeconds =>
        rw [Cache.step, Cache.step, h now key value ttlSeconds List.mem_cons_self]
      | _ => rfl
    rw [answers, answers, hstep]
    exact congrArg _ (ih (fun now key value ttlSeconds hmem =>
      h now key value ttlSeconds (List.mem_cons_of_mem _ hmem)) _)

/-- The two adapters, started empty, answer every sequence of calls alike, when the values
that are set survive JSON. -/
theorem memory_sqlite_answers (json : JsonCodec) (calls : List (τ × CacheOp τ))
    (hvalues : ∀ now key value ttlSeconds, (now, CacheOp.set key value ttlSeconds) ∈ calls →
      json.RoundTrips value) :
    ((MemoryStorage.adapter τ).results calls (MemoryStorage.adapter τ).init).map
        CacheResult.answer =
      ((SqliteStorage.adapter json).results calls (SqliteStorage.adapter json).init).map
        CacheResult.answer := by
  have hmemory := MemoryStorage.refines.answers_results calls (MemoryStorage.adapter τ).init
  have hsqlite := (SqliteStorage.refines json).answers_results calls
    (SqliteStorage.adapter json).init
  refine hmemory.trans (Eq.trans ?_ hsqlite.symm)
  refine CacheAdapter.answers_congr calls (fun now key value ttlSeconds hmem => ?_) _
  exact (SqliteStorage.stored_eq (hvalues now key value ttlSeconds hmem)).symm

/-- An entry is set for five seconds, read, and looked for at its deadline. -/
def deadlineCalls : List (ℤ × CacheOp ℤ) :=
  [(0, .set "k" (.bool true) (some 5)), (4, .get "k"), (5, .has "k"), (5, .keys),
    (6, .delete "k")]

theorem memory_sqlite_answers_deadline :
    ((MemoryStorage.adapter ℤ).results deadlineCalls (MemoryStorage.adapter ℤ).init).map
        CacheResult.answer =
      ((SqliteStorage.adapter JsonCodec.literals).results deadlineCalls
        (SqliteStorage.adapter JsonCodec.literals).init).map CacheResult.answer := by
  apply memory_sqlite_answers
  intro now key value ttlSeconds hmem
  have hvalue : value = .bool true := by
    simp only [deadlineCalls, List.mem_cons, Prod.mk.injEq, CacheOp.set.injEq, reduceCtorEq,
      and_false, or_false, List.not_mem_nil] at hmem
    exact hmem.2.2.1
  exact hvalue ▸ ⟨"true", rfl, rfl⟩

end AtomicMemory
