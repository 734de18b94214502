import AtomicMemory.Lib.StableSort
import Mathlib.Algebra.Order.Ring.Defs
import Mathlib.Data.Int.Cast.Defs

-- Local search adjusts the score of each hit by the length and the age of its content, and sorts
-- again.

namespace AtomicMemory

open StableSort (descending)

variable {F : Type}

structure RankingConfig (F : Type) where
  shortThreshold : ℤ := 500
  shortBoost : F
  longThreshold : ℤ := 2000
  longPenalty : F
  recencyWindowDays : ℤ := 7
  recencyBoost : F
  scoreCap : F

structure RankableHit (F : Type) where
  content : String
  score : F
  timestampSeconds : Option F
  originalIndex : Option ℕ

variable [One F] [Mul F] [Sub F] [IntCast F] [LT F] [DecidableLT F]

def lengthFactor (content : String) (config : RankingConfig F) : F :=
  if (content.length : ℤ) < config.shortThreshold then config.shortBoost
  else if config.longThreshold < content.length then config.longPenalty
  else 1

/-- `now` is the timestamp of the reference time. -/
def recencyFactor (timestampSeconds : Option F) (now : F) (config : RankingConfig F) : F :=
  match timestampSeconds with
  | none => 1
  | some timestamp =>
    if now - timestamp < ((config.recencyWindowDays * 24 * 60 * 60 : ℤ) : F) then
      config.recencyBoost
    else 1

/-- A hit with its new score, which is the smaller of the adjusted one and the cap. -/
def adjust (config : RankingConfig F) (now : F) (hit : RankableHit F) : RankableHit F :=
  let factor := lengthFactor hit.content config * recencyFactor hit.timestampSeconds now config
  let newScore := hit.score * factor
  { hit with score := if config.scoreCap < newScore then config.scoreCap else newScore }

def rerank (hits : List (RankableHit F)) (config : RankingConfig F) (now : F) :
    List (RankableHit F) :=
  descending RankableHit.score (hits.map (adjust config now))

theorem rerank_perm (hits : List (RankableHit F)) (config : RankingConfig F) (now : F) :
    (rerank hits config now).Perm (hits.map (adjust config now)) :=
  StableSort.descending_perm

inductive LengthClass
  | short
  | medium
  | long
  deriving DecidableEq

def lengthClass (content : String) (config : RankingConfig F) : LengthClass :=
  if (content.length : ℤ) < config.shortThreshold then .short
  else if config.longThreshold < content.length then .long
  else .medium

def isRecent (timestampSeconds : Option F) (now : F) (config : RankingConfig F) : Bool :=
  match timestampSeconds with
  | none => false
  | some timestamp => now - timestamp < ((config.recencyWindowDays * 24 * 60 * 60 : ℤ) : F)

structure SameClass (config : RankingConfig F) (now : F) (hit hit' : RankableHit F) : Prop where
  length : lengthClass hit.content config = lengthClass hit'.content config
  recency : isRecent hit.timestampSeconds now config = isRecent hit'.timestampSeconds now config

omit [Sub F] [IntCast F] [LT F] [DecidableLT F] [Mul F] in
theorem lengthFactor_eq (content : String) (config : RankingConfig F) :
    lengthFactor content config =
      match lengthClass content config with
      | .short => config.shortBoost
      | .medium => 1
      | .long => config.longPenalty := by
  unfold lengthFactor lengthClass
  split
  · rfl
  · split <;> rfl

omit [Mul F] in
theorem recencyFactor_eq (timestampSeconds : Option F) (now : F) (config : RankingConfig F) :
    recencyFactor timestampSeconds now config =
      if isRecent timestampSeconds now config then config.recencyBoost else 1 := by
  cases timestampSeconds with
  | none => rfl
  | some timestamp =>
    unfold recencyFactor isRecent
    simp only [decide_eq_true_eq]

theorem SameClass.factor_eq {config : RankingConfig F} {now : F} {hit hit' : RankableHit F}
    (h : SameClass config now hit hit') :
    lengthFactor hit.content config * recencyFactor hit.timestampSeconds now config =
      lengthFactor hit'.content config * recencyFactor hit'.timestampSeconds now config := by
  rw [lengthFactor_eq, lengthFactor_eq, recencyFactor_eq, recencyFactor_eq, h.length, h.recency]

section

variable {F : Type} [Ring F] [LinearOrder F] [IsOrderedRing F]

structure NonnegFactors (config : RankingConfig F) : Prop where
  shortBoost : 0 ≤ config.shortBoost
  longPenalty : 0 ≤ config.longPenalty
  recencyBoost : 0 ≤ config.recencyBoost

/-- The order in which the hits are returned: by their new scores, those with equal ones as they
were given. Of two hits of a class, the one that was given first with a score as good stays
first. -/
structure RerankOrder (hits : List (RankableHit F)) (config : RankingConfig F) (now : F)
    (order : List (Fin hits.length)) : Prop where
  perm : order.Perm (List.finRange hits.length)
  sorted : order.Pairwise
    (StableSort.Before (fun i => (adjust config now hits[i]).score) fun i j => i < j)
  stable : ∀ i j : Fin hits.length, i < j → hits[j].score ≤ hits[i].score →
    SameClass config now hits[i] hits[j] → [i, j].Sublist order

theorem NonnegFactors.factor_nonneg {config : RankingConfig F} (h : NonnegFactors config)
    (now : F) (hit : RankableHit F) :
    0 ≤ lengthFactor hit.content config * recencyFactor hit.timestampSeconds now config := by
  apply mul_nonneg
  · rw [lengthFactor_eq]
    cases lengthClass hit.content config with
    | short => exact h.shortBoost
    | medium => exact zero_le_one
    | long => exact h.longPenalty
  · rw [recencyFactor_eq]
    split
    · exact h.recencyBoost
    · exact zero_le_one

omit [IsOrderedRing F] in
theorem adjust_eq (config : RankingConfig F) (now : F) (hit : RankableHit F) :
    adjust config now hit =
      { hit with
        score := min (hit.score * (lengthFactor hit.content config *
          recencyFactor hit.timestampSeconds now config)) config.scoreCap } := by
  unfold adjust
  dsimp only
  congr 1
  split
  · rename_i hcap
    exact (min_eq_right hcap.le).symm
  · rename_i hcap
    exact (min_eq_left (not_lt.mp hcap)).symm

theorem rerank_order {config : RankingConfig F} (hfactors : NonnegFactors config) (now : F)
    (hits : List (RankableHit F)) : ∃ order, RerankOrder hits config now order ∧
      rerank hits config now = order.map fun i => adjust config now hits[i] := by
  let score (i : Fin hits.length) : F := (adjust config now hits[i]).score
  have hhits : hits.map (adjust config now) =
      (List.finRange hits.length).map fun i => adjust config now hits[i] := by
    conv_lhs => rw [← List.map_get_finRange hits, List.map_map]
    rfl
  refine ⟨descending score (List.finRange hits.length), ⟨StableSort.descending_perm, ?_, ?_⟩, ?_⟩
  · exact StableSort.descending_pairwise (StableSort.comparable_of_linearOrder _)
      (List.pairwise_lt_finRange _)
  · intro i j hij hle hclass
    apply StableSort.pair_sublist_descending
    · rw [not_lt]
      change (adjust config now hits[j]).score ≤ (adjust config now hits[i]).score
      rw [adjust_eq, adjust_eq]
      dsimp only
      rw [hclass.factor_eq]
      exact min_le_min_right _ (mul_le_mul_of_nonneg_right hle (hfactors.factor_nonneg now _))
    · have hnodup : [i, j].Nodup := by simpa using hij.ne
      exact List.sublist_of_subperm_of_pairwise
        (List.subperm_of_subset hnodup fun k _ => List.mem_finRange k)
        (List.pairwise_pair.mpr hij) (List.pairwise_lt_finRange _)
  · rw [rerank, hhits, StableSort.descending_map]
    rfl

end

end AtomicMemory
