import AtomicMemory.Core.Errors
import AtomicMemory.Lib.StableSort
import Mathlib.Algebra.Ring.Int.Defs
import Mathlib.Data.Fintype.Basic
import Mathlib.Data.Nat.Sqrt
import Mathlib.Data.Vector.Zip

-- Cosine similarity, ranking and selection of the best candidates. The numbers are of any type
-- with the operations and comparisons of Python's floats; what numpy computes is a parameter.

namespace AtomicMemory

open StableSort (descending Comparable Before)

/-- `np.linalg.norm`, without and with `axis=1`, `np.dot` and `matrix @ vector`. -/
structure Numpy (F : Type) where
  norm : List F → F
  rowNorms : (matrix : List (List F)) → List.Vector F matrix.length
  dot : List F → List F → F
  matvec : (matrix : List (List F)) → List F → List.Vector F matrix.length

/-- numpy on whole vectors along an axis, whose norm is the sum of the entries' sizes. -/
def Numpy.reference : Numpy ℤ where
  norm v := v.foldr (fun x total => x.natAbs + total) 0
  rowNorms matrix :=
    ⟨matrix.map fun v => v.foldr (fun x total => x.natAbs + total) 0, List.length_map _⟩
  dot a b := (List.zipWith (· * ·) a b).foldr (· + ·) 0
  matvec matrix v :=
    ⟨matrix.map fun row => (List.zipWith (· * ·) row v).foldr (· + ·) 0, List.length_map _⟩

variable {F : Type}

section Scores

variable [Zero F] [Mul F] [Div F] [BEq F]

def cosineSimilarity (np : Numpy F) (a b : List F) : Except PyError F :=
  if a.length ≠ b.length then
    .error (.valueError s!"Vector length mismatch: {a.length} != {b.length}")
  else if np.norm a == 0 || np.norm b == 0 then .ok 0
  else .ok (np.dot a b / (np.norm a * np.norm b))

def batchCosineSimilarity (np : Numpy F) (query : List F) (candidates : List (List F)) :
    Except PyError (List.Vector F candidates.length) :=
  match candidates with
  | [] => .ok .nil
  | first :: rest =>
    if query.isEmpty then .ok (.replicate _ 0)
    -- `np.asarray` takes rows of one length only
    else if rest.any (·.length ≠ first.length) then
      .error (.valueError "setting an array element with a sequence.")
    else if first.length ≠ query.length then
      .error (.valueError
        s!"Query length {query.length} does not match candidate width {first.length}")
    else if np.norm query == 0 then .ok (.replicate _ 0)
    else
      .ok (.map₂ (fun value norm => if norm == 0 then 0 else value / (norm * np.norm query))
        (np.matvec (first :: rest) query) (np.rowNorms (first :: rest)))

end Scores

variable [LE F] [LT F] [DecidableLE F] [DecidableLT F]

/-- `similarity >= threshold`, where there is a threshold. -/
def meets (threshold : Option F) (similarity : F) : Bool :=
  match threshold with
  | none => true
  | some t => decide (t ≤ similarity)

def rankBySimilarity {n : ℕ} (similarities : List.Vector F n) (threshold : Option F) :
    List (Fin n) :=
  let indices := descending similarities.get (List.finRange n)
  match threshold with
  | none => indices
  | some t => indices.filter fun i => t ≤ similarities.get i

variable {n : ℕ} {similarities : List.Vector F n} {threshold : Option F}

theorem rankBySimilarity_eq_filter :
    rankBySimilarity similarities threshold =
      (descending similarities.get (List.finRange n)).filter
        fun i => meets threshold (similarities.get i) := by
  cases threshold with
  | none => exact (List.filter_eq_self.mpr fun _ _ => rfl).symm
  | some t => rfl

theorem mem_rankBySimilarity {i : Fin n} :
    i ∈ rankBySimilarity similarities threshold ↔ meets threshold (similarities.get i) := by
  rw [rankBySimilarity_eq_filter, List.mem_filter, StableSort.descending_perm.mem_iff]
  exact and_iff_right (List.mem_finRange i)

theorem rankBySimilarity_nodup : (rankBySimilarity similarities threshold).Nodup := by
  rw [rankBySimilarity_eq_filter]
  exact (StableSort.descending_perm.nodup_iff.mpr (List.nodup_finRange n)).filter _

theorem length_rankBySimilarity :
    (rankBySimilarity similarities threshold).length =
      similarities.toList.countP (meets threshold) := by
  have hget : similarities.toList = (List.finRange n).map similarities.get := by
    rw [← List.ofFn_eq_map, ← List.Vector.toList_ofFn, List.Vector.ofFn_get]
  rw [rankBySimilarity_eq_filter, ← List.countP_eq_length_filter,
    StableSort.descending_perm.countP_eq, hget, List.countP_map]
  rfl

theorem rankBySimilarity_pairwise (hc : Comparable (Set.range similarities.get)) :
    (rankBySimilarity similarities threshold).Pairwise
      (Before similarities.get fun i j => i < j) := by
  rw [rankBySimilarity_eq_filter]
  apply List.Pairwise.filter
  apply StableSort.descending_pairwise (hc.mono (Set.image_subset_range _ _))
  exact List.pairwise_lt_finRange n

variable {M : Type}

/-- The entries are the best candidates: at most `k`, best first, each with the similarity and
the metadata of the candidate it names. -/
structure TopK {n : ℕ} (similarities : List.Vector F n) (metadata : Option (List M))
    (threshold : Option F) (k : ℤ) (entries : List (ℕ × F × Option M)) : Prop where
  length : (entries.length : ℤ) =
    min (max k 0) (similarities.toList.countP (meets threshold) : ℕ)
  nodup : (entries.map Prod.fst).Nodup
  ordered : entries.Pairwise fun e e' => e'.2.1 ≤ e.2.1 ∧ (e.2.1 ≤ e'.2.1 → e.1 < e'.1)
  aligned : ∀ e ∈ entries, ∃ i : Fin n, meets threshold (similarities.get i) ∧
    e = (i.val, similarities.get i, metadata.bind (·[i.val]?))
  best : ∀ i : Fin n, meets threshold (similarities.get i) → i.val ∉ entries.map Prod.fst →
    ∀ last ∈ entries.getLast?, similarities.get i ≤ last.2.1 ∧
      (last.2.1 ≤ similarities.get i → last.1 < i.val)

theorem topK_take {n : ℕ} {similarities : List.Vector F n} {metadata : Option (List M)}
    {threshold : Option F} {k : ℤ} (hc : Comparable (Set.range similarities.get)) :
    TopK similarities metadata threshold k
      (((rankBySimilarity similarities threshold).take k.toNat).map fun i =>
        (i.val, similarities.get i, metadata.bind (·[i.val]?))) := by
  have hpairwise : (rankBySimilarity similarities threshold).Pairwise
      (Before similarities.get fun i j => i < j) := rankBySimilarity_pairwise hc
  have hfst : Prod.fst ∘ (fun i : Fin n =>
      (i.val, similarities.get i, metadata.bind (·[i.val]?))) = Fin.val := rfl
  constructor
  · rw [List.length_map, List.length_take, length_rankBySimilarity]
    omega
  · rw [List.map_map, hfst]
    exact List.Nodup.map Fin.val_injective rankBySimilarity_nodup.take
  · rw [List.pairwise_map]
    exact hpairwise.take
  · intro e he
    obtain ⟨i, hi, rfl⟩ := List.mem_map.mp he
    exact ⟨i, mem_rankBySimilarity.mp (List.mem_of_mem_take hi), rfl⟩
  · intro i hi hnot last hlast
    rw [List.map_map, hfst] at hnot
    obtain ⟨j, hj, rfl⟩ := List.mem_map.mp (List.mem_of_mem_getLast? hlast)
    have hi' : i ∉ (rankBySimilarity similarities threshold).take k.toNat :=
      fun hmem => hnot (List.mem_map_of_mem hmem)
    have hbefore : Before similarities.get (fun i j => i < j) j i :=
      StableSort.rel_of_mem_take hpairwise hj (mem_rankBySimilarity.mpr hi) hi'
    exact hbefore

variable [Zero F] [Mul F] [Div F] [BEq F]

def findTopK (np : Numpy F) (queryEmbedding : List F) (candidates : List (List F))
    (k : ℤ) (metadata : Option (List M)) (threshold : Option F) :
    Except PyError (List (ℕ × F × Option M)) :=
  if k ≤ 0 then .ok []
  else do
    let similarities ← batchCosineSimilarity np queryEmbedding candidates
    let ranked := (rankBySimilarity similarities threshold).take k.toNat
    match metadata with
    | none => .ok (ranked.map fun i => (i.val, similarities.get i, none))
    | some metadata =>
      if h : metadata.length = candidates.length then
        .ok (ranked.map fun i =>
          (i.val, similarities.get i, some (metadata.get (i.cast h.symm))))
      else
        .error (.valueError (s!"metadata length {metadata.length} does not match " ++
          s!"candidates length {candidates.length}"))

variable {np : Numpy F} {queryEmbedding : List F} {candidates : List (List F)} {k : ℤ}
  {metadata : Option (List M)} {threshold : Option F}
  {similarities : List.Vector F candidates.length}

/-- With a similarity for each candidate, and metadata for each or for none, there is a result. -/
theorem findTopK_ok (hk : 0 < k)
    (hsimilarities : batchCosineSimilarity np queryEmbedding candidates = .ok similarities)
    (hmetadata : ∀ m, metadata = some m → m.length = candidates.length) :
    findTopK np queryEmbedding candidates k metadata threshold =
      .ok (((rankBySimilarity similarities threshold).take k.toNat).map fun i =>
        (i.val, similarities.get i, metadata.bind (·[i.val]?))) := by
  rw [findTopK, if_neg (not_le.mpr hk), hsimilarities]
  cases metadata with
  | none => rfl
  | some m =>
    have hlength := hmetadata m rfl
    change (if h : m.length = candidates.length then _ else _) = _
    rw [dif_pos hlength]
    congr 1
    apply List.map_congr_left
    intro i _
    have hi : i.val < m.length := by
      rw [hlength]
      exact i.isLt
    rw [Option.bind_some, List.getElem?_eq_getElem hi]
    rfl

theorem findTopK_selects
    (hsimilarities : batchCosineSimilarity np queryEmbedding candidates = .ok similarities)
    (hc : Comparable (Set.range similarities.get))
    (hmetadata : ∀ m, metadata = some m → m.length = candidates.length) :
    ∃ entries, findTopK np queryEmbedding candidates k metadata threshold = .ok entries ∧
      TopK similarities metadata threshold k entries := by
  by_cases hk : 0 < k
  · exact ⟨_, findTopK_ok hk hsimilarities hmetadata, topK_take hc⟩
  · refine ⟨[], by rw [findTopK, if_pos (not_lt.mp hk)], ?_⟩
    have htake : TopK similarities metadata threshold k _ := topK_take hc
    rwa [Int.toNat_of_nonpos (not_lt.mp hk), List.take_zero, List.map_nil] at htake

theorem findTopK_selects_first_of_equal : ∃ entries,
    findTopK Numpy.reference [1, 0] [[0, 1], [1, 0], [1, 0]] 1 (some ["a", "b", "c"]) (some 1) =
      .ok entries ∧
    TopK ⟨[0, 1, 1], rfl⟩ (some ["a", "b", "c"]) (some (1 : ℤ)) 1 entries :=
  have hsimilarities : batchCosineSimilarity Numpy.reference [1, 0] [[0, 1], [1, 0], [1, 0]] =
      .ok ⟨[0, 1, 1], rfl⟩ := rfl
  findTopK_selects hsimilarities (StableSort.comparable_of_linearOrder _) (by rintro m ⟨⟩; rfl)

section Pointwise

variable {F : Type} [Zero F] [CommMagma F] [Div F] [BEq F]

structure Numpy.Exact (np : Numpy F) : Prop where
  rowNorms : ∀ matrix, (np.rowNorms matrix).toList = matrix.map np.norm
  matvec : ∀ matrix v, (np.matvec matrix v).toList = matrix.map fun row => np.dot row v
  dot_comm : ∀ a b, np.dot a b = np.dot b a
  norm_eq_zero : ∀ v, np.norm v = 0 ↔ ∀ x ∈ v, x = 0

/-- The batch raises a `ValueError` when one of its vectors would on its own, and it gives what
they would give otherwise. -/
def BatchAgrees (np : Numpy F) (query : List F) (candidates : List (List F)) : Prop :=
  ((∃ message, batchCosineSimilarity np query candidates = .error (.valueError message)) ↔
    ∃ c ∈ candidates, ∃ message, cosineSimilarity np query c = .error (.valueError message)) ∧
  ((¬∃ message, batchCosineSimilarity np query candidates = .error (.valueError message)) →
    (batchCosineSimilarity np query candidates).map List.Vector.toList =
      candidates.mapM (cosineSimilarity np query))

def similarity (np : Numpy F) (a b : List F) : F :=
  if np.norm a == 0 || np.norm b == 0 then 0 else np.dot a b / (np.norm a * np.norm b)

variable {np : Numpy F} {query : List F} {candidates : List (List F)}

theorem cosineSimilarity_of_length {c : List F} (h : query.length = c.length) :
    cosineSimilarity np query c = .ok (similarity np query c) := by
  rw [cosineSimilarity, if_neg (not_not.mpr h), similarity]
  split <;> rfl

theorem cosineSimilarity_of_ne {c : List F} (h : query.length ≠ c.length) :
    ∃ message, cosineSimilarity np query c = .error (.valueError message) :=
  ⟨_, if_pos h⟩

theorem mapM_cosineSimilarity (h : ∀ c ∈ candidates, query.length = c.length) :
    candidates.mapM (cosineSimilarity np query) = .ok (candidates.map (similarity np query)) := by
  induction candidates with
  | nil => rfl
  | cons c candidates ih =>
    rw [List.forall_mem_cons] at h
    rw [List.mapM_cons, cosineSimilarity_of_length h.1, ih h.2]
    rfl

/-- A batch that gives the similarity to each vector, all of them having the query's length. -/
theorem batchAgrees_of_ok {similarities : List.Vector F candidates.length}
    (hbatch : batchCosineSimilarity np query candidates = .ok similarities)
    (hlength : ∀ c ∈ candidates, query.length = c.length)
    (heq : similarities.toList = candidates.map (similarity np query)) :
    BatchAgrees np query candidates := by
  refine ⟨iff_of_false ?_ ?_, fun _ => ?_⟩
  · rintro ⟨message, h⟩
    rw [hbatch] at h
    cases h
  · rintro ⟨c, hc, message, h⟩
    rw [cosineSimilarity_of_length (hlength c hc)] at h
    cases h
  · rw [hbatch, mapM_cosineSimilarity hlength, ← heq]
    rfl

theorem batchAgrees_of_error {message : String} {c : List F}
    (hbatch : batchCosineSimilarity np query candidates = .error (.valueError message))
    (hc : c ∈ candidates) (hlength : query.length ≠ c.length) :
    BatchAgrees np query candidates :=
  ⟨iff_of_true ⟨message, hbatch⟩ ⟨c, hc, cosineSimilarity_of_ne hlength⟩,
    fun h => absurd ⟨message, hbatch⟩ h⟩

theorem toList_map₂ {α β γ : Type} {n : ℕ} (f : α → β → γ) (xs : List.Vector α n)
    (ys : List.Vector β n) : (xs.map₂ f ys).toList = List.zipWith f xs.toList ys.toList := rfl

theorem toList_replicate {α : Type} (n : ℕ) (a : α) :
    (List.Vector.replicate n a).toList = List.replicate n a := rfl

theorem toList_quotients (hnp : np.Exact) (hquery : (np.norm query == 0) = false) :
    (List.Vector.map₂
      (fun value norm => if norm == 0 then 0 else value / (norm * np.norm query))
      (np.matvec candidates query) (np.rowNorms candidates)).toList =
        candidates.map (similarity np query) := by
  rw [toList_map₂, hnp.matvec, hnp.rowNorms, List.zipWith_map, List.zipWith_self]
  apply List.map_congr_left
  intro c _
  rw [similarity, hquery, Bool.false_or, hnp.dot_comm c query, mul_comm (np.norm query)]

theorem toList_zeros (hquery : (np.norm query == 0) = true) :
    (List.Vector.replicate candidates.length (0 : F)).toList =
      candidates.map (similarity np query) := by
  rw [toList_replicate, eq_comm, List.map_eq_replicate_iff]
  intro c _
  rw [similarity, hquery, Bool.true_or, if_pos rfl]

theorem batchAgrees_nil_iff [ReflBEq F] (hnp : np.Exact) {first : List F} {rest : List (List F)} :
    BatchAgrees np [] (first :: rest) ↔ ∀ c ∈ first :: rest, c = [] := by
  have hbatch : batchCosineSimilarity np [] (first :: rest) = .ok (.replicate _ 0) := rfl
  constructor
  · intro h c hc
    by_contra hne
    have hlength : ([] : List F).length ≠ c.length := by simpa [eq_comm] using hne
    obtain ⟨message, hraise⟩ := h.1.mpr ⟨c, hc, cosineSimilarity_of_ne hlength⟩
    rw [hbatch] at hraise
    cases hraise
  · intro hnil
    have hzero : (np.norm [] == 0) = true := by
      rw [(hnp.norm_eq_zero []).mpr (by simp)]
      exact BEq.rfl
    exact batchAgrees_of_ok hbatch (fun c hc => by rw [hnil c hc]) (toList_zeros hzero)

theorem batchAgrees_ragged {first : List F} {rest : List (List F)} (hquery : query ≠ [])
    (hragged : rest.any (·.length ≠ first.length) = true) :
    BatchAgrees np query (first :: rest) := by
  have hbatch : batchCosineSimilarity np query (first :: rest) =
      .error (.valueError "setting an array element with a sequence.") := by
    rw [batchCosineSimilarity, if_neg (by rwa [List.isEmpty_iff]), if_pos hragged]
  obtain ⟨c, hc, hne⟩ := List.any_eq_true.mp hragged
  have hne : c.length ≠ first.length := of_decide_eq_true hne
  by_cases hfirst : query.length = first.length
  · exact batchAgrees_of_error hbatch (List.mem_cons_of_mem _ hc) (hfirst ▸ hne.symm)
  · exact batchAgrees_of_error hbatch List.mem_cons_self hfirst

theorem batchAgrees_of_query (hnp : np.Exact) {first : List F} {rest : List (List F)}
    (hquery : query ≠ []) : BatchAgrees np query (first :: rest) := by
  have hisEmpty : ¬query.isEmpty = true := by rwa [List.isEmpty_iff]
  by_cases hragged : rest.any (·.length ≠ first.length) = true
  · exact batchAgrees_ragged hquery hragged
  by_cases hwidth : first.length ≠ query.length
  · have hbatch : ∃ message, batchCosineSimilarity np query (first :: rest) =
        .error (.valueError message) :=
      ⟨_, by rw [batchCosineSimilarity, if_neg hisEmpty, if_neg hragged, if_pos hwidth]⟩
    exact batchAgrees_of_error hbatch.choose_spec List.mem_cons_self hwidth.symm
  -- every vector has the query's length
  have hfirst : query.length = first.length := (not_not.mp hwidth).symm
  have hlength : ∀ c ∈ first :: rest, query.length = c.length := by
    intro c hc
    rcases List.mem_cons.mp hc with rfl | hc
    · exact hfirst
    · by_contra hne
      apply hragged
      rw [List.any_eq_true]
      exact ⟨c, hc, decide_eq_true fun heq => hne (hfirst.trans heq.symm)⟩
  cases hnorm : np.norm query == 0 with
  | true =>
    apply batchAgrees_of_ok _ hlength (toList_zeros hnorm)
    rw [batchCosineSimilarity, if_neg hisEmpty, if_neg hragged, if_neg hwidth, if_pos hnorm]
  | false =>
    apply batchAgrees_of_ok _ hlength (toList_quotients hnp hnorm)
    rw [batchCosineSimilarity, if_neg hisEmpty, if_neg hragged, if_neg hwidth,
      if_neg (by simp [hnorm])]

theorem batch_agrees_iff [ReflBEq F] (hnp : np.Exact) :
    BatchAgrees np query candidates ↔ (query = [] → ∀ c ∈ candidates, c = []) := by
  cases candidates with
  | nil => exact iff_of_true (batchAgrees_of_ok rfl (by simp) rfl) (by simp)
  | cons first rest =>
    by_cases hquery : query = []
    · subst hquery
      rw [batchAgrees_nil_iff hnp]
      exact ⟨fun h _ => h, fun h => h rfl⟩
    · exact iff_of_true (batchAgrees_of_query hnp hquery) fun h => absurd h hquery

theorem Numpy.exact_reference : Numpy.reference.Exact where
  rowNorms _ := rfl
  matvec _ _ := rfl
  dot_comm a b := by
    change (List.zipWith (· * ·) a b).foldr (· + ·) 0 = (List.zipWith (· * ·) b a).foldr (· + ·) 0
    rw [List.zipWith_comm_of_comm mul_comm]
  norm_eq_zero v := by
    change v.foldr (fun x total => (x.natAbs + total : ℤ)) 0 = 0 ↔ _
    induction v with
    | nil => simp
    | cons x v ih =>
      have hnonneg (v : List ℤ) : 0 ≤ v.foldr (fun x total => (x.natAbs + total : ℤ)) 0 := by
        induction v with
        | nil => exact le_rfl
        | cons x v ih =>
          rw [List.foldr_cons]
          omega
      have hv := hnonneg v
      rw [List.foldr_cons, List.forall_mem_cons, ← ih]
      omega

theorem batch_agrees_iff_zero_candidate :
    BatchAgrees Numpy.reference [1, 0] [[0, 2], [0, 0]] ↔
      (([1, 0] : List ℤ) = [] → ∀ c ∈ ([[0, 2], [0, 0]] : List (List ℤ)), c = []) :=
  batch_agrees_iff Numpy.exact_reference

theorem batch_empty_query : ¬BatchAgrees Numpy.reference [] [[1]] := by
  intro h
  obtain ⟨message, hraise⟩ := h.1.mpr ⟨[1], List.mem_cons_self, _, rfl⟩
  cases hraise

end Pointwise

end AtomicMemory
