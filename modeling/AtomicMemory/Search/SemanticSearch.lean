import AtomicMemory.Lib.PyValue
import AtomicMemory.Search.Ranking
import AtomicMemory.Search.Similarity
import Mathlib.Algebra.Order.Ring.Int

-- The search over contexts in memory: embed the query, score and rank the contexts, cut the list.
-- It cuts with a Python slice, where `findTopK` asks whether any result is wanted at all.

namespace AtomicMemory

variable {F : Type}

structure StoredContext (F : Type) where
  id : String
  content : String
  embedding : List F
  metadata : Option PyValue.Items := none
  timestamp : Option F := none
  userId : Option String := none

structure SemanticSearchResult (F : Type) where
  context : StoredContext F
  score : F

structure SemanticSearchConfig (F : Type) where
  defaultTopK : ℤ := 10
  defaultThreshold : F
  maxResults : ℤ := 100
  rerankingEnabled : Bool := true
  ranking : RankingConfig F

/-- `items[:stop]`: a negative bound counts from the end. -/
def sliceTo {α : Type} (items : List α) (stop : ℤ) : List α :=
  if stop < 0 then items.take (items.length - stop.natAbs) else items.take stop.toNat

theorem sliceTo_eq_nil_iff {α : Type} {items : List α} {stop : ℤ} (h : stop ≤ 0) :
    sliceTo items stop = [] ↔ stop = 0 ∨ (items.length : ℤ) ≤ -stop := by
  unfold sliceTo
  split
  · rw [List.take_eq_nil_iff, ← List.length_eq_zero_iff]
    omega
  · have hzero : stop = 0 := by omega
    simp [hzero]

def candidatePool (contexts : List (StoredContext F)) (filterFn : Option (StoredContext F → Bool)) :
    List (StoredContext F) :=
  match filterFn with
  | some f => contexts.filter f
  | none => contexts

section FindTopK

variable [Zero F] [Mul F] [Div F] [BEq F] [LE F] [LT F] [DecidableLE F] [DecidableLT F]

def entryPairs (entries : List (ℕ × F × Option (StoredContext F))) :
    List (Option (StoredContext F) × F) :=
  entries.map fun e => (e.2.2, e.2.1)

/-- Something is asked for, or nothing is scored, or everything is scored without an error and
the slice leaves nothing of it. -/
def SliceAgrees (np : Numpy F) (queryEmbedding : List F) (candidates : List (StoredContext F))
    (k : ℤ) (threshold : F) : Prop :=
  0 < k ∨ candidates = [] ∨ ∃ similarities,
    batchCosineSimilarity np queryEmbedding (candidates.map StoredContext.embedding) =
      .ok similarities ∧
    (k = 0 ∨ (similarities.toList.countP (meets (some threshold)) : ℤ) ≤ -k)

variable {np : Numpy F} {queryEmbedding : List F} {threshold : Option F}

theorem entryPairs_findTopK {candidates : List (StoredContext F)} {k : ℤ} (hk : 0 < k) :
    (findTopK np queryEmbedding (candidates.map StoredContext.embedding) k (some candidates)
        threshold).map entryPairs =
      (batchCosineSimilarity np queryEmbedding (candidates.map StoredContext.embedding)).map
        fun similarities => ((rankBySimilarity similarities threshold).take k.toNat).map fun i =>
          (some (candidates.get (i.cast (List.length_map _))), similarities.get i) := by
  cases hbatch : batchCosineSimilarity np queryEmbedding
      (candidates.map StoredContext.embedding) with
  | error e =>
    rw [findTopK, if_neg (not_le.mpr hk), hbatch]
    rfl
  | ok similarities =>
    have hmetadata (m : List (StoredContext F)) (hm : some candidates = some m) :
        m.length = (candidates.map StoredContext.embedding).length := by
      rw [List.length_map, Option.some.inj hm]
    rw [findTopK_ok hk hbatch hmetadata]
    change Except.ok _ = Except.ok _
    rw [entryPairs, List.map_map]
    congr 1
    apply List.map_congr_left
    intro i _
    have hi : i.val < candidates.length := i.isLt.trans_eq (List.length_map _)
    change (candidates[i.val]?, _) = _
    rw [List.getElem?_eq_getElem hi]
    rfl

theorem findTopK_nil {k : ℤ} :
    findTopK np queryEmbedding [] k (some ([] : List (StoredContext F))) threshold = .ok [] := by
  by_cases hk : 0 < k
  · have hbatch : batchCosineSimilarity np queryEmbedding [] = .ok .nil := rfl
    rw [findTopK_ok hk hbatch (by rintro m ⟨⟩; rfl)]
    have hnil (l : List (Fin 0)) : l = [] := List.eq_nil_iff_forall_not_mem.mpr fun i => i.elim0
    rw [hnil (List.take _ _)]
    rfl
  · rw [findTopK, if_pos (not_lt.mp hk)]

end FindTopK

section Rerank

variable [One F] [Mul F] [Sub F] [IntCast F] [LT F] [DecidableLT F]

def toRankable (results : List (SemanticSearchResult F)) : List (RankableHit F) :=
  results.mapIdx fun i r =>
    { content := r.context.content, score := r.score, timestampSeconds := r.context.timestamp,
      originalIndex := some i }

def applyRerank (config : SemanticSearchConfig F) (now : F)
    (results : List (SemanticSearchResult F)) : List (SemanticSearchResult F) :=
  (rerank (toRankable results) config.ranking now).filterMap fun hit =>
    (hit.originalIndex.bind (results[·]?)).map fun r => ⟨r.context, hit.score⟩

theorem map_context_toRankable (config : SemanticSearchConfig F) (now : F)
    (results : List (SemanticSearchResult F)) :
    (((toRankable results).map (adjust config.ranking now)).filterMap fun hit =>
      (hit.originalIndex.bind (results[·]?)).map fun r => (⟨r.context, hit.score⟩ :
        SemanticSearchResult F)).map SemanticSearchResult.context =
      results.map SemanticSearchResult.context := by
  have hsome : ∀ p ∈ results.zipIdx, results[p.2]? = some p.1 := fun p hp =>
    List.mem_zipIdx_iff_getElem?.mp hp
  calc _ = (results.zipIdx.filterMap fun p =>
          (results[p.2]?).map SemanticSearchResult.context) := by
        rw [toRankable, List.mapIdx_eq_zipIdx_map, List.map_map, List.filterMap_map,
          List.map_filterMap]
        simp only [Function.comp_def, adjust, Option.bind_some, Option.map_map]
    _ = results.zipIdx.filterMap (some ∘ SemanticSearchResult.context ∘ Prod.fst) := by
        apply List.filterMap_congr
        intro p hp
        rw [hsome p hp]
        rfl
    _ = results.map SemanticSearchResult.context := by
        rw [List.filterMap_eq_map, ← List.map_map, List.zipIdx_map_fst]

theorem applyRerank_perm (config : SemanticSearchConfig F) (now : F)
    (results : List (SemanticSearchResult F)) :
    ((applyRerank config now results).map SemanticSearchResult.context).Perm
      (results.map SemanticSearchResult.context) := by
  rw [← map_context_toRankable config now results]
  exact ((rerank_perm _ _ _).filterMap _).map _

end Rerank

variable [Zero F] [One F] [Mul F] [Div F] [Sub F] [IntCast F] [BEq F]
  [LE F] [LT F] [DecidableLE F] [DecidableLT F]

def SemanticSearch.search (np : Numpy F) (embed : String → Except PyError (List F))
    (config : SemanticSearchConfig F) (query : String) (contexts : List (StoredContext F))
    (topK : Option ℤ) (threshold : Option F) (filterFn : Option (StoredContext F → Bool))
    (rerankResults : Option Bool) (now : F) : Except PyError (List (SemanticSearchResult F)) :=
  if contexts.isEmpty then .ok []
  else
    let candidates := candidatePool contexts filterFn
    if candidates.isEmpty then .ok []
    else do
      let queryEmbedding ← embed query
      let similarities ← batchCosineSimilarity np queryEmbedding
        (candidates.map StoredContext.embedding)
      let effectiveThreshold := threshold.getD config.defaultThreshold
      let rankedIndices := rankBySimilarity similarities (some effectiveThreshold)
      let effectiveTopK := min (topK.getD config.defaultTopK) config.maxResults
      let primary := (sliceTo rankedIndices effectiveTopK).map fun i =>
        ⟨candidates.get (i.cast (List.length_map _)), similarities.get i⟩
      if rerankResults.getD config.rerankingEnabled = false || primary.isEmpty then .ok primary
      else .ok (applyRerank config now primary)

def resultPairs (results : List (SemanticSearchResult F)) : List (Option (StoredContext F) × F) :=
  results.map fun r => (some r.context, r.score)

variable {np : Numpy F} {embed : String → Except PyError (List F)}
  {config : SemanticSearchConfig F} {query : String} {contexts : List (StoredContext F)}
  {topK : Option ℤ} {threshold : Option F} {filterFn : Option (StoredContext F → Bool)}
  {rerankResults : Option Bool} {now : F} {queryEmbedding : List F}

theorem search_of_pool_nil (hpool : candidatePool contexts filterFn = []) :
    SemanticSearch.search np embed config query contexts topK threshold filterFn rerankResults now =
      .ok [] := by
  unfold SemanticSearch.search
  split
  · rfl
  · dsimp only
    rw [if_pos (List.isEmpty_iff.mpr hpool)]

theorem search_of_pool (hoff : rerankResults.getD config.rerankingEnabled = false)
    (hembed : embed query = .ok queryEmbedding) (hpool : candidatePool contexts filterFn ≠ []) :
    SemanticSearch.search np embed config query contexts topK threshold filterFn rerankResults now =
      (batchCosineSimilarity np queryEmbedding
        ((candidatePool contexts filterFn).map StoredContext.embedding)).map fun similarities =>
          (sliceTo (rankBySimilarity similarities (some (threshold.getD config.defaultThreshold)))
            (min (topK.getD config.defaultTopK) config.maxResults)).map fun i =>
              ⟨(candidatePool contexts filterFn).get (i.cast (List.length_map _)),
                similarities.get i⟩ := by
  have hcontexts : contexts ≠ [] := by
    rintro rfl
    cases filterFn <;> exact hpool rfl
  have hisEmpty {α : Type} {l : List α} (h : l ≠ []) : ¬ l.isEmpty = true := by
    rwa [List.isEmpty_iff]
  unfold SemanticSearch.search
  rw [if_neg (hisEmpty hcontexts)]
  dsimp only
  rw [if_neg (hisEmpty hpool), hembed]
  change (batchCosineSimilarity np queryEmbedding
    ((candidatePool contexts filterFn).map StoredContext.embedding) >>= _) = _
  cases batchCosineSimilarity np queryEmbedding
      ((candidatePool contexts filterFn).map StoredContext.embedding) with
  | error e => rfl
  | ok similarities =>
    dsimp only [bind, Except.bind, Except.map]
    rw [hoff, if_pos (by simp)]

theorem search_agrees_iff (hoff : rerankResults.getD config.rerankingEnabled = false)
    (hembed : embed query = .ok queryEmbedding) :
    (SemanticSearch.search np embed config query contexts topK threshold filterFn rerankResults
        now).map resultPairs =
      (findTopK np queryEmbedding
        ((candidatePool contexts filterFn).map StoredContext.embedding)
        (min (topK.getD config.defaultTopK) config.maxResults)
        (some (candidatePool contexts filterFn))
        (some (threshold.getD config.defaultThreshold))).map entryPairs ↔
    SliceAgrees np queryEmbedding (candidatePool contexts filterFn)
      (min (topK.getD config.defaultTopK) config.maxResults)
      (threshold.getD config.defaultThreshold) := by
  by_cases hpool : candidatePool contexts filterFn = []
  · rw [search_of_pool_nil hpool, hpool]
    refine iff_of_true ?_ (.inr (.inl rfl))
    rw [List.map_nil, findTopK_nil]
    rfl
  rw [search_of_pool hoff hembed hpool]
  generalize min (topK.getD config.defaultTopK) config.maxResults = k
  by_cases hk : 0 < k
  · refine iff_of_true ?_ (.inl hk)
    rw [entryPairs_findTopK hk]
    cases batchCosineSimilarity np queryEmbedding
        ((candidatePool contexts filterFn).map StoredContext.embedding) with
    | error e => rfl
    | ok similarities =>
      change Except.ok _ = Except.ok _
      rw [resultPairs, List.map_map, sliceTo, if_neg (by omega)]
      rfl
  · rw [findTopK, if_pos (not_lt.mp hk)]
    unfold SliceAgrees
    rw [or_iff_right hk, or_iff_right hpool]
    cases batchCosineSimilarity np queryEmbedding
        ((candidatePool contexts filterFn).map StoredContext.embedding) with
    | error e =>
      refine iff_of_false (fun h => ?_) (fun h => ?_)
      · cases h
      · obtain ⟨_, h, _⟩ := h
        cases h
    | ok similarities =>
      change Except.ok (resultPairs (List.map _ _)) = Except.ok [] ↔ _
      rw [Except.ok.injEq, resultPairs, List.map_eq_nil_iff, List.map_eq_nil_iff,
        sliceTo_eq_nil_iff (not_lt.mp hk), length_rankBySimilarity]
      simp

/-- Two contexts that both meet a threshold, for a bound of `-1`. -/
def negativeTopK : SemanticSearchConfig ℤ where
  defaultTopK := -1
  defaultThreshold := 1
  rerankingEnabled := false
  ranking := ⟨500, 1, 2000, 1, 7, 1, 1⟩

def alphaContexts : List (StoredContext ℤ) :=
  [⟨"a", "alpha", [1, 0], none, none, none⟩, ⟨"b", "alpha", [1, 0], none, none, none⟩]

theorem search_agrees_iff_negative :
    (SemanticSearch.search Numpy.reference (fun _ => .ok [1, 0]) negativeTopK "alpha" alphaContexts
        (some (-1)) none none (some false) 0).map resultPairs =
      (findTopK Numpy.reference [1, 0] (alphaContexts.map StoredContext.embedding) (-1)
        (some alphaContexts) (some 1)).map entryPairs ↔
    SliceAgrees Numpy.reference [1, 0] alphaContexts (-1) 1 :=
  search_agrees_iff rfl rfl

theorem search_negative_bound :
    (SemanticSearch.search Numpy.reference (fun _ => .ok [1, 0]) negativeTopK "alpha" alphaContexts
        (some (-1)) none none (some false) 0).map resultPairs ≠
      (findTopK Numpy.reference [1, 0] (alphaContexts.map StoredContext.embedding) (-1)
        (some alphaContexts) (some 1)).map entryPairs := by
  have hsearch : SemanticSearch.search Numpy.reference (fun _ => .ok [1, 0]) negativeTopK "alpha"
      alphaContexts (some (-1)) none none (some false) 0 =
        .ok [⟨⟨"a", "alpha", [1, 0], none, none, none⟩, 1⟩] := rfl
  have hfind : findTopK Numpy.reference [1, 0] (alphaContexts.map StoredContext.embedding) (-1)
      (some alphaContexts) (some 1) = .ok [] := rfl
  rw [hsearch, hfind]
  intro h
  cases h

/-- Both searches raise the same, or they return the same contexts, each as often. -/
def SameContexts {F : Type} :
    Except PyError (List (SemanticSearchResult F)) →
      Except PyError (List (SemanticSearchResult F)) → Prop
  | .ok results, .ok results' =>
    (results.map SemanticSearchResult.context).Perm (results'.map SemanticSearchResult.context)
  | .error e, .error e' => e = e'
  | _, _ => False

theorem search_sameContexts (rerankResults rerankResults' : Option Bool) (now now' : F) :
    SameContexts
      (SemanticSearch.search np embed config query contexts topK threshold filterFn rerankResults
        now)
      (SemanticSearch.search np embed config query contexts topK threshold filterFn rerankResults'
        now') := by
  have hreturned (rerankResults : Option Bool) (now : F)
      (primary : List (SemanticSearchResult F)) : ∃ results,
      (if rerankResults.getD config.rerankingEnabled = false || primary.isEmpty then
          (.ok primary : Except PyError (List (SemanticSearchResult F)))
        else .ok (applyRerank config now primary)) = .ok results ∧
      (results.map SemanticSearchResult.context).Perm
        (primary.map SemanticSearchResult.context) := by
    split
    · exact ⟨primary, rfl, .refl _⟩
    · exact ⟨_, rfl, applyRerank_perm config now primary⟩
  unfold SemanticSearch.search
  split
  · exact .refl _
  dsimp only
  split
  · exact .refl _
  cases embed query with
  | error e => rfl
  | ok queryEmbedding =>
    dsimp only [bind, Except.bind]
    cases batchCosineSimilarity np queryEmbedding
        ((candidatePool contexts filterFn).map StoredContext.embedding) with
    | error e => rfl
    | ok similarities =>
      dsimp only
      obtain ⟨results, hresults, hperm⟩ := hreturned rerankResults now
        ((sliceTo (rankBySimilarity similarities (some (threshold.getD config.defaultThreshold)))
          (min (topK.getD config.defaultTopK) config.maxResults)).map fun i =>
            ⟨(candidatePool contexts filterFn).get (i.cast (List.length_map _)),
              similarities.get i⟩)
      obtain ⟨results', hresults', hperm'⟩ := hreturned rerankResults' now'
        ((sliceTo (rankBySimilarity similarities (some (threshold.getD config.defaultThreshold)))
          (min (topK.getD config.defaultTopK) config.maxResults)).map fun i =>
            ⟨(candidatePool contexts filterFn).get (i.cast (List.length_map _)),
              similarities.get i⟩)
      rw [hresults, hresults']
      exact hperm.trans hperm'.symm

section

variable {F : Type} [Ring F] [Div F] [LinearOrder F] [IsOrderedRing F] [BEq F]

theorem rerank_lossless {ranking : RankingConfig F} (hfactors : NonnegFactors ranking)
    (hits : List (RankableHit F)) (now : F) :
    (∃ order, RerankOrder hits ranking now order ∧
      rerank hits ranking now = order.map fun i =>
        { hits.get i with
          score := min ((hits.get i).score * (lengthFactor (hits.get i).content ranking *
            recencyFactor (hits.get i).timestampSeconds now ranking)) ranking.scoreCap }) ∧
    ∀ (np : Numpy F) embed config query contexts topK threshold filterFn now',
      SameContexts
        (SemanticSearch.search np embed config query contexts topK threshold filterFn (some true)
          now)
        (SemanticSearch.search np embed config query contexts topK threshold filterFn (some false)
          now') := by
  obtain ⟨order, horder, hrerank⟩ := rerank_order hfactors now hits
  refine ⟨⟨order, horder, ?_⟩, fun np embed config query contexts topK threshold filterFn now' =>
    search_sameContexts (some true) (some false) now now'⟩
  rw [hrerank]
  exact List.map_congr_left fun i _ => adjust_eq ranking now (hits.get i)

end

def cappedRanking : RankingConfig ℤ := ⟨500, 2, 2000, 1, 7, 1, 4⟩

def cappedHits : List (RankableHit ℤ) :=
  [⟨"alpha", 1, none, some 0⟩, ⟨"alpha", 2, none, some 1⟩, ⟨"beta", 3, none, some 2⟩]

theorem rerank_lossless_capped :
    (∃ order, RerankOrder cappedHits cappedRanking 0 order ∧
      rerank cappedHits cappedRanking 0 = order.map fun i =>
        { cappedHits.get i with
          score := min ((cappedHits.get i).score * (lengthFactor (cappedHits.get i).content
            cappedRanking * recencyFactor (cappedHits.get i).timestampSeconds 0 cappedRanking))
              cappedRanking.scoreCap }) ∧
    ∀ (np : Numpy ℤ) embed config query contexts topK threshold filterFn now',
      SameContexts
        (SemanticSearch.search np embed config query contexts topK threshold filterFn (some true)
          0)
        (SemanticSearch.search np embed config query contexts topK threshold filterFn (some false)
          now') :=
  rerank_lossless ⟨by decide, by decide, by decide⟩ cappedHits 0

end AtomicMemory
