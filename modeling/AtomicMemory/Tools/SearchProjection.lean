import AtomicMemory.Tools.Models

-- What `project_search` shows of a page: the first hits with the evidence the backend sent, as
-- much of each content as the two bounds leave, and flags that say what is missing.

namespace AtomicMemory.Tools

variable {α : Type}

structure Shows (room : ℕ) (result : SearchResult α) (hit : MemorySearchHit) : Prop where
  id : hit.id = result.memory.id
  score : hit.score = result.score
  similarity : hit.similarity = result.similarity
  rankingScore : hit.rankingScore = result.rankingScore
  relevance : hit.relevance = result.relevance
  versionId : hit.versionId = result.versionId
  observedAt : hit.observedAt = result.observedAt
  beginning : hit.content.toList <+: result.memory.content.toList
  bound : hit.content.length ≤ maxHitContent
  fits : hit.content.length ≤ room
  longest : ∀ text : List Char, text <+: result.memory.content.toList → text.length ≤ maxHitContent →
    text.length ≤ room → text.length ≤ hit.content.length
  truncated : hit.truncated = true ↔ hit.content ≠ result.memory.content

def spent (n : ℕ) (hits : List MemorySearchHit) : ℕ :=
  ((hits.take n).map (·.content.length)).sum

structure Projects (page : SearchResultPage α) (limit : ℤ) (output : MemorySearchOutput) :
    Prop where
  length : (output.results.length : ℤ) = min limit page.results.length
  shows : ∀ n result hit, page.results[n]? = some result → output.results[n]? = some hit →
    Shows (maxTotalContent - spent n output.results) result hit
  total : (output.results.map (·.content.length)).sum ≤ maxTotalContent
  truncated : output.truncated = true ↔ output.results.length < page.results.length ∨
    ∃ (n : ℕ) (result : SearchResult α) (hit : MemorySearchHit),
      page.results[n]? = some result ∧ output.results[n]? = some hit ∧
        hit.content ≠ result.memory.content

theorem textPrefix_eq_self {text : String} {n : ℕ} (h : text.length ≤ n) :
    textPrefix text n = text := by
  rw [textPrefix, List.take_of_length_le (by rwa [String.length_toList]), String.ofList_toList]

theorem textPrefix_ne_iff {text : String} {n : ℕ} :
    textPrefix text n ≠ text ↔ (textPrefix text n).length < text.length := by
  constructor
  · intro hne
    rw [length_textPrefix]
    by_contra hle
    exact hne (textPrefix_eq_self (by omega))
  · intro hlt heq
    rw [heq] at hlt
    exact lt_irrefl _ hlt

theorem projectHit_shows (room : ℕ) {result : SearchResult α} (hid : result.memory.id ≠ "") :
    ∃ hit, projectHit room result = .ok hit ∧ Shows room result hit := by
  refine ⟨_, if_neg hid, ?_⟩
  have hlength : (textPrefix result.memory.content (min maxHitContent room)).length =
      min (min maxHitContent room) result.memory.content.length := length_textPrefix _ _
  constructor
  case beginning =>
    rw [textPrefix, String.toList_ofList]
    exact List.take_prefix _ _
  case bound => exact hlength.trans_le (by omega)
  case fits => exact hlength.trans_le (by omega)
  case longest =>
    intro text htext hbound hfits
    have hle := htext.length_le
    rw [String.length_toList] at hle
    rw [hlength]
    omega
  case truncated =>
    rw [decide_eq_true_eq]
    exact textPrefix_ne_iff.symm
  all_goals rfl

theorem spent_cons (n : ℕ) (hit : MemorySearchHit) (hits : List MemorySearchHit) :
    spent (n + 1) (hit :: hits) = hit.content.length + spent n hits := by
  rw [spent, List.take_succ_cons, List.map_cons, List.sum_cons, spent]

theorem projectHits_shows (room : ℕ) {hits : List (SearchResult α)}
    (hids : ∀ hit ∈ hits, hit.memory.id ≠ "") :
    ∃ results, projectHits room hits = .ok results ∧ results.length = hits.length ∧
      ∀ n result hit, hits[n]? = some result → results[n]? = some hit →
        Shows (room - spent n results) result hit := by
  induction hits generalizing room with
  | nil => exact ⟨[], rfl, rfl, fun n result hit hresult => by cases hresult⟩
  | cons first hits ih =>
    rw [List.forall_mem_cons] at hids
    obtain ⟨shown, hshown, hfirst⟩ := projectHit_shows room hids.1
    obtain ⟨rest, hrest, hlength, hshows⟩ := ih (room - shown.content.length) hids.2
    refine ⟨shown :: rest, Except.bind_intro hshown (Except.bind_intro hrest rfl),
      congrArg Nat.succ hlength, ?_⟩
    intro n result hit hresult hhit
    cases n with
    | zero =>
      cases hresult
      cases hhit
      exact hfirst
    | succ n =>
      have h := hshows n result hit hresult hhit
      rwa [Nat.sub_sub, ← spent_cons] at h

theorem projectSearch_honest {page : SearchResultPage α} {limit : ℤ} (hlimit : 1 ≤ limit)
    (hids : ∀ result ∈ page.results, result.memory.id ≠ "") :
    ∃ output, projectSearch page limit = .ok output ∧ Projects page limit output := by
  have htaken : ∀ hit ∈ page.results.take limit.toNat, hit.memory.id ≠ "" :=
    fun hit hhit => hids hit (List.mem_of_mem_take hhit)
  obtain ⟨results, hresults, hlength, hshows⟩ := projectHits_shows maxTotalContent htaken
  rw [List.length_take] at hlength
  have hgiven (n : ℕ) {hit : MemorySearchHit} (hhit : results[n]? = some hit) :
      (page.results.take limit.toNat)[n]? = page.results[n]? := by
    have hn := (List.getElem?_eq_some_iff.mp hhit).1
    rw [List.getElem?_take_of_lt (by omega)]
  have hshows' (n : ℕ) (result : SearchResult α) (hit : MemorySearchHit)
      (hresult : page.results[n]? = some result) (hhit : results[n]? = some hit) :
      Shows (maxTotalContent - spent n results) result hit :=
    hshows n result hit ((hgiven n hhit).trans hresult) hhit
  refine ⟨_, Except.bind_intro hresults rfl, ?_, hshows', (projectHits_ok hresults).2, ?_⟩
  · change (results.length : ℤ) = _
    omega
  · change (decide (results.length < page.results.length) || results.any (·.truncated)) = true ↔ _
    rw [Bool.or_eq_true, decide_eq_true_eq, List.any_eq_true]
    refine or_congr_right ⟨?_, ?_⟩
    · rintro ⟨hit, hmem, htruncated⟩
      obtain ⟨n, hhit⟩ := List.mem_iff_getElem?.mp hmem
      have hn := (List.getElem?_eq_some_iff.mp hhit).1
      have hresult : page.results[n]? = some page.results[n] := List.getElem?_eq_getElem _
      exact ⟨n, _, hit, hresult, hhit, (hshows' n _ hit hresult hhit).truncated.mp htruncated⟩
    · rintro ⟨n, result, hit, hresult, hhit, hne⟩
      exact ⟨hit, List.mem_of_getElem? hhit, (hshows' n result hit hresult hhit).truncated.mpr hne⟩

def twinPage : SearchResultPage String :=
  let memory : Memory String :=
    ⟨"m", "alpha", ⟨none, none, none, none⟩, none, .utc 0 Calendar.maxTicks_pos, none, none, none⟩
  ⟨[⟨memory, 1, none, none, none, none, none⟩, ⟨memory, 1, none, none, none, none, none⟩], none,
    none⟩

theorem projectSearch_honest_twin :
    ∃ output, projectSearch twinPage 1 = .ok output ∧ Projects twinPage 1 output := by
  refine projectSearch_honest le_rfl fun result hresult => ?_
  rcases List.mem_pair.mp hresult with rfl | rfl
  all_goals decide

end AtomicMemory.Tools
