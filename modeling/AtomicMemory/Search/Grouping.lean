import AtomicMemory.Search.Chunking

-- The text is split into units, and chunks are made of runs of units that overlap. Nothing checks
-- that the overlap is smaller than a run.

namespace AtomicMemory

/-- What `[.!?]+` matches at the start of a text. -/
def sentenceEnd : List Char → ℕ := Split.runLength fun c => c = '.' || c = '!' || c = '?'

/-- What `\n\s*\n` matches there: up to the last newline of the whitespace. -/
def blankLines : List Char → ℕ
  | '\n' :: rest =>
    match ((rest.takeWhile isSpace).rdropWhile (· ≠ '\n')).length with
    | 0 => 0
    | n + 1 => n + 2
  | _ => 0

/-- `[s.strip() for s in re.split(pattern, text) if s.strip()]`. -/
def units (pattern : List Char → ℕ) (text : List Char) : List (List Char) :=
  ((Split.split pattern 0 text).map stripText).filter fun unit => !unit.isEmpty

structure GroupState where
  chunks : List (List Char) := []
  current : ℤ := 0

/-- One round of the loops of `chunk_by_sentences` and `chunk_by_paragraphs`. -/
def groupRound (units : List (List Char)) (join : List (List Char) → List Char)
    (maxUnits overlap : ℤ) (s : GroupState) : GroupState ⊕ List (List Char) :=
  if s.current < units.length then
    let stop := min (s.current + maxUnits) units.length
    let part := slice units s.current stop
    let chunks := if part.isEmpty then s.chunks else s.chunks ++ [join part]
    let current := stop - overlap
    if current ≤ 0 ∨ units.length ≤ stop then .inr chunks else .inl { chunks, current }
  else .inr s.chunks

def chunkByUnits (pattern : List Char → ℕ) (join : List (List Char) → List Char)
    (text : List Char) (maxUnits overlap : ℤ) (fuel : ℕ) : Option (List (List Char)) :=
  if text = [] then some []
  else if (units pattern text).length ≤ maxUnits then some [text]
  else (Loop.run (groupRound (units pattern text) join maxUnits overlap) fuel {}).map Prod.snd

def joinSentences (part : List (List Char)) : List Char :=
  ['.', ' '].intercalate part ++ ['.']

def joinParagraphs (part : List (List Char)) : List Char := ['\n', '\n'].intercalate part

def chunkBySentences (text : List Char) (maxSentences : ℤ) (fuel : ℕ)
    (overlapSentences : ℤ := 1) : Option (List (List Char)) :=
  chunkByUnits sentenceEnd joinSentences text maxSentences overlapSentences fuel

def chunkByParagraphs (text : List Char) (maxParagraphs : ℤ) (fuel : ℕ)
    (overlapParagraphs : ℤ := 0) : Option (List (List Char)) :=
  chunkByUnits blankLines joinParagraphs text maxParagraphs overlapParagraphs fuel

/-- Each unit stands in a chunk, and where there are more than `maxUnits` the chunks are runs of
them, in order, that leave out none. -/
structure Grouped (units : List (List Char)) (join : List (List Char) → List Char)
    (maxUnits : ℤ) (chunks : List (List Char)) : Prop where
  lossless : ∀ unit ∈ units, ∃ chunk ∈ chunks, unit <:+: chunk
  runs : maxUnits < units.length → ∃ runs : List (ℤ × ℤ),
    chunks = runs.map (fun r => join (slice units r.1 r.2)) ∧
    (∀ r ∈ runs, 0 ≤ r.1 ∧ r.1 < r.2 ∧ r.2 ≤ units.length ∧ r.2 - r.1 ≤ maxUnits) ∧
    runs.Pairwise (fun r r' => r.1 < r'.1) ∧
    ∀ i : ℤ, 0 ≤ i → i < units.length → ∃ r ∈ runs, r.1 ≤ i ∧ i < r.2

theorem infix_of_mem_units {pattern : List Char → ℕ} {text unit : List Char}
    (h : unit ∈ units pattern text) : unit <:+: text := by
  obtain ⟨piece, hpiece, rfl⟩ := List.mem_map.mp (List.mem_filter.mp h).1
  exact (stripText_within piece).trans ((Split.split_within 0 text).1 piece hpiece)

theorem infix_intercalate {sep unit : List Char} {part : List (List Char)} (h : unit ∈ part) :
    unit <:+: sep.intercalate part := by
  induction part with
  | nil => cases h
  | cons first part ih =>
    cases part with
    | nil =>
      rw [List.mem_singleton.mp h, List.intercalate_singleton]
    | cons second part =>
      rw [List.intercalate_cons_cons]
      rcases List.mem_cons.mp h with rfl | h
      · rw [List.append_assoc]
        exact (List.prefix_append _ _).isInfix
      · exact (ih h).trans (List.suffix_append _ _).isInfix

theorem infix_joinSentences {unit : List Char} {part : List (List Char)} (h : unit ∈ part) :
    unit <:+: joinSentences part :=
  (infix_intercalate h).trans (List.prefix_append _ _).isInfix

section Runs

variable {units : List (List Char)} {join : List (List Char) → List Char} {maxUnits overlap : ℤ}

def unitRun (units : List (List Char)) (maxUnits : ℤ) (s : GroupState) : ℤ × ℤ :=
  (s.current, min (s.current + maxUnits) units.length)

theorem slice_unitRun_ne_nil {s : GroupState} (hmax : 0 < maxUnits) (h0 : 0 ≤ s.current)
    (hlt : s.current < units.length) :
    (slice units (unitRun units maxUnits s).1 (unitRun units maxUnits s).2).isEmpty = false := by
  have hlength : ((slice units s.current (min (s.current + maxUnits) units.length)).length : ℤ) =
      min (s.current + maxUnits) units.length - s.current :=
    length_slice units h0 (by omega) (by omega)
  rw [List.isEmpty_eq_false_iff_exists_mem]
  apply List.exists_mem_of_length_pos
  dsimp only [unitRun]
  omega

/-- A round joins a run, and leaves the loop when the run reaches the end or the overlap the
start. -/
theorem groupRound_eq {s : GroupState} (hmax : 0 < maxUnits) (h0 : 0 ≤ s.current)
    (hlt : s.current < units.length) :
    groupRound units join maxUnits overlap s =
      let r := unitRun units maxUnits s
      let chunks := s.chunks ++ [join (slice units r.1 r.2)]
      if r.2 - overlap ≤ 0 ∨ units.length ≤ r.2 then .inr chunks
      else .inl { chunks, current := r.2 - overlap } := by
  have hpart := slice_unitRun_ne_nil hmax h0 hlt
  dsimp only [unitRun] at hpart ⊢
  rw [groupRound, if_pos hlt]
  simp only [hpart, Bool.false_eq_true, if_false]

theorem runs_of_ends {s : GroupState} {trace : List GroupState} {chunks : List (List Char)}
    (hoverlap : 0 ≤ overlap) (hlt : overlap < maxUnits)
    (h : Loop.Ends (groupRound units join maxUnits overlap) s trace chunks) (h0 : 0 ≤ s.current)
    (hcurrent : s.current < units.length) :
    Intervals.Covers s.current units.length (trace.map (unitRun units maxUnits)) ∧
      (∀ r ∈ trace.map (unitRun units maxUnits),
        0 ≤ r.1 ∧ r.1 < r.2 ∧ r.2 ≤ units.length ∧ r.2 - r.1 ≤ maxUnits) ∧
      chunks = s.chunks ++
        (trace.map (unitRun units maxUnits)).map fun r => join (slice units r.1 r.2) := by
  induction h with
  | @last s chunks h =>
    rw [groupRound_eq (by omega) h0 hcurrent] at h
    dsimp only [unitRun] at h
    split at h
    · rename_i hstop
      have hend : min (s.current + maxUnits) (units.length : ℤ) = units.length := by omega
      refine ⟨?_, ?_, (Sum.inr.inj h).symm⟩
      · rw [List.map_singleton, unitRun, hend]
        exact Intervals.covers_singleton _ _
      · intro r hr
        rw [List.map_singleton, List.mem_singleton] at hr
        subst hr
        dsimp only [unitRun]
        omega
    · cases h
  | @next s s' trace chunks h _ ih =>
    rw [groupRound_eq (by omega) h0 hcurrent] at h
    dsimp only [unitRun] at h
    split at h
    · cases h
    · rename_i hgo
      obtain rfl := Sum.inl.inj h
      dsimp only at ih
      obtain ⟨hcovers, hbounds, hchunks⟩ := ih (by omega) (by omega)
      refine ⟨?_, ?_, ?_⟩
      · rw [List.map_cons]
        exact hcovers.cons (by omega) (by omega)
      · intro r hr
        rcases List.mem_cons.mp hr with rfl | hr
        · dsimp only [unitRun]
          omega
        · exact hbounds r hr
      · rw [hchunks, List.append_assoc]
        rfl

theorem groupRuns_ends (hoverlap : 0 ≤ overlap) (hlt : overlap < maxUnits)
    (hmax : maxUnits < units.length) : ∃ trace chunks,
      Loop.Ends (groupRound units join maxUnits overlap) {} trace chunks ∧
        trace.length ≤ units.length + 1 := by
  have hround (s s' : GroupState) (hs : 0 ≤ s.current ∧ s.current < units.length)
      (h : groupRound units join maxUnits overlap s = .inl s') :
      (0 ≤ s'.current ∧ s'.current < units.length) ∧
        (units.length - s'.current).toNat < (units.length - s.current).toNat := by
    rw [groupRound_eq (by omega) hs.1 hs.2] at h
    dsimp only [unitRun] at h
    split at h
    · cases h
    · rename_i hgo
      obtain rfl := Sum.inl.inj h
      dsimp only
      omega
  have hinit : 0 ≤ ({} : GroupState).current ∧ ({} : GroupState).current < units.length :=
    ⟨le_rfl, by dsimp only; omega⟩
  obtain ⟨trace, chunks, hends, hlength⟩ := Loop.exists_ends
    (fun s : GroupState => 0 ≤ s.current ∧ s.current < units.length)
    (fun s => (units.length - s.current).toNat) hround hinit
  refine ⟨trace, chunks, hends, ?_⟩
  simpa using hlength

theorem getElem_mem_slice {r : ℤ × ℤ} {i : ℕ} (h0 : 0 ≤ r.1) (hstart : r.1 ≤ i) (hstop : i < r.2)
    (hi : i < units.length) : units[i] ∈ slice units r.1 r.2 :=
  List.mem_of_getElem? ((getElem?_slice units hstart hstop h0).trans (List.getElem?_eq_getElem hi))

theorem grouped_of_runs {chunks : List (List Char)} {runs : List (ℤ × ℤ)}
    (hjoin : ∀ unit part, unit ∈ part → unit <:+: join part)
    (hcovers : Intervals.Covers 0 units.length runs)
    (hbounds : ∀ r ∈ runs, 0 ≤ r.1 ∧ r.1 < r.2 ∧ r.2 ≤ units.length ∧ r.2 - r.1 ≤ maxUnits)
    (hchunks : chunks = runs.map fun r => join (slice units r.1 r.2)) :
    Grouped units join maxUnits chunks := by
  constructor
  · intro unit hunit
    obtain ⟨i, hi, rfl⟩ := List.mem_iff_getElem.mp hunit
    obtain ⟨r, hr, hstart, hstop⟩ := hcovers.exists_mem (Int.natCast_nonneg i) (by omega)
    refine ⟨join (slice units r.1 r.2), ?_, hjoin _ _ ?_⟩
    · rw [hchunks]
      exact List.mem_map_of_mem hr
    · exact getElem_mem_slice (hbounds r hr).1 hstart hstop hi
  · intro _
    exact ⟨runs, hchunks, hbounds, hcovers.starts_increasing,
      fun i hi0 hi => hcovers.exists_mem hi0 hi⟩

theorem groupRound_stops (hmax : 0 < maxUnits) (hle : maxUnits ≤ overlap)
    (hlength : maxUnits < units.length) :
    groupRound units join maxUnits overlap {} = .inr [join (slice units 0 maxUnits)] := by
  have hstop : unitRun units maxUnits {} = (0, maxUnits) := by
    unfold unitRun
    dsimp only
    rw [zero_add, min_eq_left hlength.le]
  rw [groupRound_eq hmax le_rfl (by dsimp only; omega), hstop]
  dsimp only
  rw [if_pos (by omega)]
  rfl

/-- One chunk of `maxUnits` leaves some out. -/
theorem not_grouped_singleton {chunk : List Char} (hlength : maxUnits < units.length) :
    ¬ Grouped units join maxUnits [chunk] := by
  intro h
  obtain ⟨runs, hchunks, hbounds, -, hcover⟩ := h.runs hlength
  obtain ⟨r, rfl⟩ : ∃ r, runs = [r] := by
    apply List.length_eq_one_iff.mp
    have := congrArg List.length hchunks
    rwa [List.length_map, List.length_singleton, eq_comm] at this
  obtain ⟨h0, hlt, -, hshort⟩ := hbounds r List.mem_cons_self
  obtain ⟨r', hr', hfirst, -⟩ := hcover 0 le_rfl (by omega)
  obtain ⟨r'', hr'', -, hlast⟩ := hcover (units.length - 1) (by omega) (by omega)
  rw [List.mem_singleton.mp hr'] at hfirst
  rw [List.mem_singleton.mp hr''] at hlast
  omega

end Runs

variable {pattern : List Char → ℕ} {join : List (List Char) → List Char} {text : List Char}
  {maxUnits overlap : ℤ}

theorem grouped_of_few (hfew : (units pattern text).length ≤ maxUnits) :
    Grouped (units pattern text) join maxUnits [text] where
  lossless _ hunit := ⟨text, List.mem_cons_self, infix_of_mem_units hunit⟩
  runs hmany := absurd hfew (not_le.mpr hmany)

theorem chunkByUnits_grouped_iff (hjoin : ∀ unit part, unit ∈ part → unit <:+: join part)
    (hmax : 1 ≤ maxUnits) (hoverlap : 0 ≤ overlap) :
    ∃ chunks, (∀ fuel > (units pattern text).length,
        chunkByUnits pattern join text maxUnits overlap fuel = some chunks) ∧
      (Grouped (units pattern text) join maxUnits chunks ↔
        (units pattern text).length ≤ maxUnits ∨ overlap < maxUnits) := by
  by_cases htext : text = []
  · subst htext
    have hnil : units pattern [] = [] := rfl
    have hfew : ((units pattern []).length : ℤ) ≤ maxUnits := by
      rw [hnil, List.length_nil]
      omega
    refine ⟨[], fun fuel _ => if_pos rfl, iff_of_true ⟨?_, ?_⟩ (.inl hfew)⟩
    · rw [hnil]
      nofun
    · intro hmany
      exact absurd hfew (not_le.mpr hmany)
  by_cases hfew : (units pattern text).length ≤ maxUnits
  · refine ⟨[text], fun fuel _ => ?_, iff_of_true (grouped_of_few hfew) (.inl hfew)⟩
    rw [chunkByUnits, if_neg htext, if_pos hfew]
  have hrun (fuel : ℕ) : chunkByUnits pattern join text maxUnits overlap fuel =
      (Loop.run (groupRound (units pattern text) join maxUnits overlap) fuel {}).map Prod.snd := by
    rw [chunkByUnits, if_neg htext, if_neg hfew]
  by_cases hlt : overlap < maxUnits
  · obtain ⟨trace, chunks, hends, hlength⟩ := groupRuns_ends hoverlap hlt (not_le.mp hfew)
    obtain ⟨hcovers, hbounds, hchunks⟩ :=
      runs_of_ends hoverlap hlt hends le_rfl (by dsimp only; omega)
    refine ⟨chunks, fun fuel hfuel => ?_,
      iff_of_true (grouped_of_runs hjoin hcovers hbounds hchunks) (.inr hlt)⟩
    rw [hrun, hends.run_eq (by omega)]
    rfl
  · have hstops : groupRound (units pattern text) join maxUnits overlap {} =
        .inr [join (slice (units pattern text) 0 maxUnits)] :=
      groupRound_stops (by omega) (not_lt.mp hlt) (not_le.mp hfew)
    refine ⟨[join (slice (units pattern text) 0 maxUnits)], fun fuel hfuel => ?_,
      iff_of_false (not_grouped_singleton (not_le.mp hfew)) (by rintro (h | h) <;> contradiction)⟩
    rw [hrun, (Loop.Ends.last hstops).run_eq (Nat.one_le_of_lt hfuel)]
    rfl

theorem chunking_grouped_iff (text : List Char) (maxUnits overlap : ℤ) (hmax : 1 ≤ maxUnits)
    (hoverlap : 0 ≤ overlap) :
    (∃ chunks, (∀ fuel > (units sentenceEnd text).length,
        chunkBySentences text maxUnits fuel overlap = some chunks) ∧
      (Grouped (units sentenceEnd text) joinSentences maxUnits chunks ↔
        (units sentenceEnd text).length ≤ maxUnits ∨ overlap < maxUnits)) ∧
    ∃ chunks, (∀ fuel > (units blankLines text).length,
        chunkByParagraphs text maxUnits fuel overlap = some chunks) ∧
      (Grouped (units blankLines text) joinParagraphs maxUnits chunks ↔
        (units blankLines text).length ≤ maxUnits ∨ overlap < maxUnits) :=
  ⟨chunkByUnits_grouped_iff (fun _ _ => infix_joinSentences) hmax hoverlap,
    chunkByUnits_grouped_iff (fun _ _ => infix_intercalate) hmax hoverlap⟩

theorem chunking_grouped_iff_one :
    (∃ chunks, (∀ fuel > (units sentenceEnd ['A', '.', 'B']).length,
        chunkBySentences ['A', '.', 'B'] 1 fuel 1 = some chunks) ∧
      (Grouped (units sentenceEnd ['A', '.', 'B']) joinSentences 1 chunks ↔
        (units sentenceEnd ['A', '.', 'B']).length ≤ (1 : ℤ) ∨ (1 : ℤ) < 1)) ∧
    ∃ chunks, (∀ fuel > (units blankLines ['A', '.', 'B']).length,
        chunkByParagraphs ['A', '.', 'B'] 1 fuel 1 = some chunks) ∧
      (Grouped (units blankLines ['A', '.', 'B']) joinParagraphs 1 chunks ↔
        (units blankLines ['A', '.', 'B']).length ≤ (1 : ℤ) ∨ (1 : ℤ) < 1) :=
  chunking_grouped_iff ['A', '.', 'B'] 1 1 le_rfl (by decide)

/-- Chunks of one sentence, with the default overlap, lose the second one. -/
theorem not_always_grouped :
    ['B'] ∈ units sentenceEnd ['A', '.', 'B'] ∧
    ∃ chunks, chunkBySentences ['A', '.', 'B'] 1 3 = some chunks ∧
      ¬ ∃ chunk ∈ chunks, ['B'] <:+: chunk := by
  refine ⟨by decide, [['A', '.']], by decide, ?_⟩
  rintro ⟨chunk, hchunk, hinfix⟩
  rw [List.mem_singleton.mp hchunk] at hinfix
  exact absurd hinfix (by decide)

end AtomicMemory
