import AtomicMemory.Search.Chunking
import Mathlib.Algebra.Order.BigOperators.Group.List

-- Every chunk of the windows but the first is marked as one that overlaps with the chunk before,
-- and the chunk of a short text counts the whitespace that it has lost.

namespace AtomicMemory

def Truthful (text : List Char) (chunks : List ChunkResult) : Prop :=
  ∀ p c, chunks[p]? = some c →
    c.text = stripText (slice text c.startOffset c.endOffset) ∧
    c.metadata.charCount = c.text.length ∧
    c.metadata.wordCount =
      {r : ℕ × ℕ | Split.MaximalRun isSpace c.text r.1 r.2}.ncard ∧
    c.index = p ∧
    (c.metadata.hasOverlap = true ↔
      ∃ q previous, p = q + 1 ∧ chunks[q]? = some previous ∧ c.startOffset < previous.endOffset)

/-- How far the next window starts after this one: as far as it reaches without the overlap,
unless the overlap is as long. -/
def advance (options : ChunkOptions) (w : ℤ × ℤ) : ℤ :=
  if w.2 - w.1 ≤ options.chunkOverlap then w.2 - w.1 else w.2 - w.1 - options.chunkOverlap

/-- Between two windows that are kept, the first is longer than the overlap, and those dropped
advance by less than the overlap. -/
def OverlapReaches (text : List Char) (options : ChunkOptions) (minChunkSize : ℤ)
    (windows : List (ℤ × ℤ)) : Prop :=
  ∀ pre w dropped w' post, windows = pre ++ w :: (dropped ++ w' :: post) →
    kept text minChunkSize w → kept text minChunkSize w' →
    (∀ d ∈ dropped, ¬ kept text minChunkSize d) →
      options.chunkOverlap < w.2 - w.1 ∧
      (dropped.map (advance options)).sum < options.chunkOverlap

/-- A text for one chunk has no whitespace around it; the windows of a longer one overlap where
they are kept. -/
def MetadataHolds (text : List Char) (options : ChunkOptions) (minChunkSize : ℤ) : Prop :=
  if text.length ≤ options.chunkSize then stripText text = text
  else ∀ windows, Windows text options minChunkSize 0 windows →
    OverlapReaches text options minChunkSize windows

variable {text : List Char} {options : ChunkOptions} {minChunkSize : ℤ}

theorem nextStart_eq (w : ℤ × ℤ) : nextStart options w = w.1 + advance options w := by
  unfold nextStart advance
  split <;> split <;> omega

theorem advance_nonneg {w : ℤ × ℤ} (hw : w.1 < w.2) : 0 ≤ advance options w := by
  unfold advance
  split <;> omega

theorem Windows.start {a : ℤ} {ws : List (ℤ × ℤ)} (h : Windows text options minChunkSize a ws) :
    ∀ w ∈ ws.head?, w.1 = a := by
  cases h with
  | last _ =>
    rintro w ⟨⟩
    rfl
  | next _ _ =>
    rintro w ⟨⟩
    rfl

theorem Windows.unique {a : ℤ} {ws ws' : List (ℤ × ℤ)}
    (h : Windows text options minChunkSize a ws) (h' : Windows text options minChunkSize a ws') :
    ws = ws' := by
  induction h generalizing ws' with
  | last hend =>
    cases h' with
    | last _ => rfl
    | next hend' _ => exact absurd hend' (not_lt.mpr hend)
  | next hend _ ih =>
    cases h' with
    | last hend' => exact absurd hend (not_lt.mpr hend')
    | next _ hrest => rw [ih hrest]

theorem Windows.isChain {a : ℤ} {ws : List (ℤ × ℤ)} (h : Windows text options minChunkSize a ws) :
    ws.IsChain fun w w' => w'.1 = nextStart options w := by
  induction h with
  | last _ => exact List.isChain_singleton _
  | @next a ws _ hrest ih =>
    cases ws with
    | nil => exact List.isChain_singleton _
    | cons w' ws => exact List.isChain_cons_cons.mpr ⟨hrest.start w' rfl, ih⟩

theorem start_after {w w' : ℤ × ℤ} {between post : List (ℤ × ℤ)}
    (h : (w :: (between ++ w' :: post)).IsChain fun w w' => w'.1 = nextStart options w) :
    w'.1 = nextStart options w + (between.map (advance options)).sum := by
  induction between generalizing w with
  | nil =>
    rw [List.map_nil, List.sum_nil, add_zero]
    exact (List.isChain_cons_cons.mp h).1
  | cons d between ih =>
    obtain ⟨hd, hrest⟩ := List.isChain_cons_cons.mp h
    rw [ih hrest, nextStart_eq d, hd, List.map_cons, List.sum_cons, add_assoc]

theorem start_lt_end_iff {w w' : ℤ × ℤ} {between post : List (ℤ × ℤ)}
    (h : (w :: (between ++ w' :: post)).IsChain fun w w' => w'.1 = nextStart options w)
    (hbetween : ∀ d ∈ between, d.1 < d.2) :
    w'.1 < w.2 ↔ options.chunkOverlap < w.2 - w.1 ∧
      (between.map (advance options)).sum < options.chunkOverlap := by
  have hsum : 0 ≤ (between.map (advance options)).sum := by
    apply List.sum_nonneg
    intro x hx
    obtain ⟨d, hd, rfl⟩ := List.mem_map.mp hx
    exact advance_nonneg (hbetween d hd)
  rw [start_after h]
  unfold nextStart
  split <;> omega

theorem isChain_kept_iff {windows : List (ℤ × ℤ)}
    (h : windows.IsChain fun w w' => w'.1 = nextStart options w)
    (hwindows : ∀ w ∈ windows, w.1 < w.2) :
    (windows.filter (kept text minChunkSize)).IsChain (fun w w' => w'.1 < w.2) ↔
      OverlapReaches text options minChunkSize windows := by
  rw [Intervals.isChain_filter_iff]
  unfold OverlapReaches
  have hiff (pre : List (ℤ × ℤ)) (w : ℤ × ℤ) (dropped : List (ℤ × ℤ)) (w' : ℤ × ℤ)
      (post : List (ℤ × ℤ)) (heq : windows = pre ++ w :: (dropped ++ w' :: post)) :
      w'.1 < w.2 ↔ options.chunkOverlap < w.2 - w.1 ∧
        (dropped.map (advance options)).sum < options.chunkOverlap := by
    subst heq
    apply start_lt_end_iff h.right_of_append
    intro d hd
    exact hwindows d (by simp [hd])
  constructor
  · intro hall pre w dropped w' post heq hw hw' hdropped
    exact (hiff pre w dropped w' post heq).mp (hall pre w dropped w' post heq hw hw' hdropped)
  · intro hall pre w dropped w' post heq hw hw' hdropped
    exact (hiff pre w dropped w' post heq).mpr (hall pre w dropped w' post heq hw hw' hdropped)

theorem truthful_shortChunk (text : List Char) :
    Truthful text [shortChunk text] ↔ stripText text = text := by
  have hslice : slice text 0 text.length = text := by
    simp [slice]
  constructor
  · intro h
    obtain ⟨-, hcount, -⟩ := h 0 _ rfl
    exact (stripText_within text).eq_of_length hcount.symm
  · intro htext p c hc
    have hp : p = 0 := by
      have := (List.getElem?_eq_some_iff.mp hc).1
      simpa using this
    subst hp
    obtain rfl : shortChunk text = c := Option.some.inj hc
    refine ⟨?_, ?_, Split.length_nonempty_split isSpace _, rfl, ?_⟩
    · change stripText text = stripText (slice text 0 text.length)
      rw [hslice]
    · change text.length = (stripText text).length
      rw [htext]
    · exact iff_of_false Bool.false_ne_true (by rintro ⟨q, _, hq, _⟩; cases hq)

theorem getElem?_keptChunks {windows : List (ℤ × ℤ)} {p : ℕ} :
    (keptChunks text minChunkSize 0 windows)[p]? =
      ((windows.filter (kept text minChunkSize))[p]?).map (windowChunk text p) := by
  rw [keptChunks, List.getElem?_mapIdx, Nat.zero_add]

theorem truthful_keptChunks {windows : List (ℤ × ℤ)} :
    Truthful text (keptChunks text minChunkSize 0 windows) ↔
      (windows.filter (kept text minChunkSize)).IsChain fun w w' => w'.1 < w.2 := by
  rw [List.isChain_iff_getElem]
  constructor
  · intro h q hq
    have hsecond : (keptChunks text minChunkSize 0 windows)[q + 1]? =
        some (windowChunk text (q + 1) (windows.filter (kept text minChunkSize))[q + 1]) := by
      rw [getElem?_keptChunks, List.getElem?_eq_getElem hq, Option.map_some]
    obtain ⟨-, -, -, -, hflag⟩ := h (q + 1) _ hsecond
    obtain ⟨q', previous, heq, hprevious, hlt⟩ := hflag.mp (decide_eq_true q.succ_pos)
    cases heq
    rw [getElem?_keptChunks, List.getElem?_eq_getElem (Nat.lt_of_succ_lt hq),
      Option.map_some] at hprevious
    rw [← Option.some.inj hprevious] at hlt
    exact hlt
  · intro h p c hc
    rw [getElem?_keptChunks] at hc
    obtain ⟨w, hw, rfl⟩ := Option.map_eq_some_iff.mp hc
    refine ⟨rfl, rfl, Split.length_nonempty_split isSpace _, rfl, ?_⟩
    cases p with
    | zero =>
      exact iff_of_false (by simp [windowChunk]) (by rintro ⟨q, _, hq, _⟩; cases hq)
    | succ q =>
      refine iff_of_true (decide_eq_true q.succ_pos) ?_
      obtain ⟨hlength, rfl⟩ := List.getElem?_eq_some_iff.mp hw
      refine ⟨q, windowChunk text q (windows.filter (kept text minChunkSize))[q], rfl, ?_,
        h q hlength⟩
      rw [getElem?_keptChunks, List.getElem?_eq_getElem (Nat.lt_of_succ_lt hlength),
        Option.map_some]

theorem chunkTextWithMetadata_truthful_iff (hvalid : validate options = .ok minChunkSize) :
    ∃ chunks, (∀ fuel > text.length,
        chunkTextWithMetadata text options fuel = some (.ok chunks)) ∧
      (Truthful text chunks ↔ MetadataHolds text options minChunkSize) := by
  obtain ⟨hoverlap, hlt, hmin⟩ := validate_ok hvalid
  have hsize : 0 < options.chunkSize := hoverlap.trans_lt hlt
  by_cases htext : text = []
  · refine ⟨[], fun fuel _ => by rw [chunkTextWithMetadata, if_pos htext], iff_of_true ?_ ?_⟩
    · intro p c hc
      cases hc
    · subst htext
      rw [MetadataHolds, if_pos (by simpa using hsize.le)]
      rfl
  by_cases hshort : text.length ≤ options.chunkSize
  · refine ⟨[shortChunk text], fun fuel _ => ?_, ?_⟩
    · rw [chunkTextWithMetadata, if_neg htext, hvalid]
      exact if_pos hshort
    · rw [MetadataHolds, if_pos hshort]
      exact truthful_shortChunk text
  · have hlength : 0 < text.length := List.length_pos_iff.mpr htext
    obtain ⟨windows, hwindows, hrun⟩ := chunkWindow_ends hsize hoverlap hmin hlength
    refine ⟨keptChunks text minChunkSize 0 windows, fun fuel hfuel =>
      chunkTextWithMetadata_long hvalid htext hshort (hrun fuel hfuel), ?_⟩
    have hbounds := hwindows.bounds hsize hoverlap hmin le_rfl (by omega)
    rw [truthful_keptChunks, isChain_kept_iff hwindows.isChain fun w hw => (hbounds w hw).2.1,
      MetadataHolds, if_neg hshort]
    constructor
    · intro h windows' hwindows'
      rwa [hwindows'.unique hwindows]
    · intro h
      exact h windows hwindows

def letterWindows : ChunkOptions where
  chunkSize := 1
  chunkOverlap := 0

theorem chunkTextWithMetadata_truthful_iff_letters : ∃ chunks,
    (∀ fuel > ['a', 'b'].length,
      chunkTextWithMetadata ['a', 'b'] letterWindows fuel = some (.ok chunks)) ∧
    (Truthful ['a', 'b'] chunks ↔ MetadataHolds ['a', 'b'] letterWindows 1) :=
  chunkTextWithMetadata_truthful_iff rfl

/-- A short text counts the space it loses, and windows that only touch are marked. -/
theorem not_always_truthful :
    (∃ chunks, chunkTextWithMetadata [' ', 'a'] wordWindows 3 = some (.ok chunks) ∧
      ¬ Truthful [' ', 'a'] chunks) ∧
    ∃ chunks, chunkTextWithMetadata ['a', 'b'] letterWindows 3 = some (.ok chunks) ∧
      ¬ Truthful ['a', 'b'] chunks := by
  refine ⟨⟨_, rfl, fun h => ?_⟩, ⟨_, rfl, fun h => ?_⟩⟩
  · have hcount : 2 = 1 := (h 0 _ rfl).2.1
    cases hcount
  · obtain ⟨-, -, -, -, hflag⟩ := h 1 _ rfl
    obtain ⟨q, previous, hq, hprevious, hlt⟩ := hflag.mp rfl
    cases hq
    obtain rfl := Option.some.inj hprevious
    exact absurd hlt (by decide)

end AtomicMemory
