import AtomicMemory.Core.Python
import AtomicMemory.Lib.Intervals
import AtomicMemory.Lib.Loop
import AtomicMemory.Lib.Split

-- `chunk_text_with_metadata` goes over a text in windows of `chunk_size` characters, which overlap
-- and may end earlier, at a separator. Offsets are integers, as in the code, though the loop meets
-- no negative one.

namespace AtomicMemory

structure ChunkOptions where
  chunkSize : ℤ
  chunkOverlap : ℤ
  preserveWords : Bool := true
  separator : List Char := [' ']
  minChunkSize : Option ℤ := none

structure ChunkMetadata where
  wordCount : ℕ
  charCount : ℕ
  hasOverlap : Bool
  deriving DecidableEq

structure ChunkResult where
  text : List Char
  index : ℕ
  startOffset : ℤ
  endOffset : ℤ
  metadata : ChunkMetadata
  deriving DecidableEq

/-- `text.strip()`. -/
def stripText (text : List Char) : List Char := (text.dropWhile isSpace).rdropWhile isSpace

/-- `items[start:stop]` for offsets that are not negative. -/
def slice {α : Type} (items : List α) (start stop : ℤ) : List α :=
  (items.drop start.toNat).take (stop - start).toNat

/-- `text.rfind(sep)`; the empty separator is found at the end. -/
def rfind (sep : List Char) : List Char → ℤ
  | [] => if sep = [] then 0 else -1
  | c :: text =>
    let last := rfind sep text
    if 0 ≤ last then last + 1
    else if sep.isPrefixOf (c :: text) then 0
    else -1

/-- `_word_count`, which splits at `\s+`. -/
def wordCount (text : List Char) : ℕ :=
  (Split.nonempty (Split.split (Split.runLength isSpace) 0 text)).length

/-- `_validate`, whose result is the least size of a chunk. -/
def validate (options : ChunkOptions) : Except PyError ℤ :=
  if options.chunkSize ≤ 0 then .error (.valueError "chunk_size must be positive")
  else if options.chunkOverlap < 0 then .error (.valueError "chunk_overlap must be >= 0")
  else if options.chunkSize ≤ options.chunkOverlap then
    .error (.valueError "chunk_overlap must be less than chunk_size")
  else
    let rawMin := options.minChunkSize.getD (max 1 (options.chunkSize / 10))
    .ok (max 1 (min rawMin options.chunkSize))

/-- Where the window from `current` ends, `end_offset` of the loop. -/
def windowEnd (text : List Char) (options : ChunkOptions) (minChunkSize current : ℤ) : ℤ :=
  let endOffset := min (current + options.chunkSize) text.length
  if options.preserveWords && endOffset < text.length then
    let lastSep := rfind options.separator (slice text current endOffset)
    if minChunkSize < lastSep then current + lastSep else endOffset
  else endOffset

/-- The variables of the loop of `_chunk_window`. -/
structure WindowState where
  chunks : List ChunkResult := []
  currentOffset : ℤ := 0
  chunkIndex : ℕ := 0

def windowChunk (text : List Char) (index : ℕ) (w : ℤ × ℤ) : ChunkResult :=
  let trimmed := stripText (slice text w.1 w.2)
  { text := trimmed, index, startOffset := w.1, endOffset := w.2,
    metadata :=
      { wordCount := wordCount trimmed, charCount := trimmed.length, hasOverlap := 0 < index } }

def kept (text : List Char) (minChunkSize : ℤ) (w : ℤ × ℤ) : Bool :=
  minChunkSize ≤ (stripText (slice text w.1 w.2)).length

/-- One round of the loop of `_chunk_window`. -/
def windowRound (text : List Char) (options : ChunkOptions) (minChunkSize : ℤ)
    (s : WindowState) : WindowState ⊕ List ChunkResult :=
  if s.currentOffset < text.length then
    let endOffset := windowEnd text options minChunkSize s.currentOffset
    let keep := kept text minChunkSize (s.currentOffset, endOffset)
    let chunks :=
      if keep then s.chunks ++ [windowChunk text s.chunkIndex (s.currentOffset, endOffset)]
      else s.chunks
    let chunkIndex := if keep then s.chunkIndex + 1 else s.chunkIndex
    let nextOffset := endOffset - options.chunkOverlap
    let currentOffset := if nextOffset ≤ s.currentOffset then endOffset else nextOffset
    if text.length ≤ endOffset then .inr chunks else .inl { chunks, currentOffset, chunkIndex }
  else .inr s.chunks

/-- The loop of `_chunk_window` in `fuel` rounds: the windows it visits, and the chunks. -/
def chunkWindow (text : List Char) (options : ChunkOptions) (minChunkSize : ℤ) (fuel : ℕ) :
    Option (List (ℤ × ℤ) × List ChunkResult) :=
  (Loop.run (windowRound text options minChunkSize) fuel {}).map fun r =>
    (r.1.map fun s =>
      (s.currentOffset, windowEnd text options minChunkSize s.currentOffset), r.2)

def shortChunk (text : List Char) : ChunkResult :=
  let trimmed := stripText text
  { text := trimmed, index := 0, startOffset := 0, endOffset := text.length,
    metadata :=
      { wordCount := wordCount trimmed, charCount := text.length, hasOverlap := false } }

/-- `chunk_text_with_metadata`, which has no result when its loop takes more than `fuel` rounds. -/
def chunkTextWithMetadata (text : List Char) (options : ChunkOptions) (fuel : ℕ) :
    Option (Except PyError (List ChunkResult)) :=
  if text = [] then some (.ok [])
  else
    match validate options with
    | .error e => some (.error e)
    | .ok minChunkSize =>
      if text.length ≤ options.chunkSize then some (.ok [shortChunk text])
      else (chunkWindow text options minChunkSize fuel).map fun r => .ok r.2

theorem rfind_le_length (sep text : List Char) : rfind sep text ≤ text.length := by
  induction text with
  | nil =>
    unfold rfind
    split <;> simp
  | cons c text ih =>
    rw [rfind, List.length_cons]
    push_cast
    split
    · omega
    · split <;> omega

theorem length_slice {α : Type} (items : List α) {start stop : ℤ} (hstart : 0 ≤ start)
    (hle : start ≤ stop) (hstop : stop ≤ items.length) :
    ((slice items start stop).length : ℤ) = stop - start := by
  rw [slice, List.length_take, List.length_drop]
  omega

theorem getElem?_slice {α : Type} (items : List α) {start stop : ℤ} {i : ℕ} (hstart : start ≤ i)
    (hstop : i < stop) (h0 : 0 ≤ start) :
    (slice items start stop)[i - start.toNat]? = items[i]? := by
  rw [slice, List.getElem?_take_of_lt (by omega), List.getElem?_drop]
  congr 1
  omega

theorem stripText_within (text : List Char) : stripText text <:+: text :=
  (List.rdropWhile_prefix isSpace _).isInfix.trans (List.dropWhile_suffix isSpace).isInfix

theorem mem_stripText {text : List Char} {c : Char} (hc : c ∈ text) (hspace : isSpace c = false) :
    c ∈ stripText text := by
  have hdrop {l : List Char} (hl : c ∈ l) : c ∈ l.dropWhile isSpace := by
    rw [← List.takeWhile_append_dropWhile (p := isSpace) (l := l), List.mem_append] at hl
    refine hl.resolve_left fun htake => ?_
    rw [List.mem_takeWhile_imp htake] at hspace
    cases hspace
  rw [stripText, List.rdropWhile, List.mem_reverse]
  exact hdrop (List.mem_reverse.mpr (hdrop hc))

theorem validate_ok {options : ChunkOptions} {minChunkSize : ℤ}
    (h : validate options = .ok minChunkSize) :
    0 ≤ options.chunkOverlap ∧ options.chunkOverlap < options.chunkSize ∧ 1 ≤ minChunkSize := by
  unfold validate at h
  split at h
  · cases h
  · split at h
    · cases h
    · split at h
      · cases h
      · obtain rfl := Except.ok.inj h
        omega

section Windows

variable {text : List Char} {options : ChunkOptions} {minChunkSize : ℤ}

theorem windowEnd_bounds {current : ℤ} (hsize : 0 < options.chunkSize) (hmin : 1 ≤ minChunkSize)
    (h0 : 0 ≤ current) (hlt : current < text.length) :
    current < windowEnd text options minChunkSize current ∧
      windowEnd text options minChunkSize current ≤ current + options.chunkSize ∧
      windowEnd text options minChunkSize current ≤ text.length := by
  have hlength : ((slice text current (min (current + options.chunkSize) text.length)).length : ℤ) =
      min (current + options.chunkSize) text.length - current :=
    length_slice text h0 (by omega) (by omega)
  have hrfind := rfind_le_length options.separator
    (slice text current (min (current + options.chunkSize) text.length))
  unfold windowEnd
  dsimp only
  split
  · split <;> omega
  · omega

def nextStart (options : ChunkOptions) (w : ℤ × ℤ) : ℤ :=
  if w.2 - options.chunkOverlap ≤ w.1 then w.2 else w.2 - options.chunkOverlap

inductive Windows (text : List Char) (options : ChunkOptions) (minChunkSize : ℤ) :
    ℤ → List (ℤ × ℤ) → Prop
  | last {a : ℤ} (h : (text.length : ℤ) ≤ windowEnd text options minChunkSize a) :
      Windows text options minChunkSize a [(a, windowEnd text options minChunkSize a)]
  | next {a : ℤ} {ws : List (ℤ × ℤ)} (h : windowEnd text options minChunkSize a < text.length)
      (hrest : Windows text options minChunkSize
        (nextStart options (a, windowEnd text options minChunkSize a)) ws) :
      Windows text options minChunkSize a ((a, windowEnd text options minChunkSize a) :: ws)

theorem nextStart_bounds {w : ℤ × ℤ} (hoverlap : 0 ≤ options.chunkOverlap) (hw : w.1 < w.2) :
    w.1 < nextStart options w ∧ nextStart options w ≤ w.2 := by
  unfold nextStart
  split <;> omega

theorem Windows.covers {a : ℤ} {ws : List (ℤ × ℤ)} (hsize : 0 < options.chunkSize)
    (hoverlap : 0 ≤ options.chunkOverlap) (hmin : 1 ≤ minChunkSize)
    (h : Windows text options minChunkSize a ws) (h0 : 0 ≤ a) (hlt : a < text.length) :
    Intervals.Covers a text.length ws := by
  induction h with
  | @last a hend =>
    obtain ⟨-, -, hle⟩ := windowEnd_bounds hsize hmin h0 hlt
    rw [le_antisymm hle hend]
    exact Intervals.covers_singleton a text.length
  | @next a ws hend _ ih =>
    obtain ⟨hgt, -, -⟩ := windowEnd_bounds hsize hmin h0 hlt
    obtain ⟨hstart, hle⟩ := nextStart_bounds (w := (a, windowEnd text options minChunkSize a))
      hoverlap hgt
    exact (ih (h0.trans hstart.le) (hle.trans_lt hend)).cons hstart hle

theorem Windows.bounds {a : ℤ} {ws : List (ℤ × ℤ)} (hsize : 0 < options.chunkSize)
    (hoverlap : 0 ≤ options.chunkOverlap) (hmin : 1 ≤ minChunkSize)
    (h : Windows text options minChunkSize a ws) (h0 : 0 ≤ a) (hlt : a < text.length) :
    ∀ w ∈ ws, 0 ≤ w.1 ∧ w.1 < w.2 ∧ w.2 ≤ w.1 + options.chunkSize ∧ w.2 ≤ text.length := by
  induction h with
  | @last a _ =>
    intro w hw
    rw [List.mem_singleton.mp hw]
    exact ⟨h0, windowEnd_bounds hsize hmin h0 hlt⟩
  | @next a ws hend _ ih =>
    obtain ⟨hgt, hlong, hle⟩ := windowEnd_bounds hsize hmin h0 hlt
    obtain ⟨hstart, hle'⟩ := nextStart_bounds (w := (a, windowEnd text options minChunkSize a))
      hoverlap hgt
    intro w hw
    rcases List.mem_cons.mp hw with rfl | hw
    · exact ⟨h0, hgt, hlong, hle⟩
    · exact ih (h0.trans hstart.le) (hle'.trans_lt hend) w hw

/-- The chunks of the windows that are not dropped, numbered from `index` on. -/
def keptChunks (text : List Char) (minChunkSize : ℤ) (index : ℕ) (ws : List (ℤ × ℤ)) :
    List ChunkResult :=
  (ws.filter (kept text minChunkSize)).mapIdx fun i w => windowChunk text (index + i) w

theorem keptChunks_cons (index : ℕ) (w : ℤ × ℤ) (ws : List (ℤ × ℤ)) :
    keptChunks text minChunkSize index (w :: ws) =
      if kept text minChunkSize w then
        windowChunk text index w :: keptChunks text minChunkSize (index + 1) ws
      else keptChunks text minChunkSize index ws := by
  unfold keptChunks
  split
  · rename_i hkept
    rw [List.filter_cons_of_pos hkept, List.mapIdx_cons, Nat.add_zero]
    simp only [Nat.add_assoc, Nat.add_comm 1]
  · rename_i hkept
    rw [List.filter_cons_of_neg hkept]

theorem windowRound_next {s s' : WindowState}
    (h : windowRound text options minChunkSize s = .inl s') :
    windowEnd text options minChunkSize s.currentOffset < text.length ∧
      s'.currentOffset =
        nextStart options (s.currentOffset, windowEnd text options minChunkSize s.currentOffset) ∧
      ∀ ws, s.chunks ++ keptChunks text minChunkSize s.chunkIndex
          ((s.currentOffset, windowEnd text options minChunkSize s.currentOffset) :: ws) =
        s'.chunks ++ keptChunks text minChunkSize s'.chunkIndex ws := by
  unfold windowRound at h
  split at h
  · dsimp only at h
    split at h
    · cases h
    · rename_i hend
      obtain rfl := Sum.inl.inj h
      refine ⟨not_le.mp hend, rfl, fun ws => ?_⟩
      dsimp only
      rw [keptChunks_cons]
      split
      · rw [List.append_assoc, List.singleton_append]
      · rfl
  · cases h

theorem windowRound_last {s : WindowState} {chunks : List ChunkResult}
    (hlt : s.currentOffset < text.length)
    (h : windowRound text options minChunkSize s = .inr chunks) :
    text.length ≤ windowEnd text options minChunkSize s.currentOffset ∧
      chunks = s.chunks ++ keptChunks text minChunkSize s.chunkIndex
        [(s.currentOffset, windowEnd text options minChunkSize s.currentOffset)] := by
  unfold windowRound at h
  rw [if_pos hlt] at h
  dsimp only at h
  split at h
  · rename_i hend
    refine ⟨hend, ?_⟩
    rw [keptChunks_cons, ← Sum.inr.inj h]
    split
    · rfl
    · exact (List.append_nil _).symm
  · cases h

theorem windows_of_ends {s : WindowState} {trace : List WindowState} {chunks : List ChunkResult}
    (hsize : 0 < options.chunkSize) (hoverlap : 0 ≤ options.chunkOverlap) (hmin : 1 ≤ minChunkSize)
    (h : Loop.Ends (windowRound text options minChunkSize) s trace chunks)
    (h0 : 0 ≤ s.currentOffset) (hlt : s.currentOffset < text.length) :
    Windows text options minChunkSize s.currentOffset (trace.map fun s =>
        (s.currentOffset, windowEnd text options minChunkSize s.currentOffset)) ∧
      chunks = s.chunks ++ keptChunks text minChunkSize s.chunkIndex (trace.map fun s =>
        (s.currentOffset, windowEnd text options minChunkSize s.currentOffset)) := by
  induction h with
  | last h =>
    obtain ⟨hend, hchunks⟩ := windowRound_last hlt h
    exact ⟨.last hend, hchunks⟩
  | next h _ ih =>
    obtain ⟨hend, hcurrent, hchunks⟩ := windowRound_next h
    obtain ⟨hgt, -, -⟩ := windowEnd_bounds hsize hmin h0 hlt
    obtain ⟨hstart, hle⟩ := nextStart_bounds
      (w := (_, windowEnd text options minChunkSize _)) hoverlap hgt
    rw [hcurrent] at ih
    obtain ⟨hwindows, hrest⟩ := ih (h0.trans hstart.le) (hle.trans_lt hend)
    exact ⟨.next hend hwindows, hrest.trans (hchunks _).symm⟩

theorem chunkWindow_ends (hsize : 0 < options.chunkSize) (hoverlap : 0 ≤ options.chunkOverlap)
    (hmin : 1 ≤ minChunkSize) (htext : 0 < text.length) :
    ∃ windows, Windows text options minChunkSize 0 windows ∧ ∀ fuel > text.length,
      chunkWindow text options minChunkSize fuel =
        some (windows, keptChunks text minChunkSize 0 windows) := by
  have hstart : (0 : ℤ) < text.length := by exact_mod_cast htext
  have hround (s s' : WindowState) (hs : 0 ≤ s.currentOffset ∧ s.currentOffset < text.length)
      (h : windowRound text options minChunkSize s = .inl s') :
      (0 ≤ s'.currentOffset ∧ s'.currentOffset < text.length) ∧
        (text.length - s'.currentOffset).toNat < (text.length - s.currentOffset).toNat := by
    obtain ⟨hend, hcurrent, -⟩ := windowRound_next h
    obtain ⟨hgt, -, -⟩ := windowEnd_bounds hsize hmin hs.1 hs.2
    obtain ⟨hnext, hle⟩ := nextStart_bounds
      (w := (s.currentOffset, windowEnd text options minChunkSize s.currentOffset)) hoverlap hgt
    rw [hcurrent]
    dsimp only at hnext hle
    omega
  have hinit : 0 ≤ ({} : WindowState).currentOffset ∧
      ({} : WindowState).currentOffset < text.length := ⟨le_rfl, hstart⟩
  obtain ⟨trace, chunks, hends, hlength⟩ := Loop.exists_ends
    (fun s : WindowState => 0 ≤ s.currentOffset ∧ s.currentOffset < text.length)
    (fun s => (text.length - s.currentOffset).toNat) hround hinit
  obtain ⟨hwindows, hchunks⟩ := windows_of_ends hsize hoverlap hmin hends hinit.1 hinit.2
  refine ⟨_, hwindows, fun fuel hfuel => ?_⟩
  have hfuel' : trace.length ≤ fuel := by
    simp only [sub_zero, Int.toNat_natCast] at hlength
    omega
  rw [chunkWindow, hends.run_eq hfuel', Option.map_some, hchunks]
  rfl

theorem chunkTextWithMetadata_long {fuel : ℕ} {windows : List (ℤ × ℤ)} {chunks : List ChunkResult}
    (hvalid : validate options = .ok minChunkSize) (htext : text ≠ [])
    (hlong : ¬ text.length ≤ options.chunkSize)
    (h : chunkWindow text options minChunkSize fuel = some (windows, chunks)) :
    chunkTextWithMetadata text options fuel = some (.ok chunks) := by
  rw [chunkTextWithMetadata, if_neg htext, hvalid]
  dsimp only
  rw [if_neg hlong, h]
  rfl

/-- A character that is no whitespace is in the chunk of each window it is in, unless that is
dropped. -/
theorem mem_windowChunk {w : ℤ × ℤ} {i : ℕ} {c : Char} (h0 : 0 ≤ w.1) (hstart : w.1 ≤ i)
    (hstop : i < w.2) (hc : text[i]? = some c) (hspace : isSpace c = false) :
    c ∈ stripText (slice text w.1 w.2) :=
  mem_stripText (List.mem_of_getElem? ((getElem?_slice text hstart hstop h0).trans hc)) hspace

/-- The windows cover the text, and the chunks are the texts of those that are long enough. -/
structure WindowsCover (text : List Char) (options : ChunkOptions) (minChunkSize : ℤ)
    (windows : List (ℤ × ℤ)) (chunks : List ChunkResult) : Prop where
  increasing : windows.Pairwise fun w w' => w.1 < w'.1
  first : windows.head?.map Prod.fst = some 0
  last : windows.getLast?.map Prod.snd = some (text.length : ℤ)
  bounds : ∀ w ∈ windows, w.1 < w.2 ∧ w.2 - w.1 ≤ options.chunkSize
  joined : windows.IsChain fun w w' => w'.1 ≤ w.2
  cover : ∀ i : ℤ, 0 ≤ i → i < text.length → ∃ w ∈ windows, w.1 ≤ i ∧ i < w.2
  chunks_eq : chunks = (windows.filter fun w =>
    minChunkSize ≤ (stripText (slice text w.1 w.2)).length).mapIdx (windowChunk text)
  lossless : minChunkSize = 1 → ∀ (i : ℕ) c, text[i]? = some c → isSpace c = false →
    ∃ chunk ∈ chunks, chunk.startOffset ≤ i ∧ i < chunk.endOffset ∧ c ∈ chunk.text

theorem Windows.windowsCover {windows : List (ℤ × ℤ)} (hsize : 0 < options.chunkSize)
    (hoverlap : 0 ≤ options.chunkOverlap) (hmin : 1 ≤ minChunkSize)
    (h : Windows text options minChunkSize 0 windows) (htext : 0 < text.length) :
    WindowsCover text options minChunkSize windows (keptChunks text minChunkSize 0 windows) := by
  have hcovers := h.covers hsize hoverlap hmin le_rfl (by omega)
  have hbounds := h.bounds hsize hoverlap hmin le_rfl (by omega)
  refine ⟨hcovers.starts_increasing, hcovers.first, hcovers.last, ?_, ?_, ?_, ?_, ?_⟩
  · intro w hw
    obtain ⟨-, hgt, hle, -⟩ := hbounds w hw
    exact ⟨hgt, by omega⟩
  · exact hcovers.joined.imp fun w w' h => h.2
  · intro i hi0 hi
    exact hcovers.exists_mem hi0 hi
  · unfold keptChunks
    simp only [Nat.zero_add]
    rfl
  · rintro rfl i c hc hspace
    have hi : i < text.length := (List.getElem?_eq_some_iff.mp hc).1
    obtain ⟨w, hw, hstart, hstop⟩ := hcovers.exists_mem (Int.natCast_nonneg i) (by omega)
    have hmem := mem_windowChunk (hbounds w hw).1 hstart hstop hc hspace
    have hlength : 0 < (stripText (slice text w.1 w.2)).length := List.length_pos_of_mem hmem
    have hkept : w ∈ windows.filter (kept text 1) := by
      refine List.mem_filter.mpr ⟨hw, ?_⟩
      unfold kept
      exact decide_eq_true (by omega)
    obtain ⟨p, hp, hpw⟩ := List.mem_iff_getElem.mp hkept
    refine ⟨windowChunk text (0 + p) w, ?_, hstart, hstop, hmem⟩
    refine List.mem_mapIdx.mpr ⟨p, hp, ?_⟩
    rw [hpw]

theorem chunkTextWithMetadata_covers (hvalid : validate options = .ok minChunkSize)
    (hlong : options.chunkSize < text.length) :
    ∃ windows chunks, (∀ fuel > text.length,
        chunkWindow text options minChunkSize fuel = some (windows, chunks) ∧
        chunkTextWithMetadata text options fuel = some (.ok chunks)) ∧
      WindowsCover text options minChunkSize windows chunks := by
  obtain ⟨hoverlap, hlt, hmin⟩ := validate_ok hvalid
  have hsize : 0 < options.chunkSize := hoverlap.trans_lt hlt
  have htext : 0 < text.length := by omega
  obtain ⟨windows, hwindows, hrun⟩ := chunkWindow_ends hsize hoverlap hmin htext
  refine ⟨windows, _, fun fuel hfuel => ⟨hrun fuel hfuel, ?_⟩,
    hwindows.windowsCover hsize hoverlap hmin htext⟩
  exact chunkTextWithMetadata_long hvalid (List.ne_nil_of_length_pos htext) (not_le.mpr hlong)
    (hrun fuel hfuel)

def wordWindows : ChunkOptions where
  chunkSize := 4
  chunkOverlap := 2
  minChunkSize := some 1

theorem chunkTextWithMetadata_covers_words : ∃ windows chunks,
    (∀ fuel > ['a', ' ', 'b', 'c', 'd', 'e'].length,
      chunkWindow ['a', ' ', 'b', 'c', 'd', 'e'] wordWindows 1 fuel = some (windows, chunks) ∧
      chunkTextWithMetadata ['a', ' ', 'b', 'c', 'd', 'e'] wordWindows fuel = some (.ok chunks)) ∧
    WindowsCover ['a', ' ', 'b', 'c', 'd', 'e'] wordWindows 1 windows chunks :=
  chunkTextWithMetadata_covers rfl (by decide)

end Windows

end AtomicMemory
