import AtomicMemory.Lib.RequestTarget
import Mathlib.Data.List.Induction

-- The removal of `.` and `..` segments from the path of a URL before it is sent, character by
-- character, and what it does to the path as a list of segments. A route is a list of
-- pieces, and a path goes to it when each of its segments is the one the piece asks for.

namespace PercentEncoding

abbrev Segment := List Char

def IsDots (s : Segment) : Prop := s = ['.'] ∨ s = ['.', '.']

instance (s : Segment) : Decidable (IsDots s) := inferInstanceAs (Decidable (_ ∨ _))

/-- The output without its last segment and the `/` before it. -/
def dropSegment (output : List Char) : List Char :=
  ((output.reverse.dropWhile (· ≠ '/')).drop 1).reverse

/-- What is left of the input when a dot segment is replaced by `/`. -/
def rerooted (rest : List Char) : List Char := if rest = [] then ['/'] else rest

theorem length_rerooted {rest : List Char} (h : IsDots (rest.takeWhile (· ≠ '/'))) (c : Char) :
    (rerooted (rest.dropWhile (· ≠ '/'))).length < (c :: rest).length := by
  have hsplit := congrArg List.length
    (List.takeWhile_append_dropWhile (p := fun c => decide (c ≠ '/')) (l := rest))
  have hpos : 0 < (rest.takeWhile (· ≠ '/')).length := by
    obtain h | h := h <;> rw [h] <;> decide
  rw [List.length_append] at hsplit
  unfold rerooted
  split <;> simp only [List.length_cons, List.length_nil] <;> omega

/-- Move the first segment of the input to the end of the output, until the input is used
up. A `.` is dropped, and a `..` takes the last segment of the output with it. -/
def removeDotSegments : List Char → List Char → List Char
  | [], output => output
  | c :: rest, output =>
    let after := rest.dropWhile (· ≠ '/')
    if c = '/' then
      let segment := rest.takeWhile (· ≠ '/')
      if segment = ['.'] then removeDotSegments (rerooted after) output
      else if segment = ['.', '.'] then removeDotSegments (rerooted after) (dropSegment output)
      else removeDotSegments after (output ++ '/' :: segment)
    else
      -- only the path of a relative reference begins with no `/`
      let segment := c :: rest.takeWhile (· ≠ '/')
      if IsDots segment then removeDotSegments (after.drop 1) output
      else removeDotSegments after (output ++ segment)
termination_by input => input.length
decreasing_by
  · exact length_rerooted (.inl (by assumption)) c
  · exact length_rerooted (.inr (by assumption)) c
  · exact Nat.lt_succ_of_le (List.dropWhile_suffix _).length_le
  · refine Nat.lt_succ_of_le ((List.drop_suffix _ _).length_le.trans ?_)
    exact (List.dropWhile_suffix _).length_le
  · exact Nat.lt_succ_of_le (List.dropWhile_suffix _).length_le

def segments (path : List Char) : List Segment := (path.splitOn '/').drop 1

def absolutePath (segs : List Segment) : List Char := segs.flatMap ('/' :: ·)

def NoSlash (segs : List Segment) : Prop := ∀ s ∈ segs, '/' ∉ s

def Rooted (path : List Char) : Prop := path = [] ∨ ∃ rest, path = '/' :: rest

def push (out : List Segment) (s : Segment) : List Segment :=
  if s = ['.'] then out else if s = ['.', '.'] then out.dropLast else out ++ [s]

def resolved (segs : List Segment) : List Segment := segs.foldl push []

/-- A path that ends with a dot segment ends with `/` once that is removed. -/
def lastSegment (segs : List Segment) : List Segment :=
  match segs.getLast? with
  | some s => if IsDots s then [[]] else []
  | none => []

def normalized (segs : List Segment) : List Segment := resolved segs ++ lastSegment segs

@[simp] theorem absolutePath_nil : absolutePath [] = [] := rfl

@[simp] theorem absolutePath_cons (s : Segment) (segs : List Segment) :
    absolutePath (s :: segs) = '/' :: (s ++ absolutePath segs) := rfl

@[simp] theorem absolutePath_append (as bs : List Segment) :
    absolutePath (as ++ bs) = absolutePath as ++ absolutePath bs := List.flatMap_append

theorem absolutePath_eq_intercalate (segs : List Segment) :
    absolutePath segs = ['/'].intercalate ([] :: segs) := by
  induction segs with
  | nil => rfl
  | cons s segs ih =>
    rw [List.intercalate_cons_cons, absolutePath_cons]
    cases segs with
    | nil => simp
    | cons t segs =>
      rw [List.intercalate_cons_cons] at ih ⊢
      rw [ih]
      simp

theorem segments_absolutePath {segs : List Segment} (h : NoSlash segs) :
    segments (absolutePath segs) = segs := by
  have hall : ∀ s ∈ [] :: segs, '/' ∉ s := by
    intro s hs
    rcases List.mem_cons.mp hs with rfl | hs
    · exact List.not_mem_nil
    · exact h s hs
  rw [segments, absolutePath_eq_intercalate, List.splitOn_intercalate _ hall (by simp)]
  rfl

theorem absolutePath_segments {path : List Char} (h : Rooted path) :
    absolutePath (segments path) = path := by
  obtain rfl | ⟨rest, rfl⟩ := h
  · rfl
  · have hsplit : ('/' :: rest).splitOn '/' = [] :: rest.splitOn '/' :=
      List.splitOn_append_cons_self [] rest
    rw [segments, hsplit, List.drop_succ_cons, List.drop_zero, absolutePath_eq_intercalate,
      ← hsplit, List.intercalate_splitOn]

theorem not_mem_splitOn {α : Type} [BEq α] [LawfulBEq α] {sep : α} {xs piece : List α}
    (h : piece ∈ xs.splitOn sep) : sep ∉ piece := by
  induction xs generalizing piece with
  | nil => simp_all
  | cons x xs ih =>
    rw [List.splitOn_cons_eq_if_modifyHead] at h
    split at h
    · rcases List.mem_cons.mp h with rfl | h
      · exact List.not_mem_nil
      · exact ih h
    · rename_i hx
      obtain ⟨head, rest, hsplit⟩ := List.exists_cons_of_ne_nil (List.splitOn_ne_nil sep xs)
      rw [hsplit, List.modifyHead_cons] at h
      rw [hsplit] at ih
      rcases List.mem_cons.mp h with rfl | h
      · simp only [List.mem_cons, not_or]
        exact ⟨fun heq => hx (by simp [heq]), ih List.mem_cons_self⟩
      · exact ih (List.mem_cons_of_mem _ h)

theorem noSlash_segments (path : List Char) : NoSlash (segments path) :=
  fun _ hs => not_mem_splitOn ((List.drop_subset _ _) hs)

theorem noSlash_append {as bs : List Segment} (has : NoSlash as) (hbs : NoSlash bs) :
    NoSlash (as ++ bs) := fun s hs => (List.mem_append.mp hs).elim (has s) (hbs s)

theorem takeWhile_segment {s : Segment} (hs : '/' ∉ s) (segs : List Segment) :
    (s ++ absolutePath segs).takeWhile (· ≠ '/') = s ∧
      (s ++ absolutePath segs).dropWhile (· ≠ '/') = absolutePath segs := by
  have hall : ∀ c ∈ s, decide (c ≠ '/') = true := by
    intro c hc
    rw [decide_eq_true_eq]
    rintro rfl
    exact hs hc
  rw [List.takeWhile_append_of_pos hall, List.dropWhile_append_of_pos hall]
  cases segs with
  | nil => exact ⟨List.append_nil s, rfl⟩
  | cons t segs =>
    rw [absolutePath_cons, List.takeWhile_cons_of_neg (by simp),
      List.dropWhile_cons_of_neg (by simp)]
    exact ⟨List.append_nil s, rfl⟩

theorem dropSegment_absolutePath {out : List Segment} (h : NoSlash out) :
    dropSegment (absolutePath out) = absolutePath out.dropLast := by
  cases out using List.reverseRecOn with
  | nil => rfl
  | append_singleton out s =>
    have hall : ∀ c ∈ s.reverse, decide (c ≠ '/') = true := by
      intro c hc
      rw [decide_eq_true_eq]
      rintro rfl
      exact h s (by simp) (List.mem_reverse.mp hc)
    have hreverse : (absolutePath (out ++ [s])).reverse =
        s.reverse ++ '/' :: (absolutePath out).reverse := by
      simp
    rw [dropSegment, hreverse, List.dropWhile_append_of_pos hall,
      List.dropWhile_cons_of_neg (by simp), List.drop_succ_cons, List.drop_zero,
      List.reverse_reverse, List.dropLast_concat]

theorem removeDotSegments_cons {s : Segment} (hs : '/' ∉ s) (segs : List Segment)
    (output : List Char) :
    removeDotSegments (absolutePath (s :: segs)) output =
      if s = ['.'] then removeDotSegments (rerooted (absolutePath segs)) output
      else if s = ['.', '.'] then
        removeDotSegments (rerooted (absolutePath segs)) (dropSegment output)
      else removeDotSegments (absolutePath segs) (output ++ '/' :: s) := by
  obtain ⟨htake, hdrop⟩ := takeWhile_segment hs segs
  rw [absolutePath_cons, removeDotSegments]
  simp only [if_true, htake, hdrop]

theorem removeDotSegments_slash (output : List Char) :
    removeDotSegments ['/'] output = output ++ ['/'] := by
  have h := removeDotSegments_cons (s := []) List.not_mem_nil [] output
  rw [if_neg (by decide), if_neg (by decide)] at h
  exact h.trans (by rw [absolutePath_nil, removeDotSegments])

theorem noSlash_push {out : List Segment} {s : Segment} (hout : NoSlash out) (hs : '/' ∉ s) :
    NoSlash (push out s) := by
  unfold push
  split
  · exact hout
  split
  · exact fun t ht => hout t (List.dropLast_subset _ ht)
  · intro t ht
    rcases List.mem_append.mp ht with ht | ht
    · exact hout t ht
    · rwa [List.mem_singleton.mp ht]

theorem lastSegment_cons_cons (s t : Segment) (segs : List Segment) :
    lastSegment (s :: t :: segs) = lastSegment (t :: segs) := by
  simp [lastSegment]

theorem removeDotSegments_absolutePath {segs out : List Segment} (hsegs : NoSlash segs)
    (hout : NoSlash out) :
    removeDotSegments (absolutePath segs) (absolutePath out) =
      absolutePath (segs.foldl push out ++ lastSegment segs) := by
  induction segs generalizing out with
  | nil =>
    rw [absolutePath_nil, removeDotSegments, List.foldl_nil]
    exact congrArg absolutePath (List.append_nil out).symm
  | cons s segs ih =>
    have hs : '/' ∉ s := hsegs s List.mem_cons_self
    have hrest : NoSlash segs := fun t ht => hsegs t (List.mem_cons_of_mem s ht)
    -- after a dot segment the input is what follows it, or `/` when nothing does
    have hdots (hs : IsDots s) {out : List Segment} (hout : NoSlash out) :
        removeDotSegments (rerooted (absolutePath segs)) (absolutePath out) =
          absolutePath (segs.foldl push out ++ lastSegment (s :: segs)) := by
      cases segs with
      | nil =>
        have hlast : lastSegment [s] = [[]] := if_pos hs
        rw [hlast, List.foldl_nil, absolutePath_append]
        exact removeDotSegments_slash _
      | cons t segs =>
        rw [lastSegment_cons_cons, ← ih hrest hout]
        rfl
    rw [removeDotSegments_cons hs, List.foldl_cons]
    by_cases hdot : s = ['.']
    · rw [if_pos hdot, hdots (.inl hdot) hout, push, if_pos hdot]
    by_cases hdotdot : s = ['.', '.']
    · rw [if_neg hdot, if_pos hdotdot, dropSegment_absolutePath hout,
        hdots (.inr hdotdot) fun t ht => hout t (List.dropLast_subset _ ht), push, if_neg hdot,
        if_pos hdotdot]
    · have hpush : push out s = out ++ [s] := by rw [push, if_neg hdot, if_neg hdotdot]
      have houtput : absolutePath out ++ '/' :: s = absolutePath (out ++ [s]) := by simp
      rw [if_neg hdot, if_neg hdotdot, houtput, hpush,
        ih hrest (hpush ▸ noSlash_push hout hs)]
      cases segs with
      | nil =>
        have hlast : lastSegment [s] = [] := if_neg (not_or.mpr ⟨hdot, hdotdot⟩)
        rw [hlast]
        rfl
      | cons t segs => rw [lastSegment_cons_cons]

def sentPath (target : List Char) : List Char := removeDotSegments (targetPath target) []

def sentSegments (target : List Char) : List Segment := segments (sentPath target)

/-- The target puts these segments after `root`, and they are sent after what `root` leads
to. -/
def Reaches (root target : List Char) (segs : List Segment) : Prop :=
  targetPath target = root ++ absolutePath segs ∧
    sentSegments target = resolved (segments root) ++ segs

theorem noSlash_foldl_push {out segs : List Segment} (hout : NoSlash out) (hsegs : NoSlash segs) :
    NoSlash (segs.foldl push out) := by
  induction segs generalizing out with
  | nil => exact hout
  | cons s segs ih =>
    have hs := hsegs s List.mem_cons_self
    exact ih (noSlash_push hout hs) fun t ht => hsegs t (List.mem_cons_of_mem s ht)

theorem noSlash_lastSegment (segs : List Segment) : NoSlash (lastSegment segs) := by
  unfold lastSegment
  split
  · split
    · exact fun s hs => by simp_all
    · exact List.forall_mem_nil _
  · exact List.forall_mem_nil _

theorem segments_removeDotSegments {segs : List Segment} (h : NoSlash segs) :
    segments (removeDotSegments (absolutePath segs) []) = normalized segs := by
  have hremove := removeDotSegments_absolutePath h (List.forall_mem_nil _ : NoSlash [])
  rw [absolutePath_nil] at hremove
  rw [hremove, segments_absolutePath]
  · rfl
  · exact noSlash_append (noSlash_foldl_push (List.forall_mem_nil _) h) (noSlash_lastSegment segs)

theorem foldl_push_of_not_dots {segs : List Segment} (h : ∀ s ∈ segs, ¬ IsDots s)
    (out : List Segment) : segs.foldl push out = out ++ segs := by
  induction segs generalizing out with
  | nil => exact (List.append_nil out).symm
  | cons s segs ih =>
    obtain ⟨hdot, hdotdot⟩ := not_or.mp (h s List.mem_cons_self)
    have hpush : push out s = out ++ [s] := by rw [push, if_neg hdot, if_neg hdotdot]
    rw [List.foldl_cons, hpush, ih fun t ht => h t (List.mem_cons_of_mem s ht), List.append_assoc]
    rfl

theorem length_push_le (out : List Segment) (s : Segment) :
    (push out s).length ≤ out.length + 1 := by
  unfold push
  split
  · exact Nat.le_succ _
  split
  · rw [List.length_dropLast]
    omega
  · exact (List.length_append).le

theorem length_push_of_dots {out : List Segment} {s : Segment} (hs : IsDots s) :
    (push out s).length ≤ out.length := by
  unfold push
  split
  · exact Nat.le_refl _
  · rename_i hdot
    rw [if_pos (hs.resolve_left hdot), List.length_dropLast]
    exact Nat.sub_le _ _

theorem length_foldl_push_le (segs out : List Segment) :
    (segs.foldl push out).length ≤ out.length + segs.length := by
  induction segs generalizing out with
  | nil => exact Nat.le_refl _
  | cons s segs ih =>
    have := ih (push out s)
    have := length_push_le out s
    rw [List.foldl_cons, List.length_cons]
    omega

theorem length_foldl_push_lt {segs : List Segment} {s : Segment} (hs : s ∈ segs) (hdots : IsDots s)
    (out : List Segment) : (segs.foldl push out).length < out.length + segs.length := by
  induction segs generalizing out with
  | nil => cases hs
  | cons t segs ih =>
    rw [List.foldl_cons, List.length_cons]
    rcases List.mem_cons.mp hs with rfl | hs
    · have := length_foldl_push_le segs (push out s)
      have : (push out s).length ≤ out.length := length_push_of_dots hdots
      omega
    · have := ih hs (push out t)
      have := length_push_le out t
      omega

theorem lastSegment_concat (segs : List Segment) (s : Segment) :
    lastSegment (segs ++ [s]) = if IsDots s then [[]] else [] := by
  simp [lastSegment]

/-- The segments after `as` are sent as they are exactly when none of them is a dot
segment. -/
theorem normalized_append_iff (as : List Segment) {bs : List Segment} (hne : bs ≠ []) :
    normalized (as ++ bs) = resolved as ++ bs ↔ ∀ s ∈ bs, ¬ IsDots s := by
  have hfold : resolved (as ++ bs) = bs.foldl push (resolved as) := List.foldl_append
  cases bs using List.reverseRecOn with
  | nil => exact absurd rfl hne
  | append_singleton bs last =>
    rw [normalized, hfold, ← List.append_assoc, lastSegment_concat]
    constructor
    · intro h s hs hdots
      by_cases hlast : IsDots last
      · rw [if_pos hlast, ← List.append_assoc] at h
        have hnil := (List.append_inj' h rfl).2
        obtain rfl | rfl := hlast <;> cases hnil
      · rw [if_neg hlast, List.append_nil, ← List.append_assoc] at h
        have hlt := length_foldl_push_lt hs hdots (resolved as)
        rw [h, List.append_assoc, List.length_append] at hlt
        exact absurd hlt (Nat.lt_irrefl _)
    · intro h
      rw [if_neg (h last (by simp)), List.append_nil, foldl_push_of_not_dots h]

/-- What a route puts into its path: a segment of its own, or an argument in its quoted
form. -/
inductive Piece
  | literal (segment : Segment)
  | argument (text : List Char)
  deriving DecidableEq

namespace Piece

def segment : Piece → Segment
  | literal s => s
  | argument text => quote text

/-- What a segment of a path must be for the piece to be read from it. -/
def Fits : Piece → Segment → Prop
  | literal s, segment => segment = s
  | argument text, segment => unquote segment = utf8 text

def isArgument : Piece → Bool
  | literal _ => false
  | argument _ => true

/-- A literal segment that means nothing to whoever splits or normalizes the path. -/
def Plain : Piece → Prop
  | literal s => '/' ∉ s ∧ PathText s ∧ ¬ IsDots s
  | argument _ => True

instance : (piece : Piece) → Decidable piece.Plain
  | literal s => inferInstanceAs (Decidable ('/' ∉ s ∧ PathText s ∧ ¬ IsDots s))
  | argument _ => isTrue trivial

theorem fits_segment (piece : Piece) : piece.Fits piece.segment := by
  cases piece with
  | literal s => rfl
  | argument text => exact unquote_quote text

end Piece

theorem utf8_injective {s t : List Char} (h : utf8 s = utf8 t) : s = t := by
  have hencode : s.utf8Encode = t.utf8Encode := congrArg List.toByteArray h
  have hdecode := congrArg ByteArray.utf8Decode? hencode
  rw [List.utf8Decode?_utf8Encode, List.utf8Decode?_utf8Encode] at hdecode
  exact List.toArray_inj (Option.some.inj hdecode)

theorem quote_injective {s t : List Char} (h : quote s = quote t) : s = t := by
  have hdecode := congrArg unquote h
  rw [unquote_quote, unquote_quote] at hdecode
  exact utf8_injective hdecode

theorem isDots_quote (s : List Char) : IsDots (quote s) ↔ IsDots s := by
  have hdot : quote ['.'] = ['.'] := by decide
  have hdotdot : quote ['.', '.'] = ['.', '.'] := by decide
  constructor
  · rintro (h | h)
    · exact .inl (quote_injective (h.trans hdot.symm))
    · exact .inr (quote_injective (h.trans hdotdot.symm))
  · rintro (rfl | rfl)
    · exact .inl hdot
    · exact .inr hdotdot

theorem pathText_quote (s : List Char) : PathText (quote s) := by
  intro c hc
  unfold isPathChar
  rw [Bool.and_eq_true, decide_eq_true_eq, decide_eq_true_eq]
  constructor
  · rintro rfl
    exact not_mem_quote s (by decide) (by decide) hc
  · rintro rfl
    exact not_mem_quote s (by decide) (by decide) hc

section

variable {pieces : List Piece} (hplain : ∀ piece ∈ pieces, piece.Plain)

include hplain

theorem noSlash_pieces : NoSlash (pieces.map Piece.segment) := by
  intro s hs
  obtain ⟨piece, hpiece, rfl⟩ := List.mem_map.mp hs
  have h := hplain piece hpiece
  cases piece with
  | literal s => exact h.1
  | argument text => exact not_mem_quote text (by decide) (by decide)

theorem pathText_pieces : PathText (absolutePath (pieces.map Piece.segment)) := by
  intro c hc
  obtain ⟨s, hs, hc⟩ := List.mem_flatMap.mp hc
  obtain ⟨piece, hpiece, rfl⟩ := List.mem_map.mp hs
  rcases List.mem_cons.mp hc with rfl | hc
  · rfl
  have h := hplain piece hpiece
  cases piece with
  | literal s => exact h.2.1 c hc
  | argument text => exact pathText_quote text c hc

theorem not_isDots_pieces :
    (∀ s ∈ pieces.map Piece.segment, ¬ IsDots s) ↔
      ∀ text, .argument text ∈ pieces → ¬ IsDots text := by
  constructor
  · intro h text htext hdots
    exact h _ (List.mem_map_of_mem htext) ((isDots_quote text).mpr hdots)
  · intro h s hs
    obtain ⟨piece, hpiece, rfl⟩ := List.mem_map.mp hs
    cases piece with
    | literal s => exact (hplain _ hpiece).2.2
    | argument text => exact fun hdots => h text hpiece ((isDots_quote text).mp hdots)

/-- A target made of a route's pieces reaches them, and nothing else, exactly when `root`
is text of a path and no argument is a dot segment. -/
theorem reaches_iff {root : List Char} (hroot : Rooted root) (hne : pieces ≠ [])
    {tail : List Char} (htail : tail = [] ∨ ∃ query, tail = '?' :: query) (segs : List Segment) :
    Reaches root (root ++ absolutePath (pieces.map Piece.segment) ++ tail) segs ↔
      segs = pieces.map Piece.segment ∧ PathText root ∧
        ∀ text, .argument text ∈ pieces → ¬ IsDots text := by
  have hstop : tail.takeWhile isPathChar = [] := by
    obtain rfl | ⟨query, rfl⟩ := htail <;> rfl
  have hsegs := noSlash_pieces hplain
  have htext := pathText_pieces hplain
  have hpath (hroottext : PathText root) :
      targetPath (root ++ absolutePath (pieces.map Piece.segment) ++ tail) =
        root ++ absolutePath (pieces.map Piece.segment) := by
    rw [targetPath_eq, takeWhile_isPathChar_append (pathText_append.mpr ⟨hroottext, htext⟩), hstop,
      List.append_nil]
  have hsent (hroottext : PathText root) :
      sentSegments (root ++ absolutePath (pieces.map Piece.segment) ++ tail) =
        normalized (segments root ++ pieces.map Piece.segment) := by
    rw [sentSegments, sentPath, hpath hroottext]
    conv_lhs => rw [← absolutePath_segments hroot, ← absolutePath_append]
    exact segments_removeDotSegments (noSlash_append (noSlash_segments root) hsegs)
  have hmap : pieces.map Piece.segment ≠ [] := by simpa using hne
  constructor
  · rintro ⟨htarget, hreached⟩
    have hroottext : PathText root := by
      intro c hc
      have hmem : c ∈ targetPath (root ++ absolutePath (pieces.map Piece.segment) ++ tail) := by
        rw [htarget]
        exact List.mem_append_left _ hc
      rw [targetPath_eq] at hmem
      exact List.mem_takeWhile_imp hmem
    have hslash : NoSlash segs := by
      intro s hs
      refine noSlash_segments (sentPath (root ++ absolutePath (pieces.map Piece.segment) ++ tail))
        s ?_
      have hmem : s ∈ resolved (segments root) ++ segs := List.mem_append_right _ hs
      rw [← hreached] at hmem
      exact hmem
    rw [hpath hroottext] at htarget
    have heq := congrArg segments (List.append_cancel_left htarget)
    rw [segments_absolutePath hslash, segments_absolutePath hsegs] at heq
    obtain rfl := heq.symm
    rw [hsent hroottext, normalized_append_iff _ hmap] at hreached
    exact ⟨rfl, hroottext, (not_isDots_pieces hplain).mp hreached⟩
  · rintro ⟨rfl, hroottext, hdots⟩
    refine ⟨hpath hroottext, ?_⟩
    rw [hsent hroottext, normalized_append_iff _ hmap]
    exact (not_isDots_pieces hplain).mpr hdots

end

end PercentEncoding
