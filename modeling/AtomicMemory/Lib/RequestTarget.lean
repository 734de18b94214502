import AtomicMemory.Lib.PercentEncoding

-- A target is split at its first `#` and then at its first `?`; the path is a sequence of
-- segments and the query a form. For text put into a target as it is, the exact conditions
-- under which it comes out as itself.

namespace PercentEncoding

def plusToSpace (s : List Char) : List Char := s.map fun c => if c = '+' then ' ' else c

def formText (s : List Char) : List UInt8 := unquote (plusToSpace s)

/-- A name and a value, split at the first `=`. -/
def formPair (piece : List Char) : List UInt8 × List UInt8 :=
  (formText (piece.takeWhile (· ≠ '=')), formText ((piece.dropWhile (· ≠ '=')).drop 1))

def formDecode (query : List Char) : List (List UInt8 × List UInt8) :=
  ((query.splitOn '&').filter (· ≠ [])).map formPair

def formPiece (pair : List Char × List Char) : List Char :=
  quotePlus pair.1 ++ '=' :: quotePlus pair.2

/-- `urlencode(pairs)`. -/
def urlencode (pairs : List (List Char × List Char)) : List Char :=
  ['&'].intercalate (pairs.map formPiece)

theorem formPair_append {name : List Char} (hname : '=' ∉ name) (value : List Char) :
    formPair (name ++ '=' :: value) = (formText name, formText value) := by
  have hall : ∀ c ∈ name, decide (c ≠ '=') = true := by
    intro c hc
    simp only [ne_eq, decide_not, Bool.not_eq_true', decide_eq_false_iff_not]
    rintro rfl
    exact hname hc
  unfold formPair
  rw [List.takeWhile_append_of_pos hall, List.dropWhile_append_of_pos hall]
  simp

theorem formDecode_single {piece : List Char} (hne : piece ≠ []) (hamp : '&' ∉ piece) :
    formDecode piece = [formPair piece] := by
  unfold formDecode
  rw [List.splitOn_eq_singleton hamp, List.filter_cons_of_pos (by simpa using hne)]
  rfl

theorem formDecode_amp (form rest : List Char) :
    formDecode (form ++ '&' :: rest) = formDecode form ++ formDecode rest := by
  unfold formDecode
  rw [List.splitOn_append_cons_self, List.filter_append, List.map_append]

theorem formDecode_append {piece : List Char} (hne : piece ≠ []) (hamp : '&' ∉ piece)
    (rest : List Char) :
    formDecode (piece ++ '&' :: rest) = formPair piece :: formDecode rest := by
  rw [formDecode_amp, formDecode_single hne hamp, List.singleton_append]

theorem plusToSpace_quoteByte (b : UInt8) : plusToSpace (quoteByte b) = quoteByte b := by
  unfold plusToSpace
  refine (List.map_congr_left fun c hc => if_neg ?_).trans (List.map_id _)
  rintro rfl
  exact absurd (mem_quoteByte hc) (by decide)

theorem formText_quotePlus (s : List Char) : formText (quotePlus s) = utf8 s := by
  unfold formText quotePlus
  induction utf8 s with
  | nil => rfl
  | cons b bs ih =>
    rw [List.flatMap_cons, plusToSpace, List.map_append]
    unfold quotePlusByte
    split
    · rename_i hb
      subst hb
      have hspace : unquote (' ' :: plusToSpace (bs.flatMap quotePlusByte)) =
          32 :: unquote (plusToSpace (bs.flatMap quotePlusByte)) :=
        unquote_cons_of_ne (by decide) _
      exact hspace.trans (by rw [ih])
    · have hquote : (quoteByte b).map (fun c => if c = '+' then ' ' else c) = quoteByte b :=
        plusToSpace_quoteByte b
      rw [hquote, unquote_quoteByte]
      exact congrArg (b :: ·) ih

theorem formPair_formPiece (pair : List Char × List Char) :
    formPair (formPiece pair) = (utf8 pair.1, utf8 pair.2) := by
  unfold formPiece
  rw [formPair_append (not_mem_quotePlus _ (by decide) (by decide) (by decide)),
    formText_quotePlus, formText_quotePlus]

theorem formPiece_ne_nil (pair : List Char × List Char) : formPiece pair ≠ [] := by
  simp [formPiece]

theorem not_mem_formPiece (pair : List Char × List Char) {c : Char}
    (hu : isUnreserved c = false) (hc : c ≠ '%') (hplus : c ≠ '+') (heq : c ≠ '=') :
    c ∉ formPiece pair := by
  simp only [formPiece, List.mem_append, List.mem_cons, not_or]
  exact ⟨not_mem_quotePlus _ hu hc hplus, heq, not_mem_quotePlus _ hu hc hplus⟩

theorem mem_urlencode {pairs : List (List Char × List Char)} {c : Char}
    (h : c ∈ urlencode pairs) : c = '&' ∨ ∃ pair ∈ pairs, c ∈ formPiece pair := by
  unfold urlencode at h
  induction pairs with
  | nil => simp at h
  | cons pair pairs ih =>
    cases pairs with
    | nil => exact .inr ⟨pair, List.mem_singleton_self _, by simpa using h⟩
    | cons next rest =>
      rw [List.map_cons, List.map_cons, List.intercalate_cons_cons] at h
      rcases List.mem_append.mp h with h | h
      · rcases List.mem_append.mp h with h | h
        · exact .inr ⟨pair, List.mem_cons_self, h⟩
        · exact .inl (List.mem_singleton.mp h)
      · obtain h | ⟨p, hp, hc⟩ := ih h
        · exact .inl h
        · exact .inr ⟨p, List.mem_cons_of_mem _ hp, hc⟩

theorem hash_not_mem_urlencode (pairs : List (List Char × List Char)) :
    '#' ∉ urlencode pairs := by
  intro h
  rcases mem_urlencode h with h | ⟨pair, -, h⟩
  · exact absurd h (by decide)
  · exact not_mem_formPiece pair (by decide) (by decide) (by decide) (by decide) h

theorem formDecode_urlencode (pairs : List (List Char × List Char)) :
    formDecode (urlencode pairs) = pairs.map fun pair => (utf8 pair.1, utf8 pair.2) := by
  induction pairs with
  | nil => rfl
  | cons pair pairs ih =>
    have hamp : '&' ∉ formPiece pair :=
      not_mem_formPiece pair (by decide) (by decide) (by decide) (by decide)
    cases pairs with
    | nil =>
      have h : urlencode [pair] = formPiece pair := by simp [urlencode]
      rw [h, formDecode_single (formPiece_ne_nil pair) hamp, formPair_formPiece]
      rfl
    | cons next rest =>
      have h : urlencode (pair :: next :: rest) =
          formPiece pair ++ '&' :: urlencode (next :: rest) := by
        simp [urlencode, List.intercalate_cons_cons]
      rw [h, formDecode_append (formPiece_ne_nil pair) hamp, formPair_formPiece, ih]
      rfl

def targetPath (target : List Char) : List Char :=
  (target.takeWhile (· ≠ '#')).takeWhile (· ≠ '?')

def targetQuery (target : List Char) : Option (List Char) :=
  let target := target.takeWhile (· ≠ '#')
  if '?' ∈ target then some ((target.dropWhile (· ≠ '?')).drop 1) else none

def isPathChar (c : Char) : Bool := c ≠ '?' && c ≠ '#'

/-- The text holds neither of the characters a target is split at. -/
def PathText (s : List Char) : Prop := ∀ c ∈ s, isPathChar c = true

instance (s : List Char) : Decidable (PathText s) :=
  List.decidableBAll (fun c => isPathChar c = true) s

/-- The target's path is `before`, one segment that decodes to `text`, and `after`. -/
def HasSegment (target before after text : List Char) : Prop :=
  ∃ segment, targetPath target = before ++ segment ++ after ∧ '/' ∉ segment ∧
    unquote segment = utf8 text

def PlainSegment (s : List Char) : Prop := '/' ∉ s ∧ PathText s ∧ hasEscape s = false

/-- Text that stands for itself as a value in the query of a target. -/
def PlainFormValue (s : List Char) : Prop :=
  '#' ∉ s ∧ '&' ∉ s ∧ '+' ∉ s ∧ hasEscape s = false

instance (s : List Char) : Decidable (PlainSegment s) := inferInstanceAs (Decidable (_ ∧ _))

instance (s : List Char) : Decidable (PlainFormValue s) := inferInstanceAs (Decidable (_ ∧ _))

theorem targetPath_eq (target : List Char) : targetPath target = target.takeWhile isPathChar := by
  unfold targetPath
  rw [List.takeWhile_takeWhile]
  congr 1
  funext c
  simp [isPathChar]

theorem takeWhile_isPathChar_append {s : List Char} (hs : PathText s) (rest : List Char) :
    (s ++ rest).takeWhile isPathChar = s ++ rest.takeWhile isPathChar :=
  List.takeWhile_append_of_pos hs

theorem pathText_append {s t : List Char} : PathText (s ++ t) ↔ PathText s ∧ PathText t := by
  simp only [PathText, List.mem_append, or_imp, forall_and]

theorem utf8_takeWhile_length_lt {p : Char → Bool} {s : List Char} (h : ∃ c ∈ s, p c = false) :
    (utf8 (s.takeWhile p)).length < (utf8 s).length := by
  have hsplit : utf8 s = utf8 (s.takeWhile p) ++ utf8 (s.dropWhile p) := by
    rw [← utf8_append, List.takeWhile_append_dropWhile]
  obtain ⟨c, hc, hp⟩ := h
  have hne : s.dropWhile p ≠ [] := by
    intro hnil
    rw [List.dropWhile_eq_nil_iff] at hnil
    rw [hnil c hc] at hp
    cases hp
  obtain ⟨d, rest, hd⟩ := List.exists_cons_of_ne_nil hne
  have := encodeChar_length_pos d
  rw [hsplit, hd, utf8_cons, List.length_append, List.length_append]
  omega

theorem takeWhile_append_of_exists {α : Type} {p : α → Bool} {s : List α}
    (h : ∃ c ∈ s, p c = false) (rest : List α) : (s ++ rest).takeWhile p = s.takeWhile p := by
  induction s with
  | nil => simp at h
  | cons d s ih =>
    rw [List.cons_append, List.takeWhile_cons, List.takeWhile_cons]
    split
    · rename_i hd
      obtain ⟨c, hc, hp⟩ := h
      rcases List.mem_cons.mp hc with rfl | hc
      · rw [hd] at hp
        cases hp
      · rw [ih ⟨c, hc, hp⟩]
    · rfl

/-- Raw text between two parts of a path is one segment that decodes to it exactly when
it is plain. -/
theorem hasSegment_raw_iff (before text : List Char) {after tail : List Char}
    (hafter : PathText after) (htail : tail = [] ∨ ∃ query, tail = '?' :: query) :
    HasSegment (before ++ text ++ after ++ tail) before after text ↔
      PathText before ∧ PlainSegment text := by
  have hstop : tail.takeWhile isPathChar = [] := by
    obtain rfl | ⟨query, rfl⟩ := htail <;> rfl
  constructor
  · rintro ⟨segment, hpath, hslash, hdecode⟩
    rw [targetPath_eq, List.append_assoc, List.append_assoc, List.append_assoc] at hpath
    have hbefore : PathText before := by
      intro c hc
      have hmem : c ∈ (before ++ (text ++ (after ++ tail))).takeWhile isPathChar := by
        rw [hpath]
        exact List.mem_append_left _ hc
      exact List.mem_takeWhile_imp hmem
    rw [takeWhile_isPathChar_append hbefore] at hpath
    have hpath := List.append_cancel_left hpath
    have htext : PathText text := by
      by_contra hnot
      have hex : ∃ c ∈ text, isPathChar c = false := by
        simpa [PathText] using hnot
      rw [takeWhile_append_of_exists hex] at hpath
      -- the segment would be shorter than what it decodes to
      have hshort := utf8_takeWhile_length_lt hex
      have hle := unquote_length_le segment
      rw [hpath, utf8_append, List.length_append] at hshort
      rw [hdecode] at hle
      omega
    rw [takeWhile_isPathChar_append htext, takeWhile_isPathChar_append hafter, hstop,
      List.append_nil] at hpath
    obtain rfl := List.append_cancel_right hpath
    exact ⟨hbefore, hslash, htext, (unquote_eq_utf8_iff text).mp hdecode⟩
  · rintro ⟨hbefore, hslash, htext, hescape⟩
    refine ⟨text, ?_, hslash, unquote_eq_utf8 hescape⟩
    have hpath : PathText (before ++ text ++ after) :=
      pathText_append.mpr ⟨pathText_append.mpr ⟨hbefore, htext⟩, hafter⟩
    rw [targetPath_eq, takeWhile_isPathChar_append hpath, hstop, List.append_nil]

theorem targetQuery_append {path : List Char} (hpath : PathText path) (query : List Char) :
    targetQuery (path ++ '?' :: query) = some (query.takeWhile (· ≠ '#')) := by
  have hhash : ∀ c ∈ path, decide (c ≠ '#') = true := fun c hc => by
    have := hpath c hc
    simp only [isPathChar, Bool.and_eq_true] at this
    exact this.2
  have hmark : ∀ c ∈ path, decide (c ≠ '?') = true := fun c hc => by
    have := hpath c hc
    simp only [isPathChar, Bool.and_eq_true] at this
    exact this.1
  unfold targetQuery
  rw [List.takeWhile_append_of_pos hhash, List.takeWhile_cons_of_pos (by decide)]
  dsimp only
  rw [if_pos (List.mem_append_right _ List.mem_cons_self), List.dropWhile_append_of_pos hmark,
    List.dropWhile_cons_of_neg (by simp)]
  rfl

theorem targetQuery_eq {path query : List Char} (hpath : PathText path) (hquery : '#' ∉ query) :
    targetQuery (path ++ '?' :: query) = some query := by
  rw [targetQuery_append hpath, List.takeWhile_eq_self_iff.mpr]
  intro c hc
  simp only [ne_eq, decide_not, Bool.not_eq_true', decide_eq_false_iff_not]
  rintro rfl
  exact hquery hc

theorem targetQuery_none {path : List Char} (hpath : PathText path) : targetQuery path = none := by
  unfold targetQuery
  refine if_neg fun h => ?_
  have := hpath '?' ((List.takeWhile_subset _) h)
  cases this

theorem formDecode_head {name : List Char} (heq : '=' ∉ name) (hamp : '&' ∉ name)
    (value : List Char) :
    ∃ rest, formDecode (name ++ '=' :: value) =
      (formText name, formText (value.takeWhile (· ≠ '&'))) :: rest := by
  have hsplit := List.takeWhile_append_dropWhile (p := fun c => decide (c ≠ '&')) (l := value)
  have hfirst : '&' ∉ value.takeWhile (· ≠ '&') := by
    intro h
    have := List.mem_takeWhile_imp h
    simp at this
  have hpiece : '&' ∉ name ++ '=' :: value.takeWhile (· ≠ '&') := by
    simp only [List.mem_append, List.mem_cons, not_or]
    exact ⟨hamp, by decide, hfirst⟩
  have hne : name ++ '=' :: value.takeWhile (· ≠ '&') ≠ [] := by simp
  -- the first pair ends at the first `&`, if there is one
  cases hdrop : value.dropWhile (· ≠ '&') with
  | nil =>
    rw [hdrop, List.append_nil] at hsplit
    rw [hsplit] at hpiece hne ⊢
    exact ⟨[], by rw [formDecode_single hne hpiece, formPair_append heq]⟩
  | cons d rest =>
    have hd : d = '&' := by
      have := List.head?_dropWhile_not (fun c => decide (c ≠ '&')) value
      rw [hdrop] at this
      simpa using this
    subst hd
    refine ⟨formDecode rest, ?_⟩
    rw [← formPair_append heq, ← formDecode_append hne hpiece, List.append_assoc, List.cons_append,
      ← hdrop, hsplit]

theorem utf8_plusToSpace_length (s : List Char) :
    (utf8 (plusToSpace s)).length = (utf8 s).length := by
  induction s with
  | nil => rfl
  | cons c s ih =>
    have hc : (String.utf8EncodeChar (if c = '+' then ' ' else c)).length =
        (String.utf8EncodeChar c).length := by
      split
      · rename_i h
        subst h
        rfl
      · rfl
    rw [plusToSpace, List.map_cons, utf8_cons, utf8_cons, List.length_append, List.length_append,
      hc]
    exact congrArg _ ih

theorem formText_length_le (s : List Char) : (formText s).length ≤ (utf8 s).length :=
  (unquote_length_le _).trans (Nat.le_of_eq (utf8_plusToSpace_length s))

theorem hexValue_plusToSpace (c : Char) :
    hexValue (if c = '+' then ' ' else c) = hexValue c := by
  split
  · rename_i h
    subst h
    rfl
  · rfl

theorem escapedByte_plusToSpace (c : Char) (rest : List Char) :
    escapedByte (if c = '+' then ' ' else c) (plusToSpace rest) = escapedByte c rest := by
  by_cases hc : c = '%'
  · subst hc
    match rest with
    | [] | [_] => rfl
    | a :: b :: rest =>
      simp only [escapedByte, plusToSpace, List.map_cons, hexValue_plusToSpace]
      rfl
  · have hc' : (if c = '+' then ' ' else c) ≠ '%' := by
      split
      · decide
      · exact hc
    simp only [escapedByte, if_neg hc, if_neg hc']

theorem hasEscape_plusToSpace (s : List Char) : hasEscape (plusToSpace s) = hasEscape s := by
  induction s with
  | nil => rfl
  | cons c s ih =>
    have h : plusToSpace (c :: s) = (if c = '+' then ' ' else c) :: plusToSpace s := rfl
    rw [h, hasEscape, hasEscape, escapedByte_plusToSpace, ih]

theorem plusToSpace_eq_self {s : List Char} (h : '+' ∉ s) : plusToSpace s = s := by
  refine (List.map_congr_left fun c hc => if_neg ?_).trans (List.map_id _)
  rintro rfl
  exact h hc

theorem not_mem_of_utf8_plusToSpace {s : List Char} (h : utf8 (plusToSpace s) = utf8 s) :
    '+' ∉ s := by
  induction s with
  | nil => exact List.not_mem_nil
  | cons c s ih =>
    have hcons : plusToSpace (c :: s) = (if c = '+' then ' ' else c) :: plusToSpace s := rfl
    rw [hcons, utf8_cons, utf8_cons] at h
    by_cases hc : c = '+'
    · subst hc
      have hhead := congrArg List.head? h
      have hne : some (32 : UInt8) ≠ some 43 := by decide
      exact absurd hhead hne
    · rw [if_neg hc] at h
      simp only [List.mem_cons, not_or]
      exact ⟨fun hplus => hc hplus.symm, ih (List.append_cancel_left h)⟩

theorem formText_eq_utf8_iff (s : List Char) :
    formText s = utf8 s ↔ '+' ∉ s ∧ hasEscape s = false := by
  constructor
  · intro h
    have hescape : hasEscape s = false := by
      by_contra he
      have hlt := unquote_length_lt (s := plusToSpace s)
        (by rw [hasEscape_plusToSpace]; simpa using he)
      rw [utf8_plusToSpace_length, ← h] at hlt
      exact absurd hlt (Nat.lt_irrefl _)
    have hdecode : unquote (plusToSpace s) = utf8 (plusToSpace s) :=
      unquote_eq_utf8 ((hasEscape_plusToSpace s).trans hescape)
    exact ⟨not_mem_of_utf8_plusToSpace (hdecode.symm.trans h), hescape⟩
  · rintro ⟨hplus, hescape⟩
    rw [formText, plusToSpace_eq_self hplus]
    exact unquote_eq_utf8 hescape

theorem formText_quote (s : List Char) : formText (quote s) = utf8 s := by
  rw [formText, plusToSpace_eq_self (not_mem_quote s (by decide) (by decide)), unquote_quote]

/-- The form that a target ends with; a target without a query has no fields. -/
def formQuery (target : List Char) : List (List UInt8 × List UInt8) :=
  match targetQuery target with
  | some query => formDecode query
  | none => []

theorem formQuery_eq {path query : List Char} (hpath : PathText path) (hquery : '#' ∉ query) :
    formQuery (path ++ '?' :: query) = formDecode query := by
  simp only [formQuery, targetQuery_eq hpath hquery]

theorem formQuery_nil {path : List Char} (hpath : PathText path) : formQuery path = [] := by
  simp only [formQuery, targetQuery_none hpath]

theorem targetPath_append {path : List Char} (hpath : PathText path) (query : List Char) :
    targetPath (path ++ '?' :: query) = path := by
  rw [targetPath_eq, takeWhile_isPathChar_append hpath, List.takeWhile_cons_of_neg (by decide),
    List.append_nil]

theorem pathText_of_targetPath {path query : List Char}
    (h : targetPath (path ++ '?' :: query) = path) : PathText path := by
  intro c hc
  rw [← h, targetPath_eq] at hc
  exact List.mem_takeWhile_imp hc

def isValueChar (c : Char) : Bool := c ≠ '#' && c ≠ '&'

theorem takeWhile_value (value rest : List Char) :
    ((value ++ '&' :: rest).takeWhile (· ≠ '#')).takeWhile (· ≠ '&') =
      value.takeWhile isValueChar := by
  have hp : (fun c => decide (decide (c ≠ '&') = true ∧ decide (c ≠ '#') = true)) =
      isValueChar := by
    funext c
    simp [isValueChar, Bool.and_comm]
  rw [List.takeWhile_takeWhile, hp]
  by_cases hall : ∀ c ∈ value, isValueChar c = true
  · rw [List.takeWhile_append_of_pos hall, List.takeWhile_cons_of_neg (by decide),
      List.append_nil, List.takeWhile_eq_self_iff.mpr hall]
  · exact takeWhile_append_of_exists (by simpa using hall) _

/-- Raw text as the first value of a query is decoded to itself, and the pairs after it
are as intended, exactly when it is plain. -/
theorem query_raw_iff {path name rest : List Char} (value : List Char) (hpath : PathText path)
    (heq : '=' ∉ name) (hamp : '&' ∉ name) (hhash : '#' ∉ name) (hrest : '#' ∉ rest) :
    (∃ query, targetQuery (path ++ '?' :: (name ++ '=' :: (value ++ '&' :: rest))) = some query ∧
      formDecode query = (formText name, utf8 value) :: formDecode rest) ↔
    PlainFormValue value := by
  have hname : ∀ c ∈ name, decide (c ≠ '#') = true := by
    intro c hc
    simp only [ne_eq, decide_not, Bool.not_eq_true', decide_eq_false_iff_not]
    rintro rfl
    exact hhash hc
  constructor
  · rintro ⟨query, hquery, hform⟩
    rw [targetQuery_append hpath, List.takeWhile_append_of_pos hname,
      List.takeWhile_cons_of_pos (by decide)] at hquery
    obtain rfl := Option.some.inj hquery
    obtain ⟨more, hhead⟩ := formDecode_head heq hamp ((value ++ '&' :: rest).takeWhile (· ≠ '#'))
    rw [hhead, takeWhile_value] at hform
    have hvalue := congrArg Prod.snd (List.cons.inj hform).1
    dsimp only at hvalue
    have hall : ∀ c ∈ value, isValueChar c = true := by
      -- the value would be shorter than what it decodes to
      by_contra hnot
      have hshort := utf8_takeWhile_length_lt (p := isValueChar) (s := value) (by simpa using hnot)
      have hle := formText_length_le (value.takeWhile isValueChar)
      rw [hvalue] at hle
      omega
    rw [List.takeWhile_eq_self_iff.mpr hall] at hvalue
    refine ⟨fun h => ?_, fun h => ?_, (formText_eq_utf8_iff value).mp hvalue⟩
    · exact absurd (hall _ h) (by decide)
    · exact absurd (hall _ h) (by decide)
  · rintro ⟨hvhash, hvamp, hplain⟩
    have hquery : '#' ∉ name ++ '=' :: (value ++ '&' :: rest) := by
      simp only [List.mem_append, List.mem_cons, not_or]
      exact ⟨hhash, by decide, hvhash, by decide, hrest⟩
    refine ⟨_, targetQuery_eq hpath hquery, ?_⟩
    have hpiece : '&' ∉ name ++ '=' :: value := by
      simp only [List.mem_append, List.mem_cons, not_or]
      exact ⟨hamp, by decide, hvamp⟩
    have hassoc : name ++ '=' :: (value ++ '&' :: rest) =
        (name ++ '=' :: value) ++ '&' :: rest := by
      simp
    rw [hassoc, formDecode_append (by simp) hpiece, formPair_append heq,
      (formText_eq_utf8_iff value).mpr hplain]

/-- A `&` at the end of a query adds nothing to its form. -/
theorem formQuery_amp {path : List Char} (hpath : PathText path) (query : List Char) :
    formQuery (path ++ '?' :: (query ++ ['&'])) = formQuery (path ++ '?' :: query) := by
  simp only [formQuery, targetQuery_append hpath]
  by_cases hhash : ∀ c ∈ query, decide (c ≠ '#') = true
  · rw [List.takeWhile_append_of_pos hhash, List.takeWhile_eq_self_iff.mpr hhash,
      List.takeWhile_cons_of_pos (by decide), List.takeWhile_nil, formDecode_amp]
    exact List.append_nil _
  · rw [takeWhile_append_of_exists (by simpa using hhash)]

/-- Raw text as the only value of a query is decoded to itself exactly when it is plain. -/
theorem formQuery_raw_iff {path name : List Char} (value : List Char) (hpath : PathText path)
    (heq : '=' ∉ name) (hamp : '&' ∉ name) (hhash : '#' ∉ name) :
    formQuery (path ++ '?' :: (name ++ '=' :: value)) = [(formText name, utf8 value)] ↔
      PlainFormValue value := by
  have hiff := query_raw_iff value hpath heq hamp hhash (List.not_mem_nil : '#' ∉ [])
  have hassoc : name ++ '=' :: (value ++ ['&']) = (name ++ '=' :: value) ++ ['&'] := by simp
  rw [← hiff, ← formQuery_amp hpath, hassoc]
  simp only [formQuery, targetQuery_append hpath, Option.some.injEq, exists_eq_left']
  exact Iff.rfl

end PercentEncoding
