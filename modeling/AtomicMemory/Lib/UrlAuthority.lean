import AtomicMemory.Lib.Raises
import AtomicMemory.Lib.UrlSplit

-- The scheme and the network location that `urlsplit` finds, and when they stay what they are
-- with more text behind the URL.

open PyText

namespace UrlSplit

def stops : List Char := ['/', '?', '#']

structure Located (text scheme netloc tail : List Char) : Prop where
  spelled : ∃ raw, text = raw ++ ':' :: '/' :: '/' :: (netloc ++ tail) ∧
    raw.head?.any Char.isAlpha ∧ raw.all isSchemeChar ∧ raw.map Char.toLower = scheme
  netloc_chars : ∀ c ∈ netloc, c ∉ stops
  tail_head : ∀ c ∈ tail.head?, c ∈ stops

def Delimited (text : List Char) : Prop := ∀ c ∈ text.head?, c ∈ stops

instance : (text : List Char) → Decidable (Delimited text)
  | [] => isTrue fun c hc => by cases hc
  | c :: _ => decidable_of_iff (c ∈ stops) ⟨fun h d hd => Option.some.inj hd ▸ h, fun h => h c rfl⟩

theorem splitScheme_append {raw rest : List Char} (hhead : raw.head?.any Char.isAlpha)
    (hall : raw.all isSchemeChar) :
    splitScheme (raw ++ ':' :: rest) = (raw.map Char.toLower, rest) := by
  have hcolon : ':' ∉ raw := by
    intro hmem
    have hchar := List.all_eq_true.mp hall ':' hmem
    revert hchar
    decide
  simp only [splitScheme, dropWhile_ne_append hcolon, takeWhile_ne_append hcolon, hhead, hall,
    and_self, if_true]

theorem splitNetloc_append {netloc tail : List Char} (hnetloc : ∀ c ∈ netloc, c ∉ stops)
    (htail : Delimited tail) : splitNetloc (netloc ++ tail) = (netloc, tail) := by
  have hpos : ∀ c ∈ netloc, decide (c ∉ stops) = true := fun c hc => decide_eq_true (hnetloc c hc)
  have hstop : tail.takeWhile (· ∉ stops) = [] ∧ tail.dropWhile (· ∉ stops) = tail := by
    cases tail with
    | nil => exact ⟨rfl, rfl⟩
    | cons c tail =>
      have hc : c ∈ stops := htail c rfl
      simp only [List.takeWhile_cons, List.dropWhile_cons, hc, not_true_eq_false, decide_false]
      exact ⟨rfl, rfl⟩
  show ((netloc ++ tail).takeWhile (· ∉ stops), (netloc ++ tail).dropWhile (· ∉ stops)) = _
  rw [List.takeWhile_append_of_pos hpos, List.dropWhile_append_of_pos hpos, hstop.1, hstop.2,
    List.append_nil]

section

variable {text scheme netloc tail : List Char}

theorem Located.read (h : Located text scheme netloc tail) :
    splitScheme text = (scheme, '/' :: '/' :: (netloc ++ tail)) ∧
      splitNetloc (netloc ++ tail) = (netloc, tail) := by
  obtain ⟨raw, rfl, hhead, hall, rfl⟩ := h.spelled
  exact ⟨splitScheme_append hhead hall, splitNetloc_append h.netloc_chars h.tail_head⟩

theorem Located.unique (h : Located text scheme netloc tail) {scheme' netloc' tail' : List Char}
    (h' : Located text scheme' netloc' tail') :
    scheme' = scheme ∧ netloc' = netloc ∧ tail' = tail := by
  have hscheme := h.read.1.symm.trans h'.read.1
  simp only [Prod.mk.injEq, List.cons.injEq, true_and] at hscheme
  have hnetloc := h.read.2
  rw [hscheme.2, h'.read.2] at hnetloc
  exact ⟨hscheme.1.symm, congrArg Prod.fst hnetloc, congrArg Prod.snd hnetloc⟩

/-- `urlsplit` reads nothing but the location before it accepts a URL. -/
theorem Located.urlsplit {url : List Char} (h : Located (cleaned url) scheme netloc tail)
    (u : Unicode) :
    (∃ p, urlsplit u url = .ok p) ↔
      checkBrackets u netloc = .ok () ∧ checkNetloc u netloc = .ok () := by
  unfold UrlSplit.urlsplit
  simp only [h.read.1, h.read.2]
  cases checkBrackets u netloc with
  | error e => exact iff_of_false (fun hok => by cases hok.choose_spec) fun hok => by cases hok.1
  | ok =>
    cases checkNetloc u netloc with
    | error e => exact iff_of_false (fun hok => by cases hok.choose_spec) fun hok => by cases hok.2
    | ok => exact iff_of_true ⟨_, rfl⟩ ⟨rfl, rfl⟩

theorem Located.urlsplit_ok {url : List Char} (h : Located (cleaned url) scheme netloc tail)
    {u : Unicode} {p : SplitResult} (hp : UrlSplit.urlsplit u url = .ok p) :
    p.scheme = scheme ∧ p.netloc = netloc := by
  obtain ⟨hbrackets, hnetloc⟩ := (h.urlsplit u).mp ⟨p, hp⟩
  unfold UrlSplit.urlsplit at hp
  simp only [h.read.1, h.read.2, hbrackets, hnetloc] at hp
  cases hp
  exact ⟨rfl, rfl⟩

end

theorem splitScheme_some {text : List Char} (h : (splitScheme text).1 ≠ []) :
    ∃ raw, text = raw ++ ':' :: (splitScheme text).2 ∧ raw.head?.any Char.isAlpha ∧
      raw.all isSchemeChar ∧ raw.map Char.toLower = (splitScheme text).1 := by
  have hsplit := List.takeWhile_append_dropWhile (p := fun c => decide (c ≠ ':')) (l := text)
  unfold splitScheme at h ⊢
  cases hdrop : text.dropWhile (· ≠ ':') with
  | nil =>
    rw [hdrop] at h
    exact absurd rfl h
  | cons c rest =>
    have hc : c = ':' := by
      have hhead := List.head?_dropWhile_not (fun c => decide (c ≠ ':')) text
      rw [hdrop] at hhead
      simpa using hhead
    simp only [hdrop] at h ⊢
    split
    · rename_i hscheme
      refine ⟨text.takeWhile (· ≠ ':'), ?_, hscheme.1, hscheme.2, rfl⟩
      rw [hdrop, hc] at hsplit
      exact hsplit.symm
    · rename_i hscheme
      rw [if_neg hscheme] at h
      exact absurd rfl h

theorem located_of_urlsplit {u : Unicode} {url : List Char} {p : SplitResult}
    (h : urlsplit u url = .ok p) (hscheme : p.scheme ≠ []) (hnetloc : p.netloc ≠ []) :
    ∃ tail, Located (cleaned url) p.scheme p.netloc tail := by
  unfold urlsplit at h
  have hread : p.scheme = (splitScheme (cleaned url)).1 ∧ ∃ rest,
      (splitScheme (cleaned url)).2 = '/' :: '/' :: rest ∧ p.netloc = (splitNetloc rest).1 := by
    generalize splitScheme (cleaned url) = split at h
    obtain ⟨scheme, text⟩ := split
    dsimp only at h ⊢
    split at h
    · rename_i rest
      obtain ⟨_, -, h⟩ := Except.bind_ok h
      obtain ⟨_, -, h⟩ := Except.bind_ok h
      cases h
      exact ⟨rfl, rest, rfl, rfl⟩
    · obtain ⟨_, -, h⟩ := Except.bind_ok h
      obtain ⟨_, -, h⟩ := Except.bind_ok h
      cases h
      exact absurd rfl hnetloc
  obtain ⟨hs, rest, hrest, hn⟩ := hread
  rw [hs] at hscheme
  obtain ⟨raw, htext, hhead, hall, hlower⟩ := splitScheme_some hscheme
  refine ⟨(splitNetloc rest).2, ⟨raw, ?_, hhead, hall, hlower.trans hs.symm⟩, ?_, ?_⟩
  · rw [hn]
    show cleaned url = raw ++ ':' :: '/' :: '/' ::
      (rest.takeWhile (· ∉ stops) ++ rest.dropWhile (· ∉ stops))
    rw [List.takeWhile_append_dropWhile, ← hrest]
    exact htext
  · intro c hc
    rw [hn] at hc
    exact of_decide_eq_true (List.mem_takeWhile_imp (p := fun c => decide (c ∉ stops)) hc)
  · intro c hc
    have hstop := List.head?_dropWhile_not (fun c => decide (c ∉ stops)) rest
    have hc' : (rest.dropWhile (fun c => decide (c ∉ stops))).head? = some c := hc
    rw [hc'] at hstop
    simpa using hstop

section

variable {text scheme netloc tail : List Char}

/-- Text behind a location that has ended, or that ends it, leaves it as it is. -/
theorem Located.append (h : Located text scheme netloc tail) {more : List Char}
    (hmore : tail ≠ [] ∨ Delimited more) : Located (text ++ more) scheme netloc (tail ++ more) := by
  obtain ⟨raw, rfl, hhead, hall, hlower⟩ := h.spelled
  refine ⟨⟨raw, by simp, hhead, hall, hlower⟩, h.netloc_chars, ?_⟩
  cases htail : tail with
  | nil => exact hmore.resolve_left (not_not.mpr htail)
  | cons c tail' => exact fun d hd => h.tail_head d (by rw [htail]; exact hd)

theorem Located.append_nil (h : Located text scheme netloc []) (more : List Char) :
    Located (text ++ more) scheme (netloc ++ more.takeWhile (· ∉ stops))
      (more.dropWhile (· ∉ stops)) := by
  obtain ⟨raw, rfl, hhead, hall, hlower⟩ := h.spelled
  refine ⟨⟨raw, ?_, hhead, hall, hlower⟩, ?_, ?_⟩
  · rw [List.append_assoc netloc, List.takeWhile_append_dropWhile]
    simp
  · intro c hc
    rcases List.mem_append.mp hc with hc | hc
    · exact h.netloc_chars c hc
    · exact of_decide_eq_true (List.mem_takeWhile_imp (p := fun c => decide (c ∉ stops)) hc)
  · intro c hc
    have hstop := List.head?_dropWhile_not (fun c => decide (c ∉ stops)) more
    have hc' : (more.dropWhile (fun c => decide (c ∉ stops))).head? = some c := hc
    rw [hc'] at hstop
    simpa using hstop

theorem Located.append_iff (h : Located text scheme netloc tail) (more : List Char) :
    (∃ tail', Located (text ++ more) scheme netloc tail') ↔ tail ≠ [] ∨ Delimited more := by
  constructor
  · rintro ⟨tail', h'⟩
    by_contra hnot
    obtain ⟨htail, hmore⟩ := not_or.mp hnot
    obtain rfl := not_not.mp htail
    obtain ⟨-, hnetloc, -⟩ := (h.append_nil more).unique h'
    have hnil : more.takeWhile (· ∉ stops) = [] := by
      have hlength := congrArg List.length hnetloc
      rw [List.length_append] at hlength
      exact List.eq_nil_of_length_eq_zero (by omega)
    apply hmore
    intro c hc
    cases more with
    | nil => cases hc
    | cons d more =>
      obtain rfl := Option.some.inj hc
      by_contra hd
      rw [List.takeWhile_cons_of_pos (by simpa using hd)] at hnil
      cases hnil
  · intro hmore
    exact ⟨tail ++ more, h.append hmore⟩

theorem Located.of_append_slash (h : Located (text ++ ['/']) scheme netloc tail)
    (hne : netloc ≠ []) : ∃ tail', Located text scheme netloc tail' := by
  obtain ⟨raw, htext, hhead, hall, hlower⟩ := h.spelled
  cases tail using List.reverseRecOn with
  | nil =>
    -- the slash would be of the location itself
    cases netloc using List.reverseRecOn with
    | nil => exact absurd rfl hne
    | append_singleton netloc c =>
      have hassoc : raw ++ ':' :: '/' :: '/' :: (netloc ++ [c] ++ []) =
          raw ++ ':' :: '/' :: '/' :: netloc ++ [c] := by
        simp
      rw [hassoc] at htext
      obtain ⟨-, hc⟩ := List.append_inj' htext rfl
      have hstop : c ∈ stops := by
        rw [← List.singleton_inj.mp hc]
        decide
      exact absurd hstop (h.netloc_chars c (by simp))
  | append_singleton tail' c =>
    have hassoc : raw ++ ':' :: '/' :: '/' :: (netloc ++ (tail' ++ [c])) =
        raw ++ ':' :: '/' :: '/' :: (netloc ++ tail') ++ [c] := by
      simp
    rw [hassoc] at htext
    obtain ⟨htext, -⟩ := List.append_inj' htext rfl
    refine ⟨tail', ⟨raw, htext, hhead, hall, hlower⟩, h.netloc_chars, fun d hd => ?_⟩
    cases tail' with
    | nil => cases hd
    | cons e tail' => exact h.tail_head d hd

theorem Located.of_append_slashes {n : ℕ}
    (h : Located (text ++ List.replicate n '/') scheme netloc tail) (hne : netloc ≠ []) :
    ∃ tail', Located text scheme netloc tail' := by
  induction n generalizing tail with
  | zero => exact ⟨tail, by simpa using h⟩
  | succ n ih =>
    rw [List.replicate_succ', ← List.append_assoc] at h
    obtain ⟨tail', h'⟩ := h.of_append_slash hne
    exact ih h'

end

/-- What `urlsplit` leaves of text behind the beginning of a URL. -/
def safeText (text : List Char) : List Char := text.filter (· ∉ unsafeUrlChars)

theorem cleaned_append {text : List Char} (h : cleaned text ≠ []) (more : List Char) :
    cleaned (text ++ more) = cleaned text ++ safeText more := by
  have hne : text.dropWhile isC0OrSpace ≠ [] := by
    intro hnil
    apply h
    rw [cleaned, hnil]
    rfl
  rw [cleaned, List.dropWhile_append, if_neg (by simpa using hne), List.filter_append]
  rfl

theorem mem_of_mem_cleaned {c : Char} {text : List Char} (h : c ∈ cleaned text) : c ∈ text :=
  (List.dropWhile_sublist _).subset (List.mem_filter.mp h).1

theorem mem_cleaned {c : Char} {text : List Char} (h : c ∈ text) (hspace : isC0OrSpace c = false)
    (hsafe : c ∉ unsafeUrlChars) : c ∈ cleaned text := by
  apply List.mem_filter.mpr
  refine ⟨?_, decide_eq_true hsafe⟩
  rw [← List.takeWhile_append_dropWhile (p := isC0OrSpace) (l := text)] at h
  rcases List.mem_append.mp h with h | h
  · have htake := List.mem_takeWhile_imp h
    rw [hspace] at htake
    cases htake
  · exact h

theorem Located.ne_nil {text scheme netloc tail : List Char}
    (h : Located text scheme netloc tail) : text ≠ [] := by
  obtain ⟨raw, rfl, -⟩ := h.spelled
  simp

end UrlSplit
