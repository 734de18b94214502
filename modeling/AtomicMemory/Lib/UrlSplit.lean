import AtomicMemory.Lib.Inet6
import AtomicMemory.Lib.PyText
import Mathlib.Data.List.DropRight

-- Python's `urlsplit` with the checks it makes of the network location, and the host name that
-- the location stands for.

open Inet PyText

namespace UrlSplit

/-- `_WHATWG_C0_CONTROL_OR_SPACE`. -/
def isC0OrSpace (c : Char) : Bool := c.toNat ≤ 0x20

/-- `_UNSAFE_URL_BYTES_TO_REMOVE`. -/
def unsafeUrlChars : List Char := ['\t', '\r', '\n']

def cleaned (url : List Char) : List Char :=
  (url.dropWhile isC0OrSpace).filter (· ∉ unsafeUrlChars)

/-- `scheme_chars`. -/
def isSchemeChar (c : Char) : Bool := c.isAlphanum || c = '+' || c = '-' || c = '.'

def splitScheme (url : List Char) : List Char × List Char :=
  match url.dropWhile (· ≠ ':') with
  | [] => ([], url)
  | _ :: rest =>
    let scheme := url.takeWhile (· ≠ ':')
    if scheme.head?.any Char.isAlpha ∧ scheme.all isSchemeChar then
      (scheme.map Char.toLower, rest)
    else ([], url)

/-- `_splitnetloc` of a text behind its `//`. -/
def splitNetloc (url : List Char) : List Char × List Char :=
  (url.takeWhile (· ∉ ['/', '?', '#']), url.dropWhile (· ∉ ['/', '?', '#']))

/-- `_check_bracketed_host`, whose pattern is `v`, hexadecimal digits, a dot and more. -/
def checkBracketedHost (u : Unicode) (hostname : List Char) : Except String Unit :=
  match hostname with
  | 'v' :: rest =>
    match rest.takeWhile (IsDigit 16 ·), rest.dropWhile (IsDigit 16 ·) with
    | _ :: _, '.' :: _ :: _ => .ok ()
    | _, _ => .error "IPvFuture address is invalid"
  | _ =>
    match ipAddress hostname with
    | some (.v6 _ _) => .ok ()
    | some (.v4 _) => .error "An IPv4 address cannot be in brackets"
    | none =>
      .error (String.ofList (repr u hostname) ++
        " does not appear to be an IPv4 or IPv6 address")

/-- What stands between the first `[` and the first `]` after it. -/
def bracketed (text : List Char) : List Char :=
  ((text.dropWhile (· ≠ '[')).drop 1).takeWhile (· ≠ ']')

def checkBrackets (u : Unicode) (netloc : List Char) : Except String Unit :=
  if ('[' ∈ netloc ∧ ']' ∉ netloc) ∨ (']' ∈ netloc ∧ '[' ∉ netloc) then
    .error "Invalid IPv6 URL"
  else if '[' ∈ netloc then checkBracketedHost u (bracketed netloc)
  else .ok ()

/-- `_checknetloc`. -/
def checkNetloc (u : Unicode) (netloc : List Char) : Except String Unit :=
  -- the delimiters that a location has of its own do not count
  let n := netloc.filter (· ∉ ['@', ':', '#', '?'])
  if IsAscii netloc then .ok ()
  else if n = u.nfkc n then .ok ()
  else if urlDelimiters.any (· ∈ u.nfkc n) then
    .error ("netloc '" ++ String.ofList netloc ++
      "' contains invalid characters under NFKC normalization")
  else .ok ()

structure SplitResult where
  scheme : List Char
  netloc : List Char
  path : List Char
  query : List Char
  fragment : List Char
  deriving DecidableEq, Repr

/-- `text.split(sep, 1)`, whose second part is empty where there is no separator. -/
def splitOnce (sep : Char) (text : List Char) : List Char × List Char :=
  (text.takeWhile (· ≠ sep), (text.dropWhile (· ≠ sep)).drop 1)

def urlsplit (u : Unicode) (url : List Char) : Except String SplitResult := do
  let (scheme, url) := splitScheme (cleaned url)
  let (netloc, url) :=
    match url with
    | '/' :: '/' :: rest => splitNetloc rest
    | _ => ([], url)
  checkBrackets u netloc
  let (url, fragment) := splitOnce '#' url
  let (path, query) := splitOnce '?' url
  checkNetloc u netloc
  .ok { scheme, netloc, path, query, fragment }

/-- The host of `_hostinfo`. -/
def hostinfo (netloc : List Char) : List Char :=
  -- behind the last `@`: the user information may hold others
  let info := netloc.rtakeWhile (· ≠ '@')
  if '[' ∈ info then bracketed info else info.takeWhile (· ≠ ':')

/-- `hostname`: the zone of a scoped address keeps its case. -/
def hostname (u : Unicode) (netloc : List Char) : Option (List Char) :=
  let host := hostinfo netloc
  if host = [] then none
  else some (u.lower (host.takeWhile (· ≠ '%')) ++ host.dropWhile (· ≠ '%'))

structure UrlFrame where
  scheme : List Char
  userinfo : Option (List Char)
  port : Option (List Char)
  rest : List Char
  scheme_head : scheme.head?.any Char.isAlpha
  scheme_chars : scheme.all isSchemeChar
  userinfo_chars : ∀ s ∈ userinfo, ∀ c ∈ s, c ∉ ['/', '?', '#', '[', ']']
  port_chars : ∀ s ∈ port, ∀ c ∈ s, c ∉ ['/', '?', '#', '[', ']', '@']
  rest_head : ∀ c ∈ rest.head?, c ∈ ['/', '?', '#']

namespace UrlFrame

/-- The user information with the `@` behind it. -/
def beforeHost (frame : UrlFrame) : List Char := frame.userinfo.elim [] (· ++ ['@'])

def afterHost (frame : UrlFrame) : List Char := frame.port.elim [] (':' :: ·)

def netloc (frame : UrlFrame) (host : List Char) : List Char :=
  frame.beforeHost ++ host ++ frame.afterHost

def text (frame : UrlFrame) (host : List Char) : List Char :=
  frame.scheme ++ "://".toList ++ frame.netloc host ++ frame.rest

def Expands (u : Unicode) (frame : UrlFrame) : Prop :=
  ∃ c ∈ (frame.beforeHost ++ frame.afterHost).filter (· ∉ ['@', ':', '#', '?']),
    ∃ d ∈ urlDelimiters, d ∈ u.nfkc [c]

end UrlFrame

/-- A host that stands for an IP address: a name without brackets, or a literal in them. -/
inductive HostText : List Char → List Char → Prop
  | name {host : List Char} : host ≠ [] → IsAscii host →
      (∀ c ∈ host, c ∉ ['/', '?', '#', '[', ']', '@', ':', '%']) →
      HostText host (host.map Char.toLower)
  | literal {addr zone : List Char} {ip : ℕ} {scopeId : Option (List Char)} :
      ipAddress (addr ++ zone) = some (.v6 ip scopeId) → IsAscii (addr ++ zone) →
      (∀ c ∈ addr ++ zone, c ∉ ['/', '?', '#', '[', ']', '@']) → '%' ∉ addr →
      (∀ c ∈ zone.head?, c = '%') → (addr ++ zone).head? ≠ some 'v' →
      HostText ('[' :: (addr ++ zone) ++ [']']) (addr.map Char.toLower ++ zone)

theorem decide_ne {x c : Char} {s : List Char} (hx : x ∉ s) (hc : c ∈ s) :
    decide (c ≠ x) = true :=
  decide_eq_true fun heq => hx (heq ▸ hc)

theorem takeWhile_ne_append {x : Char} {s rest : List Char} (hx : x ∉ s) :
    (s ++ x :: rest).takeWhile (· ≠ x) = s := by
  rw [List.takeWhile_append_of_pos fun c hc => decide_ne hx hc]
  simp

theorem dropWhile_ne_append {x : Char} {s rest : List Char} (hx : x ∉ s) :
    (s ++ x :: rest).dropWhile (· ≠ x) = x :: rest := by
  rw [List.dropWhile_append_of_pos fun c hc => decide_ne hx hc]
  simp

theorem takeWhile_ne_self {x : Char} {s : List Char} (hx : x ∉ s) :
    s.takeWhile (· ≠ x) = s :=
  List.takeWhile_eq_self_iff.mpr fun _ hc => decide_ne hx hc

theorem dropWhile_ne_self {x : Char} {s : List Char} (hx : x ∉ s) :
    s.dropWhile (· ≠ x) = [] :=
  List.dropWhile_eq_nil_iff.mpr fun _ hc => decide_ne hx hc

theorem rtakeWhile_ne_append {x : Char} {s rest : List Char} (hx : x ∉ rest) :
    (s ++ [x] ++ rest).rtakeWhile (· ≠ x) = rest := by
  have hreverse : (s ++ [x] ++ rest).reverse = rest.reverse ++ x :: s.reverse := by simp
  rw [List.rtakeWhile, hreverse, takeWhile_ne_append (mt List.mem_reverse.mp hx),
    List.reverse_reverse]

theorem rtakeWhile_ne_self {x : Char} {s : List Char} (hx : x ∉ s) :
    s.rtakeWhile (· ≠ x) = s := by
  rw [List.rtakeWhile, takeWhile_ne_self (mt List.mem_reverse.mp hx), List.reverse_reverse]

theorem bracketed_append {before inner after : List Char} (hbefore : '[' ∉ before)
    (hinner : ']' ∉ inner) :
    bracketed (before ++ ('[' :: inner ++ [']']) ++ after) = inner := by
  have hsplit : before ++ ('[' :: inner ++ [']']) ++ after =
      before ++ '[' :: (inner ++ ']' :: after) := by simp
  rw [bracketed, hsplit, dropWhile_ne_append hbefore, List.drop_one, List.tail_cons,
    takeWhile_ne_append hinner]

theorem checkBracketedHost_v6 (u : Unicode) {hostname : List Char} {ip : ℕ}
    {scopeId : Option (List Char)} (hip : ipAddress hostname = some (.v6 ip scopeId))
    (hv : hostname.head? ≠ some 'v') : checkBracketedHost u hostname = .ok () := by
  unfold checkBracketedHost
  split
  · exact absurd rfl hv
  · rw [hip]

theorem HostText.chars {host name : List Char} (h : HostText host name) :
    ∀ c ∈ host, c.toNat < 128 ∧ c ∉ ['/', '?', '#', '@'] := by
  intro c hc
  cases h with
  | name _ hascii hchars =>
    refine ⟨hascii c hc, fun hmem => hchars c hc ?_⟩
    simp only [List.mem_cons] at hmem ⊢
    tauto
  | literal _ hascii hchars _ _ _ =>
    rw [List.mem_append, List.mem_cons, List.mem_singleton] at hc
    obtain (rfl | hc) | rfl := hc
    · decide
    · refine ⟨hascii c hc, fun hmem => hchars c hc ?_⟩
      simp only [List.mem_cons] at hmem ⊢
      tauto
    · decide

section Frame

variable (u : Unicode) (frame : UrlFrame) {host name : List Char}

theorem beforeHost_chars : ∀ c ∈ frame.beforeHost, c ∉ ['/', '?', '#', '[', ']'] := by
  intro c hc
  unfold UrlFrame.beforeHost at hc
  cases huser : frame.userinfo with
  | none =>
    rw [huser] at hc
    exact absurd hc List.not_mem_nil
  | some s =>
    rw [huser] at hc
    obtain hc | hc := List.mem_append.mp hc
    · exact frame.userinfo_chars s huser c hc
    · rw [List.mem_singleton.mp hc]
      decide

theorem afterHost_chars : ∀ c ∈ frame.afterHost, c ∉ ['/', '?', '#', '[', ']', '@'] := by
  intro c hc
  unfold UrlFrame.afterHost at hc
  cases hport : frame.port with
  | none =>
    rw [hport] at hc
    exact absurd hc List.not_mem_nil
  | some s =>
    rw [hport] at hc
    obtain hc | hc := List.mem_cons.mp hc
    · rw [hc]
      decide
    · exact frame.port_chars s hport c hc

theorem netloc_chars (h : HostText host name) :
    ∀ c ∈ frame.netloc host, c ∉ ['/', '?', '#'] := by
  intro c hc hmem
  rw [UrlFrame.netloc, List.mem_append, List.mem_append] at hc
  obtain (hc | hc) | hc := hc
  · exact beforeHost_chars frame c hc (List.mem_append_left ['[', ']'] hmem)
  · exact (h.chars c hc).2 (List.mem_append_left ['@'] hmem)
  · exact afterHost_chars frame c hc (List.mem_append_left ['[', ']', '@'] hmem)

theorem splitScheme_text {s : List Char} :
    splitScheme (frame.scheme ++ ':' :: s) = (frame.scheme.map Char.toLower, s) := by
  have hcolon : ':' ∉ frame.scheme := by
    intro hmem
    have := List.all_eq_true.mp frame.scheme_chars ':' hmem
    revert this
    decide
  simp only [splitScheme, dropWhile_ne_append hcolon, takeWhile_ne_append hcolon,
    frame.scheme_head, frame.scheme_chars, and_self, if_true]

theorem splitNetloc_text (h : HostText host name) :
    splitNetloc (frame.netloc host ++ frame.rest) = (frame.netloc host, frame.rest) := by
  have hpos : ∀ c ∈ frame.netloc host, decide (c ∉ ['/', '?', '#']) = true :=
    fun c hc => decide_eq_true (netloc_chars frame h c hc)
  have hrest : frame.rest.takeWhile (· ∉ ['/', '?', '#']) = [] ∧
      frame.rest.dropWhile (· ∉ ['/', '?', '#']) = frame.rest := by
    cases hr : frame.rest with
    | nil => exact ⟨rfl, rfl⟩
    | cons c rest =>
      have hc : c ∈ ['/', '?', '#'] := frame.rest_head c (by rw [hr]; rfl)
      simp only [List.takeWhile_cons, List.dropWhile_cons, hc, not_true_eq_false, decide_false]
      exact ⟨rfl, rfl⟩
  rw [splitNetloc, List.takeWhile_append_of_pos hpos, List.dropWhile_append_of_pos hpos, hrest.1,
    hrest.2, List.append_nil]

theorem checkBrackets_netloc (h : HostText host name) :
    checkBrackets u (frame.netloc host) = .ok () := by
  have hbefore : '[' ∉ frame.beforeHost ∧ ']' ∉ frame.beforeHost :=
    ⟨fun hc => beforeHost_chars frame _ hc (by decide),
      fun hc => beforeHost_chars frame _ hc (by decide)⟩
  have hafter : '[' ∉ frame.afterHost ∧ ']' ∉ frame.afterHost :=
    ⟨fun hc => afterHost_chars frame _ hc (by decide),
      fun hc => afterHost_chars frame _ hc (by decide)⟩
  cases h with
  | name _ _ hchars =>
    have hhost : '[' ∉ host ∧ ']' ∉ host :=
      ⟨fun hc => hchars _ hc (by decide), fun hc => hchars _ hc (by decide)⟩
    simp [checkBrackets, UrlFrame.netloc, hbefore, hafter, hhost]
  | @literal addr zone ip scopeId hip _ hchars _ _ hv =>
    have hinner : ']' ∉ addr ++ zone := fun hc => hchars _ hc (by decide)
    have hopen : '[' ∈ frame.netloc ('[' :: (addr ++ zone) ++ [']']) := by
      simp [UrlFrame.netloc]
    have hclose : ']' ∈ frame.netloc ('[' :: (addr ++ zone) ++ [']']) := by
      simp [UrlFrame.netloc]
    have hbracketed : bracketed (frame.netloc ('[' :: (addr ++ zone) ++ [']'])) = addr ++ zone :=
      bracketed_append hbefore.1 hinner
    simp only [checkBrackets, hopen, hclose, hbracketed, not_true_eq_false, and_false, or_self,
      if_false, if_true]
    exact checkBracketedHost_v6 u hip hv

theorem hostinfo_netloc {inner : List Char} (hhost : '@' ∉ host)
    (hinner : (if '[' ∈ host ++ frame.afterHost then bracketed (host ++ frame.afterHost)
      else (host ++ frame.afterHost).takeWhile (· ≠ ':')) = inner) :
    hostinfo (frame.netloc host) = inner := by
  have hat : '@' ∉ host ++ frame.afterHost := by
    intro hmem
    obtain hmem | hmem := List.mem_append.mp hmem
    · exact hhost hmem
    · exact afterHost_chars frame _ hmem (by decide)
  have hinfo : (frame.netloc host).rtakeWhile (· ≠ '@') = host ++ frame.afterHost := by
    rw [UrlFrame.netloc, List.append_assoc]
    unfold UrlFrame.beforeHost
    cases frame.userinfo with
    | none => exact rtakeWhile_ne_self hat
    | some s => exact rtakeWhile_ne_append hat
  rw [hostinfo]
  simp only [hinfo]
  exact hinner

theorem hostinfo_name (hhost : ∀ c ∈ host, c ∉ ['/', '?', '#', '[', ']', '@', ':', '%']) :
    hostinfo (frame.netloc host) = host := by
  have hopen : '[' ∉ host ++ frame.afterHost := by
    intro hmem
    obtain hmem | hmem := List.mem_append.mp hmem
    · exact hhost _ hmem (by decide)
    · exact afterHost_chars frame _ hmem (by decide)
  have hcolon : ':' ∉ host := fun hc => hhost _ hc (by decide)
  have htake : (host ++ frame.afterHost).takeWhile (· ≠ ':') = host := by
    unfold UrlFrame.afterHost
    cases frame.port with
    | none => exact (congrArg _ (List.append_nil host)).trans (takeWhile_ne_self hcolon)
    | some s => exact takeWhile_ne_append hcolon
  have hat : '@' ∉ host := fun hc => hhost _ hc (by decide)
  exact hostinfo_netloc frame hat (by rw [if_neg hopen, htake])

theorem hostinfo_literal {inner : List Char}
    (hinner : ∀ c ∈ inner, c ∉ ['/', '?', '#', '[', ']', '@']) :
    hostinfo (frame.netloc ('[' :: inner ++ [']'])) = inner := by
  have hclose : ']' ∉ inner := fun hc => hinner _ hc (by decide)
  have hopen : '[' ∈ ('[' :: inner ++ [']']) ++ frame.afterHost := by simp
  have hbracketed : bracketed (('[' :: inner ++ [']']) ++ frame.afterHost) = inner :=
    bracketed_append List.not_mem_nil hclose
  have hat : '@' ∉ '[' :: inner ++ [']'] := by
    have := fun hc => hinner '@' hc (by decide)
    simpa using this
  exact hostinfo_netloc frame hat (by rw [if_pos hopen, hbracketed])

theorem hostname_netloc (h : HostText host name) :
    hostname u (frame.netloc host) = some name := by
  cases h with
  | name hne hascii hchars =>
    have hpercent : '%' ∉ host := fun hc => hchars _ hc (by decide)
    simp only [hostname, hostinfo_name frame hchars, if_neg hne, takeWhile_ne_self hpercent,
      dropWhile_ne_self hpercent, List.append_nil, u.lower_ascii host hascii]
  | @literal addr zone ip scopeId hip hascii hchars hpercent hzone _ =>
    have hne : addr ++ zone ≠ [] := by
      intro hnil
      have hnone : ipAddress [] = none := by decide
      rw [hnil, hnone] at hip
      cases hip
    have hascii' : IsAscii addr := fun c hc => hascii c (List.mem_append_left zone hc)
    -- a zone keeps its case
    have hsplit : (addr ++ zone).takeWhile (· ≠ '%') = addr ∧
        (addr ++ zone).dropWhile (· ≠ '%') = zone := by
      cases zone with
      | nil =>
        rw [List.append_nil]
        exact ⟨takeWhile_ne_self hpercent, dropWhile_ne_self hpercent⟩
      | cons c zone =>
        rw [hzone c rfl]
        exact ⟨takeWhile_ne_append hpercent, dropWhile_ne_append hpercent⟩
    simp only [hostname, hostinfo_literal frame hchars, if_neg hne, hsplit,
      u.lower_ascii addr hascii']

theorem exists_mem_nfkc (s : List Char) :
    (∃ c ∈ s, ∃ d ∈ urlDelimiters, d ∈ u.nfkc [c]) ↔ ∃ d ∈ urlDelimiters, d ∈ u.nfkc s := by
  constructor
  · rintro ⟨c, hc, d, hd, hmem⟩
    exact ⟨d, hd, (u.mem_nfkc _ d hd).mpr ⟨c, hc, hmem⟩⟩
  · rintro ⟨d, hd, hmem⟩
    obtain ⟨c, hc, hmem⟩ := (u.mem_nfkc _ d hd).mp hmem
    exact ⟨c, hc, d, hd, hmem⟩

theorem not_delimiter_of_nfkc_eq {netloc : List Char} (hslash : '/' ∉ netloc)
    (heq : netloc.filter (· ∉ ['@', ':', '#', '?']) =
      u.nfkc (netloc.filter (· ∉ ['@', ':', '#', '?']))) :
    ¬∃ d ∈ urlDelimiters, d ∈ u.nfkc (netloc.filter (· ∉ ['@', ':', '#', '?'])) := by
  rintro ⟨d, hd, hmem⟩
  rw [← heq, List.mem_filter] at hmem
  have hd' : d ≠ '/' := fun h => hslash (h ▸ hmem.1)
  have hnot := of_decide_eq_true hmem.2
  simp only [List.mem_cons, urlDelimiters] at hnot hd
  tauto

/-- `_checknetloc` refuses a location with a character that NFKC makes a delimiter of. -/
theorem checkNetloc_ok {netloc : List Char} (hslash : '/' ∉ netloc) :
    checkNetloc u netloc = .ok () ↔
      ¬∃ c ∈ netloc.filter (· ∉ ['@', ':', '#', '?']), ∃ d ∈ urlDelimiters, d ∈ u.nfkc [c] := by
  rw [exists_mem_nfkc]
  unfold checkNetloc
  dsimp only
  split
  · rename_i hascii
    have hascii' : IsAscii (netloc.filter (· ∉ ['@', ':', '#', '?'])) :=
      fun c hc => hascii c (List.mem_of_mem_filter hc)
    exact iff_of_true rfl (not_delimiter_of_nfkc_eq u hslash (u.nfkc_ascii _ hascii').symm)
  · split
    · rename_i heq
      exact iff_of_true rfl (not_delimiter_of_nfkc_eq u hslash heq)
    · split
      · rename_i hany
        obtain ⟨d, hd, hmem⟩ := List.any_eq_true.mp hany
        exact iff_of_false (fun h => by cases h) (not_not.mpr ⟨d, hd, of_decide_eq_true hmem⟩)
      · rename_i hany
        refine iff_of_true rfl ?_
        rintro ⟨d, hd, hmem⟩
        exact hany (List.any_eq_true.mpr ⟨d, hd, decide_eq_true hmem⟩)

theorem checkNetloc_netloc (h : HostText host name) :
    checkNetloc u (frame.netloc host) = .ok () ↔ ¬frame.Expands u := by
  have hslash : '/' ∉ frame.netloc host := fun hc => netloc_chars frame h _ hc (by decide)
  rw [checkNetloc_ok u hslash]
  apply not_congr
  unfold UrlFrame.Expands UrlFrame.netloc
  simp only [List.filter_append, List.mem_append]
  constructor
  · rintro ⟨c, (hc | hc) | hc, d, hd, hmem⟩
    · exact ⟨c, .inl hc, d, hd, hmem⟩
    · exfalso
      obtain ⟨hc, hnot⟩ := List.mem_filter.mp hc
      have hascii : IsAscii [c] := by
        intro c' hc'
        rw [List.mem_singleton.mp hc']
        exact (h.chars c hc).1
      rw [u.nfkc_ascii _ hascii, List.mem_singleton] at hmem
      subst hmem
      have := (h.chars d hc).2
      simp only [decide_eq_true_eq, List.mem_cons, urlDelimiters] at hnot hd this
      tauto
    · exact ⟨c, .inr hc, d, hd, hmem⟩
  · rintro ⟨c, hc | hc, d, hd, hmem⟩
    · exact ⟨c, .inl (.inl hc), d, hd, hmem⟩
    · exact ⟨c, .inr hc, d, hd, hmem⟩

/-- A URL is split at its host wherever NFKC leaves the rest of the location alone. -/
theorem urlsplit_text {url : List Char} (hurl : cleaned url = frame.text host)
    (h : HostText host name) :
    (¬frame.Expands u → ∃ p, urlsplit u url = .ok p ∧
      p.scheme = frame.scheme.map Char.toLower ∧ p.netloc = frame.netloc host) ∧
    (frame.Expands u → ∃ e, urlsplit u url = .error e) := by
  have htext : frame.text host =
      frame.scheme ++ ':' :: '/' :: '/' :: (frame.netloc host ++ frame.rest) := by
    simp [UrlFrame.text]
  have hcheck := checkNetloc_netloc u frame h
  unfold urlsplit
  simp only [hurl, htext, splitScheme_text, splitNetloc_text frame h,
    checkBrackets_netloc u frame h]
  constructor
  · intro hexp
    rw [hcheck.mpr hexp]
    exact ⟨_, rfl, rfl, rfl⟩
  · intro hexp
    cases hnetloc : checkNetloc u (frame.netloc host) with
    | ok =>
      rw [hnetloc] at hcheck
      exact absurd hexp (hcheck.mp rfl)
    | error e => exact ⟨e, rfl⟩

end Frame

end UrlSplit
