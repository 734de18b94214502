import AtomicMemory.Lib.Inet
import Mathlib.Data.List.Basic
import Mathlib.Data.List.Induction
import Mathlib.Data.List.TakeWhile

-- Python's reader of IPv6 addresses, and the addresses that hold an IPv4 address. `Ipv6Text`
-- is the grammar of the literals on its own: eight groups of four hexadecimal digits at most,
-- the last two of which may be written as a dotted quad, and one run of zero groups as `::`.
-- The reader gives every text of the grammar its groups.

namespace Inet

/-- `_parse_hextet`. -/
def parseHextet (hextet : List Char) : Option ℕ :=
  if ¬AllDigits 16 hextet then none
  else if hextet.length > 4 then none
  else if hextet = [] then none
  else some (numeral 16 hextet)

/-- `'%x' % n`. -/
def hexText (n : ℕ) : List Char := Nat.toDigits 16 n

def expandSuffix (parts : List (List Char)) : Option (List (List Char)) :=
  match parts.getLast? with
  | some last =>
    if '.' ∈ last then
      (ipv4Address last).map fun a =>
        parts.dropLast ++ [hexText (a.val >>> 16 &&& 0xffff), hexText (a.val &&& 0xffff)]
    else some parts
  | none => some parts

/-- The index of the empty part among the parts between the ends. Two are refused. -/
def skipIndex : (i : ℕ) → (interior : List (List Char)) → (skip : Option ℕ) →
    Option (Option ℕ)
  | _, [], skip => some skip
  | i, part :: interior, skip =>
    if part = [] then
      match skip with
      | some _ => none
      | none => skipIndex (i + 1) interior (some i)
    else skipIndex (i + 1) interior skip

/-- How many of the `n` parts on one side of `::` are groups: an empty end has to be all. -/
def countEnd (n : ℕ) (isEmpty : Bool) : Option ℕ :=
  if isEmpty then (if n - 1 = 0 then some 0 else none) else some n

/-- `parts_hi`, `parts_skipped` and `parts_lo`. -/
def layout (parts : List (List Char)) : Option (ℕ × ℕ × ℕ) := do
  match ← skipIndex 1 (parts.drop 1).dropLast none with
  | some skip =>
    let hi ← countEnd skip (parts.head? = some [])
    let lo ← countEnd (parts.length - skip - 1) (parts.getLast? = some [])
    if 8 < hi + lo + 1 then none else some (hi, 8 - (hi + lo), lo)
  | none =>
    if parts.length ≠ 8 then none
    else if parts.head? = some [] then none
    else if parts.getLast? = some [] then none
    else some (8, 0, 0)

def shiftIn (ip : ℕ) (parts : List (List Char)) : Option ℕ :=
  parts.foldlM (fun ip part => (parseHextet part).map fun h => ip <<< 16 ||| h) ip

/-- `_ip_int_from_string` of an IPv6 address. -/
def ipv6IntFromString (text : List Char) : Option ℕ := do
  if text = [] then none
  let parts := text.splitOn ':'
  if parts.length < 3 then none
  let parts ← expandSuffix parts
  if parts.length > 9 then none
  let (hi, skipped, lo) ← layout parts
  let ip ← shiftIn 0 (parts.take hi)
  shiftIn (ip <<< (16 * skipped)) (parts.drop (parts.length - lo))

/-- `_split_scope_id`. -/
def splitScopeId (text : List Char) : Option (List Char × Option (List Char)) :=
  match text.dropWhile (· ≠ '%') with
  | [] => some (text, none)
  | _ :: scopeId =>
    if scopeId = [] ∨ '%' ∈ scopeId then none
    else some (text.takeWhile (· ≠ '%'), some scopeId)

inductive IpAddress
  | v4 (ip : Ipv4)
  | v6 (ip : ℕ) (scopeId : Option (List Char))
  deriving DecidableEq, Repr

/-- `IPv6Address` of a text. -/
def ipv6Address (text : List Char) : Option IpAddress := do
  if '/' ∈ text then none
  let (addr, scopeId) ← splitScopeId text
  let ip ← ipv6IntFromString addr
  some (.v6 ip scopeId)

/-- `ip_address`. -/
def ipAddress (text : List Char) : Option IpAddress :=
  match ipv4Address text with
  | some a => some (.v4 a)
  | none => ipv6Address text

/-- The attribute `ipv4_mapped`, which an IPv4 address does not have. -/
def ipv4Mapped : IpAddress → Option Ipv4
  | .v4 _ => none
  | .v6 ip _ =>
    if ip >>> 32 ≠ 0xffff then none
    else some ⟨ip &&& 0xffffffff, Nat.and_lt_two_pow ip (by decide : 0xffffffff < 2 ^ 32)⟩

structure IsGroup (g : List Char) : Prop where
  ne_nil : g ≠ []
  length_le : g.length ≤ 4
  digits : AllDigits 16 g

inductive GroupsText : List (List Char) → List ℕ → Prop
  | nil : GroupsText [] []
  | group {g : List Char} {ps : List (List Char)} {vs : List ℕ} : IsGroup g → GroupsText ps vs →
      GroupsText (g :: ps) (numeral 16 g :: vs)
  | quad (a : Ipv4) : GroupsText [dottedQuad a] [a / 2 ^ 16, a % 2 ^ 16]

inductive Ipv6Text : List Char → List ℕ → Prop
  | full {ps : List (List Char)} {vs : List ℕ} : GroupsText ps vs → vs.length = 8 →
      Ipv6Text ([':'].intercalate ps) vs
  | compressed {hi lo : List (List Char)} {vs : List ℕ} : (∀ g ∈ hi, IsGroup g) →
      GroupsText lo vs → hi.length + vs.length < 8 →
      Ipv6Text ([':'].intercalate hi ++ ':' :: ':' :: [':'].intercalate lo)
        (hi.map (numeral 16) ++ List.replicate (8 - (hi.length + vs.length)) 0 ++ vs)

def groupsValue (vs : List ℕ) : ℕ := vs.foldl (fun n v => n * 2 ^ 16 + v) 0

theorem IsGroup.not_mem {g : List Char} (hg : IsGroup g) {c : Char} (hc : ¬IsDigit 16 c) :
    c ∉ g :=
  fun hmem => hc (hg.digits c hmem)

theorem parseHextet_eq {g : List Char} (hg : IsGroup g) :
    parseHextet g = some (numeral 16 g) := by
  have hlen : ¬g.length > 4 := Nat.not_lt_of_le hg.length_le
  rw [parseHextet, if_neg (not_not.mpr hg.digits), if_neg hlen, if_neg hg.ne_nil]

theorem numeral_lt {b : ℕ} {ds : List Char} (hds : AllDigits b ds) :
    numeral b ds < b ^ ds.length := by
  induction ds using List.reverseRecOn with
  | nil => exact Nat.one_pos
  | append_singleton ds c ih =>
    have hlt : numeral b ds < b ^ ds.length :=
      ih fun d hd => hds d (List.mem_append_left [c] hd)
    have hc : digitValue c < b := hds c (by simp)
    calc numeral b (ds ++ [c]) = b * numeral b ds + digitValue c :=
          numeral_append_singleton b ds c
      _ < b * numeral b ds + b := Nat.add_lt_add_left hc _
      _ = b * (numeral b ds + 1) := (Nat.mul_succ _ _).symm
      _ ≤ b * b ^ ds.length := Nat.mul_le_mul_left b hlt
      _ = b ^ (ds ++ [c]).length := by rw [← pow_succ', List.length_append, List.length_singleton]

theorem IsGroup.numeral_lt {g : List Char} (hg : IsGroup g) : numeral 16 g < 2 ^ 16 :=
  calc numeral 16 g < 16 ^ g.length := Inet.numeral_lt hg.digits
    _ ≤ 16 ^ 4 := Nat.pow_le_pow_right (by decide) hg.length_le

theorem isGroup_hexText {n : ℕ} (hn : n < 2 ^ 16) : IsGroup (hexText n) where
  ne_nil := Nat.toDigits_ne_nil
  length_le := (Nat.length_toDigits_le_iff (by decide) (by decide)).mpr hn
  digits := allDigits_toDigits (by decide) (by decide) n

theorem numeral_hexText (n : ℕ) : numeral 16 (hexText n) = n :=
  numeral_toDigits (by decide) (by decide) n

theorem shiftIn_eq {gs : List (List Char)} (hgs : ∀ g ∈ gs, IsGroup g) (ip : ℕ) :
    shiftIn ip gs = some ((gs.map (numeral 16)).foldl (fun n v => n * 2 ^ 16 + v) ip) := by
  induction gs generalizing ip with
  | nil => rfl
  | cons g gs ih =>
    have hg := hgs g List.mem_cons_self
    have hor : ip <<< 16 ||| numeral 16 g = ip * 2 ^ 16 + numeral 16 g := by
      rw [← Nat.shiftLeft_add_eq_or_of_lt hg.numeral_lt, Nat.shiftLeft_eq]
    have hgs' := ih (fun g' hg' => hgs g' (List.mem_cons_of_mem g hg')) (ip * 2 ^ 16 + numeral 16 g)
    rw [shiftIn, List.foldlM_cons, parseHextet_eq hg, Option.map_some, hor]
    exact hgs'

theorem foldl_zeros (k n : ℕ) :
    (List.replicate k 0).foldl (fun n v => n * 2 ^ 16 + v) n = n <<< (16 * k) := by
  induction k generalizing n with
  | zero => simp
  | succ k ih =>
    rw [List.replicate_succ, List.foldl_cons, ih, Nat.add_zero, Nat.shiftLeft_eq, Nat.shiftLeft_eq,
      Nat.mul_succ, pow_add, pow_mul]
    ring

/-- The parts on one side of `::`. -/
def ends (ps : List (List Char)) : List (List Char) := if ps = [] then [[]] else ps

theorem splitOn_groups {ps : List (List Char)} (hps : ∀ p ∈ ps, ':' ∉ p) :
    ([':'].intercalate ps).splitOn ':' = ends ps := by
  by_cases hnil : ps = []
  · subst hnil
    rfl
  · rw [ends, if_neg hnil, List.splitOn_intercalate ':' hps hnil]

theorem splitOn_compressed {hi lo : List (List Char)} (hhi : ∀ p ∈ hi, ':' ∉ p)
    (hlo : ∀ p ∈ lo, ':' ∉ p) :
    ([':'].intercalate hi ++ ':' :: ':' :: [':'].intercalate lo).splitOn ':' =
      ends hi ++ [] :: ends lo := by
  have hcolon : (':' :: [':'].intercalate lo).splitOn ':' = [] :: ends lo := by
    rw [← splitOn_groups hlo]
    exact List.splitOn_append_cons_self [] _
  rw [List.splitOn_append_cons_self, splitOn_groups hhi, hcolon]

theorem GroupsText.not_mem_colon {ps : List (List Char)} {vs : List ℕ} (h : GroupsText ps vs) :
    ∀ p ∈ ps, ':' ∉ p := by
  induction h with
  | nil => exact fun p hp => absurd hp List.not_mem_nil
  | group hg _ ih =>
    intro p hp
    cases hp with
    | head => exact hg.not_mem (by decide)
    | tail _ hp => exact ih p hp
  | quad a =>
    intro p hp hmem
    rw [List.mem_singleton] at hp
    subst hp
    have := (atonText_dottedQuad a).chars _ hmem
    revert this
    decide

theorem expandSuffix_of_getLast? {parts : List (List Char)} {last : List Char}
    (h : parts.getLast? = some last) (hdot : '.' ∉ last) : expandSuffix parts = some parts := by
  rw [expandSuffix, h]
  exact if_neg hdot

theorem ends_cons (p : List Char) (ps : List (List Char)) : ends (p :: ps) = p :: ps :=
  if_neg (List.cons_ne_nil p ps)

theorem mem_dottedQuad (a : Ipv4) : '.' ∈ dottedQuad a := by
  simp [dottedQuad, bytes, List.intercalate_cons_cons]

theorem expandSuffix_quad (pre : List (List Char)) (a : Ipv4) :
    expandSuffix (pre ++ [dottedQuad a]) =
      some (pre ++ [hexText (a / 2 ^ 16), hexText (a % 2 ^ 16)]) := by
  have hlt : a.val / 2 ^ 16 < 2 ^ 16 := by omega
  have hhi : a.val >>> 16 &&& 0xffff = a / 2 ^ 16 := by
    rw [Nat.shiftRight_eq_div_pow]
    exact (Nat.and_two_pow_sub_one_eq_mod (a.val / 2 ^ 16) 16).trans (Nat.mod_eq_of_lt hlt)
  have hlo : a.val &&& 0xffff = a % 2 ^ 16 := Nat.and_two_pow_sub_one_eq_mod a.val 16
  simp [expandSuffix, mem_dottedQuad, ipv4Address_dottedQuad, hhi, hlo]

/-- The parts after `::`, or all of them, as groups of hexadecimal digits. -/
theorem expandSuffix_groups {ps : List (List Char)} {vs : List ℕ} (h : GroupsText ps vs) :
    ∃ gs, (∀ g ∈ gs, IsGroup g) ∧ gs.map (numeral 16) = vs ∧
      (gs = [] ↔ ps = []) ∧ ∀ pre, expandSuffix (pre ++ ends ps) = some (pre ++ ends gs) := by
  induction h with
  | nil =>
    refine ⟨[], fun g hg => absurd hg List.not_mem_nil, rfl, Iff.rfl, ?_⟩
    intro pre
    exact expandSuffix_of_getLast? List.getLast?_concat List.not_mem_nil
  | @group g ps vs hg _ ih =>
    obtain ⟨gs, hgs, hvs, hnil, hexpand⟩ := ih
    refine ⟨g :: gs, ?_, ?_, by simp, ?_⟩
    · intro g' hg'
      cases hg' with
      | head => exact hg
      | tail _ hg' => exact hgs g' hg'
    · rw [List.map_cons, hvs]
    · intro pre
      rw [ends_cons, ends_cons]
      by_cases hps : ps = []
      · -- the last text is a group, and a group has no dot
        rw [hps, hnil.mpr hps]
        exact expandSuffix_of_getLast? List.getLast?_concat (hg.not_mem (by decide))
      · have hgs' : gs ≠ [] := mt hnil.mp hps
        have := hexpand (pre ++ [g])
        rwa [ends, ends, if_neg hps, if_neg hgs', List.append_assoc, List.append_assoc] at this
  | quad a =>
    have hlt : a.val / 2 ^ 16 < 2 ^ 16 := by omega
    have hmod : a.val % 2 ^ 16 < 2 ^ 16 := Nat.mod_lt _ (by decide)
    refine ⟨[hexText (a / 2 ^ 16), hexText (a % 2 ^ 16)], ?_, ?_, by simp, ?_⟩
    · intro g hg
      rw [List.mem_cons, List.mem_singleton] at hg
      obtain rfl | rfl := hg
      · exact isGroup_hexText hlt
      · exact isGroup_hexText hmod
    · simp [numeral_hexText]
    · exact fun pre => expandSuffix_quad pre a

theorem skipIndex_cons {p : List Char} (hp : [] ≠ p) (ps : List (List Char)) (i : ℕ)
    (skip : Option ℕ) : skipIndex i (p :: ps) skip = skipIndex (i + 1) ps skip :=
  if_neg (Ne.symm hp)

theorem skipIndex_groups {ps : List (List Char)} (hps : [] ∉ ps) (i : ℕ) (skip : Option ℕ) :
    skipIndex i ps skip = some skip := by
  induction ps generalizing i with
  | nil => rfl
  | cons p ps ih =>
    rw [List.mem_cons, not_or] at hps
    rw [skipIndex_cons hps.1]
    exact ih hps.2 (i + 1)

theorem skipIndex_compressed {xs ys : List (List Char)} (hxs : [] ∉ xs) (hys : [] ∉ ys) (i : ℕ) :
    skipIndex i (xs ++ [] :: ys) none = some (some (i + xs.length)) := by
  induction xs generalizing i with
  | nil => exact skipIndex_groups hys (i + 1) (some i)
  | cons x xs ih =>
    rw [List.mem_cons, not_or] at hxs
    rw [List.cons_append, skipIndex_cons hxs.1, ih hxs.2, List.length_cons]
    congr 2
    omega

theorem nil_not_mem {gs : List (List Char)} (hgs : ∀ g ∈ gs, IsGroup g) : [] ∉ gs :=
  fun hmem => (hgs [] hmem).ne_nil rfl

theorem layout_of_skip {parts : List (List Char)} {skip hi lo : ℕ}
    (hskip : skipIndex 1 (parts.drop 1).dropLast none = some (some skip))
    (hhi : countEnd skip (parts.head? = some []) = some hi)
    (hlo : countEnd (parts.length - skip - 1) (parts.getLast? = some []) = some lo)
    (h : hi + lo < 8) : layout parts = some (hi, 8 - (hi + lo), lo) := by
  have hle : ¬8 < hi + lo + 1 := by omega
  unfold layout
  simp only [hskip, hhi, hlo, Option.bind_eq_bind, Option.bind_some, if_neg hle]

theorem layout_full {gs : List (List Char)} (hgs : ∀ g ∈ gs, IsGroup g) (hlen : gs.length = 8) :
    layout gs = some (8, 0, 0) := by
  have hskip : skipIndex 1 (gs.drop 1).dropLast none = some none := by
    apply skipIndex_groups
    exact fun hmem => nil_not_mem hgs (List.mem_of_mem_drop (List.dropLast_subset _ hmem))
  have hhead : gs.head? ≠ some [] := fun h => nil_not_mem hgs (List.mem_of_head? h)
  have hlast : gs.getLast? ≠ some [] := fun h => nil_not_mem hgs (List.mem_of_getLast? h)
  unfold layout
  simp only [hskip, Option.bind_eq_bind, Option.bind_some, if_neg (not_not.mpr hlen),
    if_neg hhead, if_neg hlast]

/-- The parts before `::`, from the second on, are groups, and so is the first unless there
are none. -/
theorem ends_eq_cons {hi : List (List Char)} (hhi : ∀ g ∈ hi, IsGroup g) :
    ∃ p xs, ends hi = p :: xs ∧ [] ∉ xs ∧ countEnd (xs.length + 1) (p = []) = some hi.length := by
  cases hi with
  | nil => exact ⟨[], [], rfl, List.not_mem_nil, rfl⟩
  | cons g gs =>
    have hg : g ≠ [] := (hhi g List.mem_cons_self).ne_nil
    refine ⟨g, gs, ends_cons g gs, ?_, ?_⟩
    · exact fun hmem => nil_not_mem hhi (List.mem_cons_of_mem g hmem)
    · rw [decide_eq_false hg]
      rfl

theorem ends_eq_concat {lo : List (List Char)} (hlo : ∀ g ∈ lo, IsGroup g) :
    ∃ ys q, ends lo = ys ++ [q] ∧ [] ∉ ys ∧
      countEnd (ys.length + 1) (q = []) = some lo.length := by
  induction lo using List.reverseRecOn with
  | nil => exact ⟨[], [], rfl, List.not_mem_nil, rfl⟩
  | append_singleton gs g _ =>
    have hg : g ≠ [] := (hlo g (by simp)).ne_nil
    refine ⟨gs, g, if_neg (by simp), ?_, ?_⟩
    · exact fun hmem => nil_not_mem hlo (List.mem_append_left [g] hmem)
    · rw [decide_eq_false hg, List.length_append]
      rfl

theorem layout_compressed {hi lo : List (List Char)} (hhi : ∀ g ∈ hi, IsGroup g)
    (hlo : ∀ g ∈ lo, IsGroup g) (hlen : hi.length + lo.length < 8) :
    layout (ends hi ++ [] :: ends lo) =
      some (hi.length, 8 - (hi.length + lo.length), lo.length) := by
  obtain ⟨p, xs, hends, hxs, hcount⟩ := ends_eq_cons hhi
  obtain ⟨ys, q, hends', hys, hcount'⟩ := ends_eq_concat hlo
  -- the `::` is the only empty part between the first and the last one
  have hinterior : ((ends hi ++ [] :: ends lo).drop 1).dropLast = xs ++ [] :: ys := by
    have happend : xs ++ [] :: (ys ++ [q]) = (xs ++ [] :: ys) ++ [q] := by simp
    rw [hends, hends', List.cons_append, List.drop_one, List.tail_cons, happend,
      List.dropLast_concat]
  have hskip : skipIndex 1 ((ends hi ++ [] :: ends lo).drop 1).dropLast none =
      some (some (xs.length + 1)) := by
    rw [hinterior, skipIndex_compressed hxs hys, Nat.add_comm]
  have hhead : (ends hi ++ [] :: ends lo).head? = some p := by
    rw [hends]
    rfl
  have hlast : (ends hi ++ [] :: ends lo).getLast? = some q := by
    rw [hends', ← List.cons_append, ← List.append_assoc]
    exact List.getLast?_concat
  have hrest : (ends hi ++ [] :: ends lo).length - (xs.length + 1) - 1 = ys.length + 1 := by
    rw [hends, hends', List.length_append, List.length_cons, List.length_cons, List.length_append,
      List.length_singleton]
    omega
  apply layout_of_skip hskip _ _ hlen
  · rw [hhead]
    simpa using hcount
  · rw [hlast, hrest]
    simpa using hcount'

theorem length_ends (ps : List (List Char)) : (ends ps).length = max 1 ps.length := by
  cases ps with
  | nil => rfl
  | cons p ps =>
    rw [ends_cons, List.length_cons]
    omega

theorem GroupsText.length_le {ps : List (List Char)} {vs : List ℕ} (h : GroupsText ps vs) :
    vs.length ≤ ps.length + 1 := by
  induction h with
  | nil => simp
  | group _ _ ih => simpa using ih
  | quad a => simp

theorem take_ends (hi ps : List (List Char)) : (ends hi ++ ps).take hi.length = hi := by
  cases hi with
  | nil => rfl
  | cons g gs => rw [ends_cons, List.take_left]

theorem drop_ends (ps lo : List (List Char)) :
    (ps ++ ends lo).drop ((ps ++ ends lo).length - lo.length) = lo := by
  cases lo with
  | nil => exact List.drop_length
  | cons g gs => rw [ends_cons, List.length_append, Nat.add_sub_cancel, List.drop_left]

theorem ipv6IntFromString_eq {text : List Char} {parts parts' : List (List Char)}
    {hi skipped lo ip : ℕ} (hparts : text.splitOn ':' = parts) (hmin : 3 ≤ parts.length)
    (hexpand : expandSuffix parts = some parts') (hmax : parts'.length ≤ 9)
    (hlayout : layout parts' = some (hi, skipped, lo))
    (hhi : shiftIn 0 (parts'.take hi) = some ip) :
    ipv6IntFromString text =
      shiftIn (ip <<< (16 * skipped)) (parts'.drop (parts'.length - lo)) := by
  have hne : text ≠ [] := by
    rintro rfl
    rw [← hparts] at hmin
    exact absurd hmin (by decide)
  have hmin' : ¬parts.length < 3 := Nat.not_lt_of_le hmin
  have hmax' : ¬parts'.length > 9 := Nat.not_lt_of_le hmax
  unfold ipv6IntFromString
  simp only [if_neg hne, hparts, if_neg hmin', hexpand, if_neg hmax', hlayout, hhi,
    Option.bind_eq_bind, Option.bind_some]

theorem ipv6IntFromString_full {ps : List (List Char)} {vs : List ℕ} (hps : GroupsText ps vs)
    (hlen : vs.length = 8) :
    ipv6IntFromString ([':'].intercalate ps) = some (groupsValue vs) := by
  obtain ⟨gs, hgs, rfl, hnil, hexpand⟩ := expandSuffix_groups hps
  rw [List.length_map] at hlen
  have hps' : ps ≠ [] := by
    intro heq
    rw [hnil.mpr heq] at hlen
    cases hlen
  have hends : ends ps = ps := if_neg hps'
  have hends' : ends gs = gs := if_neg (mt hnil.mp hps')
  have hmin := hps.length_le
  rw [List.length_map] at hmin
  have hexpand' := hexpand []
  rw [List.nil_append, List.nil_append, hends, hends'] at hexpand'
  have hsplit := (splitOn_groups hps.not_mem_colon).trans hends
  have htake : gs.take 8 = gs := List.take_of_length_le hlen.le
  have hshift := shiftIn_eq hgs 0
  rw [← htake] at hshift
  rw [ipv6IntFromString_eq hsplit (by omega) hexpand' (by omega) (layout_full hgs hlen) hshift]
  simp [shiftIn, groupsValue, htake]

theorem ipv6IntFromString_compressed {hi lo : List (List Char)} {vs : List ℕ}
    (hhi : ∀ g ∈ hi, IsGroup g) (hlo : GroupsText lo vs) (hlen : hi.length + vs.length < 8) :
    ipv6IntFromString ([':'].intercalate hi ++ ':' :: ':' :: [':'].intercalate lo) =
      some (groupsValue
        (hi.map (numeral 16) ++ List.replicate (8 - (hi.length + vs.length)) 0 ++ vs)) := by
  obtain ⟨gs, hgs, rfl, -, hexpand⟩ := expandSuffix_groups hlo
  rw [List.length_map] at hlen
  have hsplit := splitOn_compressed (fun g hg => (hhi g hg).not_mem (by decide))
    hlo.not_mem_colon
  have hexpand' := hexpand (ends hi ++ [[]])
  rw [List.append_assoc, List.append_assoc, List.singleton_append, List.singleton_append]
    at hexpand'
  have hmin : 3 ≤ (ends hi ++ [] :: ends lo).length := by
    rw [List.length_append, List.length_cons, length_ends, length_ends]
    omega
  have hmax : (ends hi ++ [] :: ends gs).length ≤ 9 := by
    rw [List.length_append, List.length_cons, length_ends, length_ends]
    omega
  have hshift := shiftIn_eq hhi 0
  rw [← take_ends hi ([] :: ends gs)] at hshift
  rw [ipv6IntFromString_eq hsplit hmin hexpand' hmax (layout_compressed hhi hgs hlen) hshift]
  have hdrop := drop_ends (ends hi ++ [[]]) gs
  rw [List.append_assoc, List.singleton_append] at hdrop
  rw [hdrop, take_ends, shiftIn_eq hgs, groupsValue, List.foldl_append, List.foldl_append,
    foldl_zeros, List.length_map]

theorem ipv6IntFromString_text {text : List Char} {vs : List ℕ} (h : Ipv6Text text vs) :
    ipv6IntFromString text = some (groupsValue vs) := by
  cases h with
  | full hps hlen => exact ipv6IntFromString_full hps hlen
  | compressed hhi hlo hlen => exact ipv6IntFromString_compressed hhi hlo hlen

theorem map_intercalate (f : Char → Char) (x : Char) (ps : List (List Char)) :
    ([x].intercalate ps).map f = [f x].intercalate (ps.map (List.map f)) := by
  induction ps with
  | nil => rfl
  | cons p ps ih =>
    cases ps with
    | nil => simp
    | cons q ps =>
      rw [List.map_cons] at ih
      simp only [List.intercalate_cons_cons, List.map_append, List.map_cons, List.map_nil, ih]

theorem IsGroup.map_toLower {g : List Char} (hg : IsGroup g) : IsGroup (g.map Char.toLower) where
  ne_nil := mt List.map_eq_nil_iff.mp hg.ne_nil
  length_le := by
    rw [List.length_map]
    exact hg.length_le
  digits := allDigits_map_toLower hg.digits

theorem GroupsText.map_toLower {ps : List (List Char)} {vs : List ℕ} (h : GroupsText ps vs) :
    GroupsText (ps.map (List.map Char.toLower)) vs := by
  induction h with
  | nil => exact .nil
  | @group g ps vs hg _ ih =>
    rw [← numeral_map_toLower 16 g]
    exact .group hg.map_toLower ih
  | quad a =>
    rw [List.map_singleton, map_toLower_dottedQuad]
    exact .quad a

theorem Ipv6Text.map_toLower {text : List Char} {vs : List ℕ} (h : Ipv6Text text vs) :
    Ipv6Text (text.map Char.toLower) vs := by
  cases h with
  | full hps hlen =>
    rw [map_intercalate]
    exact .full hps.map_toLower hlen
  | @compressed hi lo vs hhi hlo hlen =>
    have hvalues : (hi.map (List.map Char.toLower)).map (numeral 16) = hi.map (numeral 16) := by
      rw [List.map_map]
      exact List.map_congr_left fun g _ => numeral_map_toLower 16 g
    have hhi' : ∀ g ∈ hi.map (List.map Char.toLower), IsGroup g := by
      intro g hg
      obtain ⟨g', hg', rfl⟩ := List.mem_map.mp hg
      exact (hhi g' hg').map_toLower
    have hlen' : (hi.map (List.map Char.toLower)).length + vs.length < 8 := by
      rwa [List.length_map]
    have h := Ipv6Text.compressed hhi' hlo.map_toLower hlen'
    rw [hvalues, List.length_map] at h
    rw [List.map_append, List.map_cons, List.map_cons, map_intercalate, map_intercalate]
    exact h

theorem GroupsText.chars {ps : List (List Char)} {vs : List ℕ} (h : GroupsText ps vs) :
    ∀ p ∈ ps, ∀ c ∈ p, IsDigit 16 c ∨ c = '.' := by
  induction h with
  | nil => exact fun p hp => absurd hp List.not_mem_nil
  | group hg _ ih =>
    intro p hp c hc
    cases hp with
    | head => exact .inl (hg.digits c hc)
    | tail _ hp => exact ih p hp c hc
  | quad a =>
    intro p hp c hc
    rw [List.mem_singleton] at hp
    subst hp
    obtain hdigit | hdot := dottedQuad_chars a c hc
    · exact .inl (hdigit.mono (by decide))
    · exact .inr hdot

theorem Ipv6Text.chars {text : List Char} {vs : List ℕ} (h : Ipv6Text text vs) :
    ∀ c ∈ text, IsDigit 16 c ∨ c = ':' ∨ c = '.' := by
  intro c hc
  cases h with
  | full hps _ =>
    obtain hcolon | ⟨p, hp, hc⟩ := mem_intercalate hc
    · exact .inr (.inl hcolon)
    · have := hps.chars p hp c hc
      tauto
  | compressed hhi hlo _ =>
    rw [List.mem_append, List.mem_cons, List.mem_cons] at hc
    obtain hc | hcolon | hcolon | hc := hc
    · obtain hcolon | ⟨g, hg, hc⟩ := mem_intercalate hc
      · exact .inr (.inl hcolon)
      · exact .inl ((hhi g hg).digits c hc)
    · exact .inr (.inl hcolon)
    · exact .inr (.inl hcolon)
    · obtain hcolon | ⟨p, hp, hc⟩ := mem_intercalate hc
      · exact .inr (.inl hcolon)
      · have := hlo.chars p hp c hc
        tauto

theorem Ipv6Text.mem_colon {text : List Char} {vs : List ℕ} (h : Ipv6Text text vs) :
    ':' ∈ text := by
  cases h with
  | @full ps vs hps hlen =>
    have := hps.length_le
    match ps with
    | [] => simp at this; omega
    | [_] => simp at this; omega
    | _ :: _ :: _ => simp [List.intercalate_cons_cons]
  | compressed => simp

inductive ZoneText : List Char → Option (List Char) → Prop
  | none : ZoneText [] none
  | some {zone : List Char} : zone ≠ [] → '%' ∉ zone → '/' ∉ zone → ZoneText ('%' :: zone) zone

theorem splitScopeId_eq {addr zone : List Char} {scopeId : Option (List Char)}
    (haddr : '%' ∉ addr) (hzone : ZoneText zone scopeId) :
    splitScopeId (addr ++ zone) = some (addr, scopeId) := by
  have hpos : ∀ c ∈ addr, decide (c ≠ '%') = true := by
    intro c hc
    exact decide_eq_true fun heq => haddr (heq ▸ hc)
  cases hzone with
  | none =>
    have hdrop : addr.dropWhile (· ≠ '%') = [] := List.dropWhile_eq_nil_iff.mpr hpos
    rw [List.append_nil, splitScopeId, hdrop]
  | @some zone hne hpercent _ =>
    have hdrop : (addr ++ '%' :: zone).dropWhile (· ≠ '%') = '%' :: zone := by
      rw [List.dropWhile_append_of_pos hpos]
      rfl
    have htake : (addr ++ '%' :: zone).takeWhile (· ≠ '%') = addr := by
      rw [List.takeWhile_append_of_pos hpos]
      exact List.append_nil addr
    simp only [splitScopeId, hdrop, htake, hne, hpercent, or_self, if_false]

theorem ipAddress_text {text zone : List Char} {vs : List ℕ} {scopeId : Option (List Char)}
    (h : Ipv6Text text vs) (hzone : ZoneText zone scopeId) :
    ipAddress (text ++ zone) = some (.v6 (groupsValue vs) scopeId) := by
  -- an IPv4 address has no colon
  have hv4 : ipv4Address (text ++ zone) = none := by
    cases hv4 : ipv4Address (text ++ zone) with
    | none => rfl
    | some a =>
      have hcolon := ipv4Address_chars hv4 ':' (List.mem_append_left zone h.mem_colon)
      exact absurd hcolon (by decide)
  have hpercent : '%' ∉ text := by
    intro hmem
    have := h.chars _ hmem
    revert this
    decide
  have hslash : '/' ∉ text ++ zone := by
    intro hmem
    rw [List.mem_append] at hmem
    cases hmem with
    | inl hmem =>
      have := h.chars _ hmem
      revert this
      decide
    | inr hmem =>
      cases hzone with
      | none => exact absurd hmem List.not_mem_nil
      | some _ _ hz =>
        cases hmem with
        | tail _ hmem => exact hz hmem
  unfold ipAddress ipv6Address
  simp only [hv4, if_neg hslash, splitScopeId_eq hpercent hzone, ipv6IntFromString_text h,
    Option.bind_eq_bind, Option.bind_some]

/-- A mapped metadata address with a zone. -/
example : ipAddress "::ffff:169.254.169.254%eth0".toList =
    some (.v6 0xffffa9fea9fe (some "eth0".toList)) := by
  decide +kernel

/-- Of a spelling of an IPv4 address `ip_address` gives the address, if anything. -/
theorem ipAddress_aton {text : List Char} {a : Ipv4} {ip : IpAddress} (h : AtonText 4 text a)
    (hip : ipAddress text = some ip) : ip = .v4 a := by
  unfold ipAddress at hip
  split at hip
  · rename_i hv4
    cases hip
    rw [ipv4Address_eq h hv4]
  · exfalso
    have hmem : ∀ c ∈ text, c ≠ ':' ∧ c ≠ '%' := by
      intro c hc
      have := h.chars c hc
      constructor <;> rintro rfl <;> revert this <;> decide
    have hcolon : text.splitOn ':' = [text] :=
      List.splitOn_eq_singleton fun hc => (hmem _ hc).1 rfl
    have hscope := splitScopeId_eq (fun hc => (hmem _ hc).2 rfl) ZoneText.none
    rw [List.append_nil] at hscope
    simp [ipv6Address, hscope, ipv6IntFromString, hcolon] at hip

theorem ipv4Mapped_eq (a : Ipv4) (scopeId : Option (List Char)) :
    ipv4Mapped (.v6 (0xffff * 2 ^ 32 + a) scopeId) = some a := by
  have ha : a.val < 2 ^ 32 := a.isLt
  have hshift : (0xffff * 2 ^ 32 + a.val) >>> 32 = 0xffff := by
    rw [Nat.shiftRight_eq_div_pow]
    omega
  have hmask : (0xffff * 2 ^ 32 + a.val) &&& 0xffffffff = a := by
    rw [show (0xffffffff : ℕ) = 2 ^ 32 - 1 from rfl, Nat.and_two_pow_sub_one_eq_mod]
    omega
  unfold ipv4Mapped
  simp only [hshift, hmask, ne_eq, not_true_eq_false, if_false]

end Inet
