import Mathlib.Data.Nat.Digits.Defs
import Mathlib.Order.Lattice
import Mathlib.Tactic.IntervalCases
import Mathlib.Tactic.Ring

-- The two readers of an IPv4 address that Python has: the strict one of `ipaddress` and the
-- C library's `inet_aton`, whose parts may be decimal, octal or hexadecimal and whose last
-- part fills the bytes that are left. `AtonText` is the grammar of the second on its own. The
-- second reader gives every text of the grammar its address, and the first gives no other.

namespace Inet

abbrev Ipv4 := Fin (256 ^ 4)

/-- The value of a digit of any base up to 16, and 16 of any other character. -/
def digitValue (c : Char) : ℕ :=
  if '0' ≤ c ∧ c ≤ '9' then c.toNat - 48
  else if 'a' ≤ c ∧ c ≤ 'f' then c.toNat - 87
  else if 'A' ≤ c ∧ c ≤ 'F' then c.toNat - 55
  else 16

/-- The digits of base `b`. -/
def IsDigit (b : ℕ) (c : Char) : Prop := digitValue c < b

instance (b : ℕ) (c : Char) : Decidable (IsDigit b c) := inferInstanceAs (Decidable (_ < _))

def AllDigits (b : ℕ) (ds : List Char) : Prop := ∀ d ∈ ds, IsDigit b d

instance (b : ℕ) (ds : List Char) : Decidable (AllDigits b ds) := List.decidableBAll _ ds

def numeral (b : ℕ) (ds : List Char) : ℕ := ds.foldl (fun n c => b * n + digitValue c) 0

theorem numeral_append_singleton (b : ℕ) (ds : List Char) (c : Char) :
    numeral b (ds ++ [c]) = b * numeral b ds + digitValue c := by
  simp [numeral]

theorem digitValue_digitChar {d : ℕ} (hd : d < 16) : digitValue d.digitChar = d := by
  interval_cases d <;> rfl

theorem allDigits_toDigits {b : ℕ} (hb : 1 < b) (hb' : b ≤ 16) (n : ℕ) :
    AllDigits b (Nat.toDigits b n) := by
  induction n using Nat.strong_induction_on with
  | h n ih =>
    by_cases hn : n < b
    · intro c hc
      rw [Nat.toDigits_of_lt_base hn, List.mem_singleton] at hc
      rw [hc, IsDigit, digitValue_digitChar (hn.trans_le hb')]
      exact hn
    · have hle : b ≤ n := Nat.le_of_not_lt hn
      have hmod : n % b < b := Nat.mod_lt n (by omega)
      intro c hc
      rw [Nat.toDigits_of_base_le hb hle, List.mem_append, List.mem_singleton] at hc
      cases hc with
      | inl hc => exact ih (n / b) (Nat.div_lt_self (by omega) hb) c hc
      | inr hc =>
        rw [hc, IsDigit, digitValue_digitChar (hmod.trans_le hb')]
        exact hmod

theorem numeral_toDigits {b : ℕ} (hb : 1 < b) (hb' : b ≤ 16) (n : ℕ) :
    numeral b (Nat.toDigits b n) = n := by
  induction n using Nat.strong_induction_on with
  | h n ih =>
    by_cases hn : n < b
    · rw [Nat.toDigits_of_lt_base hn]
      simp [numeral, digitValue_digitChar (hn.trans_le hb')]
    · have hle : b ≤ n := Nat.le_of_not_lt hn
      have hmod : n % b < b := Nat.mod_lt n (by omega)
      rw [Nat.toDigits_of_base_le hb hle, numeral_append_singleton,
        ih (n / b) (Nat.div_lt_self (by omega) hb), digitValue_digitChar (hmod.trans_le hb')]
      exact Nat.div_add_mod n b

theorem digitValue_toLower (c : Char) : digitValue c.toLower = digitValue c := by
  have hascii : ∀ n < 128, digitValue (Char.ofNat n).toLower = digitValue (Char.ofNat n) := by
    decide +kernel
  by_cases hc : c.toNat < 128
  · have h := hascii c.toNat hc
    rwa [Char.ofNat_toNat] at h
  · have hlower : c.toLower = c := by
      apply dif_neg
      rintro ⟨-, hZ⟩
      have hle : c.toNat ≤ 90 := hZ
      omega
    rw [hlower]

/-- `_parse_octet`: at most three ASCII digits, without a leading zero. -/
def parseOctet (octet : List Char) : Option (Fin 256) :=
  if octet = [] then none
  else if ¬AllDigits 10 octet then none
  else if octet.length > 3 then none
  else if octet ≠ ['0'] ∧ octet.head? = some '0' then none
  else if h : numeral 10 octet < 256 then some ⟨numeral 10 octet, h⟩
  else none

/-- `int.from_bytes` of four bytes. -/
def fromBytes (a b c d : Fin 256) : Ipv4 :=
  ⟨a * 256 ^ 3 + b * 256 ^ 2 + c * 256 + d, by omega⟩

/-- `IPv4Address` of a text. -/
def ipv4Address (text : List Char) : Option Ipv4 :=
  if '/' ∈ text then none
  else
    match (text.splitOn '.').mapM parseOctet with
    | some [a, b, c, d] => some (fromBytes a b c d)
    | _ => none

/-- The value of the longest run of digits that a text starts with, and what comes after it. -/
def span (b : ℕ) (text : List Char) : ℕ × List Char :=
  (numeral b (text.takeWhile (IsDigit b ·)), text.dropWhile (IsDigit b ·))

/-- `strtoul(text, &end, 0)` of a text that starts with a digit. -/
def strtoul : List Char → Option (ℕ × List Char)
  | '0' :: x :: d :: text =>
    if (x = 'x' ∨ x = 'X') ∧ IsDigit 16 d then some (span 16 (d :: text))
    -- an `x` without a digit behind it is not read
    else some (span 8 (x :: d :: text))
  | '0' :: text => some (span 8 text)
  | c :: text => if IsDigit 10 c then some (span 10 (c :: text)) else none
  | [] => none

/-- `isspace` of an ASCII character. -/
def isAsciiSpace (c : Char) : Bool := c = ' ' || ('\t' ≤ c && c ≤ '\r')

theorem fill_lt {v w k : ℕ} (hv : v < 256) (hw : w < 256 ^ k) :
    v * 256 ^ k + w < 256 ^ (k + 1) := by
  calc v * 256 ^ k + w < v * 256 ^ k + 256 ^ k := Nat.add_lt_add_left hw _
    _ = (v + 1) * 256 ^ k := (Nat.succ_mul v _).symm
    _ ≤ 256 * 256 ^ k := Nat.mul_le_mul_right _ hv
    _ = 256 ^ (k + 1) := (pow_succ' 256 k).symm

/-- The parts of which the first fills the first of `k` bytes. -/
def atonParts : (k : ℕ) → List Char → Option (Fin (256 ^ k))
  | 0, _ => none
  | k + 1, text =>
    match strtoul text with
    | none => none
    | some (v, '.' :: rest) =>
      if h : v < 256 then
        (atonParts k rest).map fun w => ⟨v * 256 ^ k + w.val, fill_lt h w.isLt⟩
      else none
    -- behind a space anything may follow
    | some (v, rest) =>
      if h : v < 256 ^ (k + 1) ∧ rest.head?.all isAsciiSpace then some ⟨v, h.1⟩ else none

/-- `socket.inet_aton`, which refuses a text with a NUL in it. -/
def inetAton (text : List Char) : Option Ipv4 :=
  if '\x00' ∈ text then none else atonParts 4 text

inductive PartText : List Char → ℕ → Prop
  | decimal {c : Char} {ds : List Char} : c ≠ '0' → AllDigits 10 (c :: ds) →
      PartText (c :: ds) (numeral 10 (c :: ds))
  | octal {ds : List Char} : AllDigits 8 ds → PartText ('0' :: ds) (numeral 8 ds)
  | hexadecimal {x : Char} {ds : List Char} : x = 'x' ∨ x = 'X' → ds ≠ [] →
      AllDigits 16 ds → PartText ('0' :: x :: ds) (numeral 16 ds)

/-- The spellings of `k` bytes by at most `k` parts: each but the last is one byte, and the
last fills the bytes that are left. -/
inductive AtonText : ℕ → List Char → ℕ → Prop
  | last {k v : ℕ} {text : List Char} : PartText text v → v < 256 ^ (k + 1) →
      AtonText (k + 1) text v
  | cons {k v w : ℕ} {text rest : List Char} : PartText text v → v < 256 →
      AtonText (k + 1) rest w →
      AtonText (k + 2) (text ++ '.' :: rest) (v * 256 ^ (k + 1) + w)

theorem IsDigit.mono {b b' : ℕ} {c : Char} (hc : IsDigit b c) (hb : b ≤ b') : IsDigit b' c :=
  lt_of_lt_of_le hc hb

theorem PartText.chars {text : List Char} {v : ℕ} (h : PartText text v) :
    ∀ c ∈ text, IsDigit 16 c ∨ c = 'x' ∨ c = 'X' := by
  intro c hc
  cases h with
  | decimal _ hds => exact .inl ((hds c hc).mono (by decide))
  | octal hds =>
    cases hc with
    | head => exact .inl (by decide)
    | tail _ hc => exact .inl ((hds c hc).mono (by decide))
  | hexadecimal hx _ hds =>
    cases hc with
    | head => exact .inl (by decide)
    | tail _ hc =>
      cases hc with
      | head => exact .inr hx
      | tail _ hc => exact .inl (hds c hc)

theorem AtonText.chars {k a : ℕ} {text : List Char} (h : AtonText k text a) :
    ∀ c ∈ text, IsDigit 16 c ∨ c = 'x' ∨ c = 'X' ∨ c = '.' := by
  induction h with
  | last hp _ =>
    intro c hc
    have := hp.chars c hc
    tauto
  | cons hp _ _ ih =>
    intro c hc
    rw [List.mem_append, List.mem_cons] at hc
    rcases hc with hc | rfl | hc
    · have := hp.chars c hc
      tauto
    · exact .inr (.inr (.inr rfl))
    · exact ih c hc

theorem toLower_of_isDigit {c : Char} (hc : IsDigit 10 c) : c.toLower = c := by
  have hle : c.toNat ≤ 57 := by
    unfold IsDigit digitValue at hc
    split at hc
    · rename_i h
      exact h.2
    · split at hc
      · rename_i h
        have hge : 97 ≤ c.toNat := h.1
        omega
      · split at hc
        · rename_i h
          have hge : 65 ≤ c.toNat := h.1
          omega
        · omega
  apply dif_neg
  rintro ⟨hA, -⟩
  have hge : 65 ≤ c.toNat := hA
  omega

theorem map_toLower_of_isDigit {ds : List Char} (hds : AllDigits 10 ds) :
    ds.map Char.toLower = ds :=
  (List.map_congr_left fun d hd => toLower_of_isDigit (hds d hd)).trans (List.map_id ds)

theorem numeral_map_toLower (b : ℕ) (ds : List Char) :
    numeral b (ds.map Char.toLower) = numeral b ds := by
  simp only [numeral, List.foldl_map, digitValue_toLower]

theorem allDigits_map_toLower {b : ℕ} {ds : List Char} (hds : AllDigits b ds) :
    AllDigits b (ds.map Char.toLower) := by
  intro d hd
  obtain ⟨c, hc, rfl⟩ := List.mem_map.mp hd
  rw [IsDigit, digitValue_toLower]
  exact hds c hc

theorem PartText.map_toLower {text : List Char} {v : ℕ} (h : PartText text v) :
    PartText (text.map Char.toLower) v := by
  cases h with
  | @decimal c ds hc hds =>
    rw [map_toLower_of_isDigit hds]
    exact .decimal hc hds
  | @octal ds hds =>
    have hds' : ds.map Char.toLower = ds :=
      map_toLower_of_isDigit fun d hd => (hds d hd).mono (by decide)
    rw [List.map_cons, hds']
    exact .octal hds
  | @hexadecimal x ds hx hne hds =>
    have hx' : x.toLower = 'x' := by
      obtain rfl | rfl := hx <;> rfl
    rw [List.map_cons, List.map_cons, hx', ← numeral_map_toLower]
    exact .hexadecimal (.inl rfl) (mt List.map_eq_nil_iff.mp hne) (allDigits_map_toLower hds)

theorem AtonText.map_toLower {k a : ℕ} {text : List Char} (h : AtonText k text a) :
    AtonText k (text.map Char.toLower) a := by
  induction h with
  | last hp hv => exact .last hp.map_toLower hv
  | cons hp hv _ ih =>
    rw [List.map_append, List.map_cons]
    exact .cons hp.map_toLower hv ih

def EndsPart (rest : List Char) : Prop := ∀ c ∈ rest.head?, digitValue c = 16 ∧ c ≠ 'x' ∧ c ≠ 'X'

theorem span_append {b : ℕ} {ds rest : List Char} (hb : b ≤ 16) (hds : AllDigits b ds)
    (hrest : EndsPart rest) : span b (ds ++ rest) = (numeral b ds, rest) := by
  have htake : rest.takeWhile (IsDigit b ·) = [] ∧ rest.dropWhile (IsDigit b ·) = rest := by
    cases rest with
    | nil => exact ⟨rfl, rfl⟩
    | cons c rest =>
      have hc : ¬IsDigit b c := by
        have := (hrest c rfl).1
        unfold IsDigit
        omega
      simp [hc]
  have hpos : ∀ d ∈ ds, decide (IsDigit b d) = true := fun d hd => decide_eq_true (hds d hd)
  rw [span, List.takeWhile_append_of_pos hpos, List.dropWhile_append_of_pos hpos, htake.1, htake.2,
    List.append_nil]

/-- A text after an initial `0` is hexadecimal only behind its mark. -/
theorem strtoul_zero {text : List Char} (h : ∀ c ∈ text.head?, c ≠ 'x' ∧ c ≠ 'X') :
    strtoul ('0' :: text) = some (span 8 text) := by
  match text with
  | [] => rfl
  | [_] => rfl
  | x :: d :: text =>
    have hx : ¬((x = 'x' ∨ x = 'X') ∧ IsDigit 16 d) := by
      have := h x rfl
      tauto
    exact if_neg hx

theorem strtoul_append {text rest : List Char} {v : ℕ} (h : PartText text v)
    (hrest : EndsPart rest) : strtoul (text ++ rest) = some (v, rest) := by
  cases h with
  | @decimal c ds hc hds =>
    have hspan := span_append (by decide) hds hrest
    rw [List.cons_append] at hspan ⊢
    rw [strtoul, if_pos (hds c List.mem_cons_self), hspan]
    · exact fun _ _ _ h => absurd h hc
    · exact fun h => absurd h hc
  | @octal ds hds =>
    rw [List.cons_append, strtoul_zero, span_append (by decide) hds hrest]
    intro c hc
    cases ds with
    | nil => exact (hrest c hc).2
    | cons d ds =>
      cases hc
      have hc := hds c List.mem_cons_self
      constructor <;> rintro rfl <;> exact absurd hc (by decide)
  | @hexadecimal x ds hx hne hds =>
    cases ds with
    | nil => exact absurd rfl hne
    | cons d ds =>
      have hspan := span_append (by decide) hds hrest
      rw [List.cons_append] at hspan
      rw [List.cons_append, List.cons_append, List.cons_append, strtoul,
        if_pos ⟨hx, hds d List.mem_cons_self⟩, hspan]

theorem strtoul_text {text : List Char} {v : ℕ} (h : PartText text v) :
    strtoul text = some (v, []) := by
  have hend : EndsPart [] := fun c hc => by cases hc
  have := strtoul_append h hend
  rwa [List.append_nil] at this

/-- `inet_aton` gives a text of the grammar its address. -/
theorem atonParts_eq {k a : ℕ} {text : List Char} (h : AtonText k text a) :
    (atonParts k text).map Fin.val = some a := by
  induction h with
  | last hp hv =>
    rw [atonParts, strtoul_text hp]
    simp [hv]
  | @cons k v w text rest hp hv _ ih =>
    have hend : EndsPart ('.' :: rest) := by
      intro c hc
      cases hc
      decide
    obtain ⟨w', hw', rfl⟩ := Option.map_eq_some_iff.mp ih
    rw [atonParts, strtoul_append hp hend]
    simp [hv, hw']

theorem inetAton_eq {a : Ipv4} {text : List Char} (h : AtonText 4 text a) :
    inetAton text = some a := by
  have hnul : '\x00' ∉ text := by
    intro hmem
    have := h.chars _ hmem
    revert this
    decide
  obtain ⟨a', ha', hval⟩ := Option.map_eq_some_iff.mp (atonParts_eq h)
  rw [inetAton, if_neg hnul, ha', Fin.ext hval]

theorem parseOctet_eq_some {text : List Char} {o : Fin 256} (h : parseOctet text = some o) :
    text ≠ [] ∧ AllDigits 10 text ∧ (text = ['0'] ∨ text.head? ≠ some '0') ∧
      o.val = numeral 10 text := by
  unfold parseOctet at h
  split at h
  · cases h
  · rename_i hne
    split at h
    · cases h
    · rename_i hdigits
      split at h
      · cases h
      · split at h
        · cases h
        · rename_i hzero
          split at h
          · cases h
            exact ⟨hne, not_not.mp hdigits, by tauto, rfl⟩
          · cases h

theorem partText_of_parseOctet {text : List Char} {o : Fin 256} (h : parseOctet text = some o) :
    PartText text o := by
  obtain ⟨hne, hdigits, hzero, ho⟩ := parseOctet_eq_some h
  rw [ho]
  cases text with
  | nil => exact absurd rfl hne
  | cons c ds =>
    by_cases hc : c = '0'
    · subst hc
      obtain heq | hhead := hzero
      · cases heq
        exact .octal (fun d hd => absurd hd List.not_mem_nil)
      · exact absurd rfl hhead
    · exact .decimal hc hdigits

theorem PartText.unique {text : List Char} {v v' : ℕ} (h : PartText text v)
    (h' : PartText text v') : v = v' := by
  have heq := (strtoul_text h).symm.trans (strtoul_text h')
  exact congrArg Prod.fst (Option.some.inj heq)

def bytesValue : List (Fin 256) → ℕ
  | [] => 0
  | o :: os => o * 256 ^ os.length + bytesValue os

theorem fromBytes_val (a b c d : Fin 256) : (fromBytes a b c d).val = bytesValue [a, b, c, d] := by
  simp [fromBytes, bytesValue, Nat.add_assoc]

theorem PartText.not_mem_dot {text : List Char} {v : ℕ} (h : PartText text v) : '.' ∉ text := by
  intro hmem
  have := h.chars _ hmem
  revert this
  decide

/-- What the strict reader accepts of the grammar, part by part, has the value it has there. -/
theorem bytesValue_eq {k a : ℕ} {text : List Char} (h : AtonText k text a) {os : List (Fin 256)}
    (hos : (text.splitOn '.').mapM parseOctet = some os) (hlen : os.length = k) :
    bytesValue os = a := by
  induction h generalizing os with
  | last hp hv =>
    rw [List.splitOn_eq_singleton hp.not_mem_dot] at hos
    obtain ⟨o, ho, hos⟩ := Option.bind_eq_some_iff.mp hos
    cases hos
    rw [← (partText_of_parseOctet ho).unique hp]
    simp [bytesValue]
  | @cons k v w text rest hp _ _ ih =>
    rw [List.splitOn_append_cons_self_of_not_mem hp.not_mem_dot, List.mapM_cons] at hos
    obtain ⟨o, ho, hos⟩ := Option.bind_eq_some_iff.mp hos
    obtain ⟨os', hos', hos⟩ := Option.bind_eq_some_iff.mp hos
    cases hos
    have hlen' : os'.length = k + 1 := Nat.succ_inj.mp hlen
    rw [bytesValue, (partText_of_parseOctet ho).unique hp, ih hos' hlen', hlen']

theorem ipv4Address_eq {a a' : Ipv4} {text : List Char} (h : AtonText 4 text a)
    (ha' : ipv4Address text = some a') : a' = a := by
  unfold ipv4Address at ha'
  split at ha'
  · cases ha'
  · split at ha'
    · rename_i b c d e hos
      cases ha'
      exact Fin.ext ((fromBytes_val b c d e).trans (bytesValue_eq h hos rfl))
    · cases ha'

def bytes (a : Ipv4) : List (Fin 256) :=
  [Fin.ofNat 256 (a.val / 256 ^ 3), Fin.ofNat 256 (a.val / 256 ^ 2), Fin.ofNat 256 (a.val / 256),
    Fin.ofNat 256 a.val]

def octetText (o : Fin 256) : List Char := Nat.toDigits 10 o

def dottedQuad (a : Ipv4) : List Char := ['.'].intercalate ((bytes a).map octetText)

theorem head_toDigits {n : ℕ} (hn : 0 < n) : (Nat.toDigits 10 n).head? ≠ some '0' := by
  induction n using Nat.strong_induction_on with
  | h n ih =>
    by_cases hlt : n < 10
    · rw [Nat.toDigits_of_lt_base hlt]
      interval_cases n <;> decide
    · have hpos : 0 < n / 10 := Nat.div_pos (Nat.le_of_not_lt hlt) (by decide)
      have hhead := ih (n / 10) (Nat.div_lt_self hn (by decide)) hpos
      have hne : Nat.toDigits 10 (n / 10) ≠ [] := Nat.toDigits_ne_nil
      obtain ⟨c, cs, hcs⟩ := List.exists_cons_of_ne_nil hne
      rw [hcs] at hhead
      rw [Nat.toDigits_of_base_le (by decide) (Nat.le_of_not_lt hlt), hcs]
      exact hhead

theorem parseOctet_octetText (o : Fin 256) : parseOctet (octetText o) = some o := by
  have hdigits : AllDigits 10 (octetText o) := allDigits_toDigits (by decide) (by decide) o
  have hlen : ¬(octetText o).length > 3 := by
    have hlt : o.val < 10 ^ 3 := o.isLt.trans (by decide)
    exact Nat.not_lt_of_le ((Nat.length_toDigits_le_iff (by decide) (by decide)).mpr hlt)
  have hzero : ¬(octetText o ≠ ['0'] ∧ (octetText o).head? = some '0') := by
    rintro ⟨hne, hhead⟩
    by_cases ho : o.val = 0
    · exact hne (by rw [octetText, ho]; rfl)
    · exact head_toDigits (Nat.pos_of_ne_zero ho) hhead
  have hval : numeral 10 (octetText o) = o := numeral_toDigits (by decide) (by decide) o
  have hlt : numeral 10 (octetText o) < 256 := by
    rw [hval]
    exact o.isLt
  have hne : octetText o ≠ [] := Nat.toDigits_ne_nil
  rw [parseOctet, if_neg hne, if_neg (not_not.mpr hdigits), if_neg hlen, if_neg hzero,
    dif_pos hlt]
  exact congrArg some (Fin.ext hval)

theorem partText_octetText (o : Fin 256) : PartText (octetText o) o :=
  partText_of_parseOctet (parseOctet_octetText o)

theorem bytesValue_bytes (a : Ipv4) : bytesValue (bytes a) = a := by
  have := a.isLt
  simp only [bytes, bytesValue, Fin.ofNat, List.length_cons, List.length_nil]
  omega

theorem atonText_octets {os : List (Fin 256)} (hne : os ≠ []) :
    AtonText os.length (['.'].intercalate (os.map octetText)) (bytesValue os) := by
  induction os with
  | nil => exact absurd rfl hne
  | cons o os ih =>
    cases os with
    | nil => simpa [bytesValue] using AtonText.last (k := 0) (partText_octetText o) (by simp)
    | cons o' os =>
      have h := AtonText.cons (partText_octetText o) o.isLt (ih (List.cons_ne_nil o' os))
      simpa [bytesValue, List.intercalate_cons_cons] using h

theorem atonText_dottedQuad (a : Ipv4) : AtonText 4 (dottedQuad a) a := by
  have hne : bytes a ≠ [] := List.cons_ne_nil _ _
  have h := atonText_octets hne
  rwa [bytesValue_bytes] at h

theorem mapM_parseOctet (os : List (Fin 256)) :
    (os.map octetText).mapM parseOctet = some os := by
  induction os with
  | nil => rfl
  | cons o os ih =>
    rw [List.map_cons, List.mapM_cons, parseOctet_octetText, ih]
    rfl

theorem ipv4Address_dottedQuad (a : Ipv4) : ipv4Address (dottedQuad a) = some a := by
  have hslash : '/' ∉ dottedQuad a := by
    intro hmem
    have := (atonText_dottedQuad a).chars _ hmem
    revert this
    decide
  have hdots : ∀ t ∈ (bytes a).map octetText, '.' ∉ t := by
    intro t ht
    obtain ⟨o, _, rfl⟩ := List.mem_map.mp ht
    exact (partText_octetText o).not_mem_dot
  have hsplit : (dottedQuad a).splitOn '.' = (bytes a).map octetText :=
    List.splitOn_intercalate '.' hdots (List.cons_ne_nil _ _)
  rw [ipv4Address, if_neg hslash, hsplit, mapM_parseOctet]
  have hval := bytesValue_bytes a
  obtain ⟨b, c, d, e, hbytes⟩ : ∃ b c d e, bytes a = [b, c, d, e] := ⟨_, _, _, _, rfl⟩
  rw [hbytes] at hval ⊢
  exact congrArg some (Fin.ext ((fromBytes_val b c d e).trans hval))

theorem mem_intercalate {x c : Char} {ps : List (List Char)} (hc : c ∈ [x].intercalate ps) :
    c = x ∨ ∃ p ∈ ps, c ∈ p := by
  induction ps with
  | nil => exact absurd hc List.not_mem_nil
  | cons p ps ih =>
    cases ps with
    | nil => exact .inr ⟨p, List.mem_cons_self, by simpa using hc⟩
    | cons q ps =>
      rw [List.intercalate_cons_cons, List.mem_append, List.mem_append, List.mem_singleton] at hc
      obtain (hc | hc) | hc := hc
      · exact .inr ⟨p, List.mem_cons_self, hc⟩
      · exact .inl hc
      · obtain hx | ⟨r, hr, hc⟩ := ih hc
        · exact .inl hx
        · exact .inr ⟨r, List.mem_cons_of_mem p hr, hc⟩

theorem parseOctet_of_mapM {ps : List (List Char)} {os : List (Fin 256)}
    (h : ps.mapM parseOctet = some os) : ∀ p ∈ ps, ∃ o, parseOctet p = some o := by
  induction ps generalizing os with
  | nil => exact fun p hp => absurd hp List.not_mem_nil
  | cons q ps ih =>
    rw [List.mapM_cons] at h
    obtain ⟨o, ho, h⟩ := Option.bind_eq_some_iff.mp h
    obtain ⟨os', hos', -⟩ := Option.bind_eq_some_iff.mp h
    intro p hp
    cases hp with
    | head => exact ⟨o, ho⟩
    | tail _ hp => exact ih hos' p hp

theorem ipv4Address_chars {text : List Char} {a : Ipv4} (h : ipv4Address text = some a) :
    ∀ c ∈ text, IsDigit 10 c ∨ c = '.' := by
  intro c hc
  unfold ipv4Address at h
  split at h
  · cases h
  · split at h
    · rename_i hos
      have htext : ['.'].intercalate (text.splitOn '.') = text := List.intercalate_splitOn '.'
      rw [← htext] at hc
      obtain hdot | ⟨p, hp, hc⟩ := mem_intercalate hc
      · exact .inr hdot
      · obtain ⟨o, ho⟩ := parseOctet_of_mapM hos p hp
        exact .inl ((parseOctet_eq_some ho).2.1 c hc)
    · cases h

theorem dottedQuad_chars (a : Ipv4) : ∀ c ∈ dottedQuad a, IsDigit 10 c ∨ c = '.' :=
  ipv4Address_chars (ipv4Address_dottedQuad a)

theorem map_toLower_dottedQuad (a : Ipv4) : (dottedQuad a).map Char.toLower = dottedQuad a := by
  have hlower : ∀ c ∈ dottedQuad a, c.toLower = c := by
    intro c hc
    obtain hdigit | rfl := dottedQuad_chars a c hc
    · exact toLower_of_isDigit hdigit
    · rfl
  exact (List.map_congr_left hlower).trans (List.map_id _)

end Inet
