import AtomicMemory.Lib.Inet
import AtomicMemory.Lib.PercentEncoding
import AtomicMemory.Lib.PyValue
import AtomicMemory.Lib.Raises

-- The writer `json.dumps` and the reader `json.loads` of Python's library, on lists of characters,
-- and what the reader makes of what the writer wrote.

open PyValue hiding none

namespace JsonText

def maxDigits : ℕ := 4300

def natText (n : ℕ) : List Char := Nat.toDigits 10 n

/-- `int.__repr__`. -/
def intText (n : ℤ) : List Char := if n < 0 then '-' :: natText n.natAbs else natText n.natAbs

/-- `int` of a text that the reader takes for an integer. -/
def ofIntText : List Char → ℤ
  | '-' :: ds => -(Nat.ofDigitChars 10 ds 0 : ℤ)
  | ds => Nat.ofDigitChars 10 ds 0

/-- A number with a fraction, an exponent or both, as `float.__repr__` writes it. -/
structure Decimal where
  negative : Bool
  whole : ℕ
  fraction : List Char
  exponent : Option (Bool × List Char)
  fraction_digits : ∀ c ∈ fraction, c.isDigit = true
  exponent_digits : ∀ e ∈ exponent, e.2 ≠ [] ∧ ∀ c ∈ e.2, c.isDigit = true
  proper : fraction ≠ [] ∨ exponent.isSome = true

def fractionText (ds : List Char) : List Char := if ds = [] then [] else '.' :: ds

def exponentText : Option (Bool × List Char) → List Char
  | some (negative, ds) => 'e' :: (if negative then '-' else '+') :: ds
  | none => []

def Decimal.text (d : Decimal) : List Char :=
  (if d.negative then ['-'] else []) ++ natText d.whole ++ fractionText d.fraction ++
    exponentText d.exponent

/-- Python's texts for its floats: `float.__repr__`, and `float` of a text, which is `none` of one
whose value is not finite. -/
structure FloatText where
  repr : ℚ → Decimal
  float : List Char → Option ℚ

/-- `float(repr(q)) == q`. -/
def FloatText.Exact (floats : FloatText) (q : ℚ) : Prop :=
  floats.float (floats.repr q).text = some q

def isBlank (c : Char) : Bool := c = ' ' || c = '\t' || c = '\n' || c = '\r'

/-- `separators`: the spaces that follow the comma and the colon. -/
structure Separators where
  comma : List Char
  colon : List Char
  comma_spaces : ∀ c ∈ comma, c = ' '
  colon_spaces : ∀ c ∈ colon, c = ' '

theorem one_space : ∀ c ∈ [' '], c = ' ' := by simp

/-- `(", ", ": ")`. -/
def Separators.spaced : Separators := ⟨[' '], [' '], one_space, one_space⟩

theorem no_space : ∀ c ∈ ([] : List Char), c = ' ' := by simp

/-- `(",", ":")`. -/
def Separators.compact : Separators := ⟨[], [], no_space, no_space⟩

def hexDigit (n : ℕ) : Char := if n < 10 then Char.ofNat (48 + n) else Char.ofNat (87 + n)

def unicodeEscape (n : ℕ) : List Char :=
  ['\\', 'u', hexDigit (n / 4096), hexDigit (n / 256 % 16), hexDigit (n / 16 % 16),
    hexDigit (n % 16)]

def letterEscapes : List (Char × Char) :=
  [('"', '"'), ('\\', '\\'), ('\n', 'n'), ('\r', 'r'), ('\t', 't'), ('\x0c', 'f'), ('\x08', 'b')]

/-- `py_encode_basestring_ascii` of a character. -/
def escapeChar (c : Char) : List Char :=
  match letterEscapes.lookup c with
  | some letter => ['\\', letter]
  | none =>
    if ' ' ≤ c ∧ c ≤ '~' then [c]
    else if c.toNat < 0x10000 then unicodeEscape c.toNat
    else
      let n := c.toNat - 0x10000
      unicodeEscape (0xd800 + n / 1024) ++ unicodeEscape (0xdc00 + n % 1024)

def quoted (s : List Char) : List Char := '"' :: s.flatMap escapeChar ++ ['"']

inductive WriteError
  /-- The `TypeError` of a value that is not JSON. -/
  | typeError
  /-- The `ValueError` of an integer that has too many digits. -/
  | tooManyDigits
  deriving DecidableEq

def writeInt (n : ℤ) : Except WriteError (List Char) :=
  if (natText n.natAbs).length ≤ maxDigits then .ok (intText n) else .error .tooManyDigits

mutual

/-- `json.dumps(v, separators=...)`. -/
def dumps (floats : FloatText) (sep : Separators) : PyValue → Except WriteError (List Char)
  | .none => .ok "null".toList
  | .bool true => .ok "true".toList
  | .bool false => .ok "false".toList
  | .int n => writeInt n
  | .float q => .ok (floats.repr q).text
  | .str s => .ok (quoted s.toList)
  | .list xs => (dumpsElements floats sep xs).map fun text => '[' :: text ++ [']']
  | .dict items => (dumpsMembers floats sep items).map fun text => '\x7b' :: text ++ ['\x7d']
  | .datetime _ => .error .typeError

def dumpsElements (floats : FloatText) (sep : Separators) :
    List PyValue → Except WriteError (List Char)
  | [] => .ok []
  | x :: xs => do
    let text ← dumps floats sep x
    let rest ← dumpsElements floats sep xs
    .ok (text ++ if xs = [] then [] else ',' :: sep.comma ++ rest)

def dumpsMembers (floats : FloatText) (sep : Separators) :
    List (String × PyValue) → Except WriteError (List Char)
  | [] => .ok []
  | (key, x) :: items => do
    let text ← dumps floats sep x
    let rest ← dumpsMembers floats sep items
    .ok (quoted key.toList ++ ':' :: sep.colon ++ text ++
      if items = [] then [] else ',' :: sep.comma ++ rest)

end

inductive ReadError
  | jsonDecodeError
  /-- The `ValueError` of an integer that has too many digits. -/
  | tooManyDigits
  /-- A float that is not finite or half a surrogate pair, of which no `PyValue` is made. -/
  | beyond
  /-- The values are nested deeper than the reader goes. -/
  | tooDeep
  deriving DecidableEq

def skipBlanks (text : List Char) : List Char := text.dropWhile isBlank

/-- `\uXXXX` without its first two characters. -/
def readHex4 : List Char → Option ℕ
  | a :: b :: c :: d :: _ =>
    match PercentEncoding.hexValue a, PercentEncoding.hexValue b, PercentEncoding.hexValue c,
      PercentEncoding.hexValue d with
    | some a, some b, some c, some d => some (4096 * a + 256 * b + 16 * c + d)
    | _, _, _, _ => none
  | _ => none

/-- The character of a surrogate pair, given the high half and the text after it. -/
def readLow (n : ℕ) : List Char → Except ReadError (Char × ℕ)
  | '\\' :: 'u' :: text =>
    match readHex4 text with
    | none => .error .jsonDecodeError
    | some m =>
      if 0xdc00 ≤ m ∧ m ≤ 0xdfff then
        .ok (Char.ofNat (0x10000 + (n - 0xd800) * 1024 + (m - 0xdc00)), 10)
      else .error .beyond
  | _ => .error .beyond

/-- The character of a `\u` escape, given the text after the `u`, and how many characters of
that text stand for it. -/
def readUnicode (text : List Char) : Except ReadError (Char × ℕ) :=
  match readHex4 text with
  | none => .error .jsonDecodeError
  | some n =>
    if 0xd800 ≤ n ∧ n ≤ 0xdbff then readLow n (text.drop 4)
    else if 0xdc00 ≤ n ∧ n ≤ 0xdfff then .error .beyond
    else .ok (Char.ofNat n, 4)

/-- `BACKSLASH`: the characters by the letters of their escapes. -/
def backslash : List (Char × Char) := ('/', '/') :: letterEscapes.map Prod.swap

/-- The character that `c` begins, and how many characters after `c` stand for it. -/
def readUnit (c : Char) (rest : List Char) : Except ReadError (Char × ℕ) :=
  if c = '\\' then
    match rest with
    | [] => .error .jsonDecodeError
    | letter :: rest =>
      if letter = 'u' then (readUnicode rest).map fun unit => (unit.1, unit.2 + 1)
      else
        match backslash.lookup letter with
        | some d => .ok (d, 1)
        | none => .error .jsonDecodeError
  else if c.toNat < 0x20 then .error .jsonDecodeError
  else .ok (c, 0)

/-- `scanstring` from the opening quote on, of which `skip` characters have been read. -/
def readStringFrom : ℕ → List Char → Except ReadError (List Char × List Char)
  | _, [] => .error .jsonDecodeError
  | skip + 1, _ :: rest => readStringFrom skip rest
  | 0, c :: rest =>
    if c = '"' then .ok ([], rest)
    else do
      let (d, skip) ← readUnit c rest
      let (s, rest) ← readStringFrom skip rest
      .ok (d :: s, rest)

def readString (text : List Char) : Except ReadError (String × List Char) :=
  (readStringFrom 0 text).map fun (s, rest) => (String.ofList s, rest)

/-- `0|[1-9][0-9]*`. -/
def scanNat : List Char → Option (List Char × List Char)
  | '0' :: rest => some (['0'], rest)
  | text =>
    if text.takeWhile Char.isDigit = [] then none
    else some (text.takeWhile Char.isDigit, text.dropWhile Char.isDigit)

/-- `-?(?:0|[1-9][0-9]*)`. -/
def scanInteger : List Char → Option (List Char × List Char)
  | '-' :: rest => (scanNat rest).map fun (ds, rest) => ('-' :: ds, rest)
  | text => scanNat text

/-- `(\.[0-9]+)?`. -/
def scanFraction : List Char → List Char × List Char
  | '.' :: rest =>
    if rest.takeWhile Char.isDigit = [] then ([], '.' :: rest)
    else ('.' :: rest.takeWhile Char.isDigit, rest.dropWhile Char.isDigit)
  | text => ([], text)

/-- `[-+]?`. -/
def scanSign : List Char → List Char × List Char
  | '-' :: rest => (['-'], rest)
  | '+' :: rest => (['+'], rest)
  | text => ([], text)

/-- `([eE][-+]?[0-9]+)?`. -/
def scanExponent (text : List Char) : List Char × List Char :=
  match text with
  | e :: rest =>
    let (sign, rest) := scanSign rest
    if (e = 'e' ∨ e = 'E') ∧ rest.takeWhile Char.isDigit ≠ [] then
      (e :: sign ++ rest.takeWhile Char.isDigit, rest.dropWhile Char.isDigit)
    else ([], text)
  | [] => ([], text)

def readNumber (floats : FloatText) (text : List Char) : Except ReadError (PyValue × List Char) :=
  match scanInteger text with
  | none => .error .jsonDecodeError
  | some (integer, rest) =>
    let (fraction, rest) := scanFraction rest
    let (exponent, rest) := scanExponent rest
    if fraction = [] ∧ exponent = [] then
      if (integer.filter Char.isDigit).length ≤ maxDigits then .ok (.int (ofIntText integer), rest)
      else .error .tooManyDigits
    else
      match floats.float (integer ++ fraction ++ exponent) with
      | some q => .ok (.float q, rest)
      | none => .error .beyond

def constants : List (List Char × Option PyValue) :=
  [("null".toList, some .none), ("true".toList, some (.bool true)),
    ("false".toList, some (.bool false)), ("NaN".toList, none), ("Infinity".toList, none),
    ("-Infinity".toList, none)]

def readConstant (text : List Char) : Option (Except ReadError (PyValue × List Char)) :=
  (constants.find? fun constant => constant.1.isPrefixOf text).map fun constant =>
    match constant.2 with
    | some v => .ok (v, text.drop constant.1.length)
    | none => .error .beyond

/-- `d[key] = v`. -/
def assign (d : Items) (key : String) (v : PyValue) : Items :=
  if key ∈ d.keys then d.update key fun _ => v else d ++ [(key, v)]

def dictOf (members : Items) : Items := members.foldl (fun d m => assign d m.1 m.2) []

mutual

/-- `scan_once`, for values nested no deeper than the fuel allows. -/
def readValue (floats : FloatText) : ℕ → List Char → Except ReadError (PyValue × List Char)
  | 0, _ => .error .tooDeep
  | _ + 1, [] => .error .jsonDecodeError
  | fuel + 1, c :: rest =>
    if c = '"' then (readString rest).map fun (s, rest) => (.str s, rest)
    else if c = '[' then
      match skipBlanks rest with
      | ']' :: rest => .ok (.list [], rest)
      | rest => (readElements floats fuel rest).map fun (xs, rest) => (.list xs, rest)
    else if c = '\x7b' then
      match skipBlanks rest with
      | '\x7d' :: rest => .ok (.dict [], rest)
      | rest => (readMembers floats fuel rest).map fun (items, rest) => (.dict (dictOf items), rest)
    else
      match readConstant (c :: rest) with
      | some result => result
      | none => readNumber floats (c :: rest)

/-- The elements of an array that is not empty, and its closing bracket. -/
def readElements (floats : FloatText) :
    ℕ → List Char → Except ReadError (List PyValue × List Char)
  | 0, _ => .error .tooDeep
  | fuel + 1, text => do
    let (x, rest) ← readValue floats fuel text
    match skipBlanks rest with
    | ']' :: rest => .ok ([x], rest)
    | ',' :: rest =>
      let (xs, rest) ← readElements floats fuel (skipBlanks rest)
      .ok (x :: xs, rest)
    | _ => .error .jsonDecodeError

/-- The members of an object that is not empty, and its closing brace. -/
def readMembers (floats : FloatText) :
    ℕ → List Char → Except ReadError (Items × List Char)
  | fuel + 1, '"' :: text => do
    let (key, rest) ← readString text
    match skipBlanks rest with
    | ':' :: rest =>
      let (x, rest) ← readValue floats fuel (skipBlanks rest)
      match skipBlanks rest with
      | '\x7d' :: rest => .ok ([(key, x)], rest)
      | ',' :: rest =>
        let (items, rest) ← readMembers floats fuel (skipBlanks rest)
        .ok ((key, x) :: items, rest)
      | _ => .error .jsonDecodeError
    | _ => .error .jsonDecodeError
  | 0, _ => .error .tooDeep
  | _, _ => .error .jsonDecodeError

end

/-- `json.loads`. -/
def loads (floats : FloatText) (text : List Char) : Except ReadError PyValue := do
  let (v, rest) ← readValue floats (2 * text.length + 1) (skipBlanks text)
  if skipBlanks rest = [] then .ok v else .error .jsonDecodeError

theorem hexValue_hexDigit {n : ℕ} (h : n < 16) :
    PercentEncoding.hexValue (hexDigit n) = some n := by
  have hall : ∀ n < 16, PercentEncoding.hexValue (hexDigit n) = some n := by decide
  exact hall n h

theorem readHex4_hexDigits {n : ℕ} (h : n < 0x10000) (rest : List Char) :
    readHex4 (hexDigit (n / 4096) :: hexDigit (n / 256 % 16) :: hexDigit (n / 16 % 16) ::
      hexDigit (n % 16) :: rest) = some n := by
  rw [readHex4, hexValue_hexDigit (by omega), hexValue_hexDigit (by omega),
    hexValue_hexDigit (by omega), hexValue_hexDigit (by omega)]
  refine congrArg some ?_
  omega

theorem readUnit_unicodeEscape {n : ℕ} (h : n < 0xd800 ∨ 0xdfff < n) (hn : n < 0x10000)
    (rest : List Char) :
    readUnit '\\' ((unicodeEscape n).tail ++ rest) = .ok (Char.ofNat n, 5) := by
  show Except.map _ (readUnicode (hexDigit _ :: hexDigit _ :: hexDigit _ :: hexDigit _ :: rest)) = _
  rw [readUnicode, readHex4_hexDigits hn]
  dsimp only
  rw [if_neg (by omega), if_neg (by omega)]
  rfl

theorem readUnit_surrogates {n m : ℕ} (hn : 0xd800 ≤ n ∧ n ≤ 0xdbff)
    (hm : 0xdc00 ≤ m ∧ m ≤ 0xdfff) (rest : List Char) :
    readUnit '\\' ((unicodeEscape n).tail ++ unicodeEscape m ++ rest) =
      .ok (Char.ofNat (0x10000 + (n - 0xd800) * 1024 + (m - 0xdc00)), 11) := by
  show Except.map _ (readUnicode (hexDigit _ :: hexDigit _ :: hexDigit _ :: hexDigit _ ::
    '\\' :: 'u' :: hexDigit _ :: hexDigit _ :: hexDigit _ :: hexDigit _ :: rest)) = _
  rw [readUnicode, readHex4_hexDigits (by omega)]
  dsimp only
  rw [if_pos hn, List.drop_succ_cons, List.drop_succ_cons, List.drop_succ_cons,
    List.drop_succ_cons, List.drop_zero, readLow, readHex4_hexDigits (by omega)]
  dsimp only
  rw [if_pos hm]
  simp only [Except.map]

/-- What `d :: ds` stands for whatever comes after it. -/
def Spells (d : Char) (ds : List Char) (c : Char) : Prop :=
  d ≠ '"' ∧ ∀ rest, readUnit d (ds ++ rest) = .ok (c, ds.length)

theorem spells_letter {c letter : Char} (h : (c, letter) ∈ letterEscapes) :
    Spells '\\' [letter] c := by
  have hall : ∀ p ∈ letterEscapes, p.2 ≠ 'u' ∧ backslash.lookup p.2 = some p.1 := by decide
  obtain ⟨hu, hlookup⟩ := hall (c, letter) h
  refine ⟨by decide, fun rest => ?_⟩
  rw [List.singleton_append]
  unfold readUnit
  rw [if_pos rfl]
  dsimp only
  rw [if_neg hu, hlookup]
  rfl

theorem escapeChar_spells (c : Char) :
    ∃ d ds, escapeChar c = d :: ds ∧ Spells d ds c := by
  unfold escapeChar
  split
  · rename_i letter hlookup
    obtain ⟨before, after, heq, -⟩ := List.lookup_eq_some_iff.mp hlookup
    exact ⟨'\\', [letter], rfl, spells_letter (heq ▸ by simp)⟩
  · rename_i hlookup
    have hbackslash : c ≠ '\\' := by
      intro h
      rw [h] at hlookup
      exact absurd hlookup (by decide)
    have hquote : c ≠ '"' := by
      intro h
      rw [h] at hlookup
      exact absurd hlookup (by decide)
    split
    · rename_i hprintable
      refine ⟨c, [], rfl, hquote, fun rest => ?_⟩
      have hge : ¬ c.toNat < 0x20 := Nat.not_lt.mpr hprintable.1
      unfold readUnit
      rw [if_neg hbackslash, if_neg hge]
      rfl
    · have hvalid : c.toNat < 0xd800 ∨ 0xdfff < c.toNat ∧ c.toNat < 0x110000 := c.valid
      split
      · rename_i hsmall
        refine ⟨'\\', (unicodeEscape c.toNat).tail, rfl, by decide, fun rest => ?_⟩
        rw [readUnit_unicodeEscape (hvalid.imp_right And.left) hsmall, Char.ofNat_toNat]
        rfl
      · rename_i hlarge
        have hn : c.toNat < 0x110000 := by omega
        refine ⟨'\\', (unicodeEscape (0xd800 + (c.toNat - 0x10000) / 1024)).tail ++
          unicodeEscape (0xdc00 + (c.toNat - 0x10000) % 1024), rfl, by decide, fun rest => ?_⟩
        rw [readUnit_surrogates (by omega) (by omega)]
        have hvalue : 0x10000 + (0xd800 + (c.toNat - 0x10000) / 1024 - 0xd800) * 1024 +
            (0xdc00 + (c.toNat - 0x10000) % 1024 - 0xdc00) = c.toNat := by omega
        rw [hvalue, Char.ofNat_toNat]
        rfl

theorem readStringFrom_eq_drop (skip : ℕ) (text : List Char) :
    readStringFrom skip text = readStringFrom 0 (text.drop skip) := by
  induction text generalizing skip with
  | nil => cases skip <;> rfl
  | cons c rest ih =>
    cases skip with
    | zero => rfl
    | succ skip => exact ih skip

theorem readStringFrom_spells {d c : Char} {ds : List Char} (h : Spells d ds c)
    {rest s rest' : List Char} (hrest : readStringFrom 0 rest = .ok (s, rest')) :
    readStringFrom 0 (d :: ds ++ rest) = .ok (c :: s, rest') := by
  rw [List.cons_append, readStringFrom, if_neg h.1, h.2 rest]
  show (readStringFrom ds.length (ds ++ rest) >>= _) = _
  rw [readStringFrom_eq_drop, List.drop_left, hrest]
  rfl

theorem readStringFrom_escaped (s rest : List Char) :
    readStringFrom 0 (s.flatMap escapeChar ++ '"' :: rest) = .ok (s, rest) := by
  induction s with
  | nil => rfl
  | cons c s ih =>
    obtain ⟨d, ds, heq, hspells⟩ := escapeChar_spells c
    rw [List.flatMap_cons, heq, List.append_assoc]
    exact readStringFrom_spells hspells ih

theorem readString_quoted (s : String) (rest : List Char) :
    ∃ text, quoted s.toList ++ rest = '"' :: text ∧ readString text = .ok (s, rest) := by
  refine ⟨s.toList.flatMap escapeChar ++ '"' :: rest, ?_, ?_⟩
  · rw [quoted, List.append_assoc, List.cons_append]
    rfl
  · rw [readString, readStringFrom_escaped]
    exact congrArg Except.ok (Prod.ext String.ofList_toList rfl)

def NoDigit (rest : List Char) : Prop := ∀ c ∈ rest.head?, c.isDigit = false

theorem takeWhile_digits {ds rest : List Char} (hds : ∀ c ∈ ds, c.isDigit = true)
    (hrest : NoDigit rest) : (ds ++ rest).takeWhile Char.isDigit = ds := by
  rw [List.takeWhile_append_of_pos hds]
  cases rest with
  | nil => exact List.append_nil ds
  | cons c rest =>
    have hc : c.isDigit = false := hrest c rfl
    rw [List.takeWhile_cons, hc]
    exact List.append_nil ds

theorem dropWhile_digits {ds rest : List Char} (hds : ∀ c ∈ ds, c.isDigit = true)
    (hrest : NoDigit rest) : (ds ++ rest).dropWhile Char.isDigit = rest := by
  rw [List.dropWhile_append_of_pos hds]
  cases rest with
  | nil => rfl
  | cons c rest =>
    have hc : c.isDigit = false := hrest c rfl
    rw [List.dropWhile_cons, hc]
    rfl

theorem natText_digits (n : ℕ) : ∀ c ∈ natText n, c.isDigit = true := by
  intro c hc
  exact Nat.isDigit_of_mem_toDigits (by decide) (by decide) hc

theorem ne_of_isDigit {c d : Char} (hc : c.isDigit = true) (hd : d.isDigit = false) : c ≠ d := by
  rintro rfl
  rw [hc] at hd
  cases hd

theorem natText_ne_nil (n : ℕ) : natText n ≠ [] := Nat.toDigits_ne_nil

theorem natText_cons (n : ℕ) : ∃ c ds, natText n = c :: ds ∧ c.isDigit = true := by
  cases h : natText n with
  | nil => exact absurd h (natText_ne_nil n)
  | cons c ds => exact ⟨c, ds, rfl, natText_digits n c (h ▸ List.mem_cons_self)⟩

theorem scanNat_natText (n : ℕ) {rest : List Char} (hrest : NoDigit rest) :
    scanNat (natText n ++ rest) = some (natText n, rest) := by
  cases n with
  | zero => rfl
  | succ n =>
    obtain ⟨c, ds, heq, -⟩ := natText_cons (n + 1)
    have hzero : c ≠ '0' := by
      rintro rfl
      exact Inet.head_toDigits (Nat.succ_pos n) (by rw [← natText, heq]; rfl)
    have hscan : scanNat (c :: (ds ++ rest)) =
        if (c :: (ds ++ rest)).takeWhile Char.isDigit = [] then none
        else some ((c :: (ds ++ rest)).takeWhile Char.isDigit,
          (c :: (ds ++ rest)).dropWhile Char.isDigit) := by
      unfold scanNat
      split
      · rename_i h
        exact absurd (List.cons.inj h).1 hzero
      · rfl
    rw [heq, List.cons_append, hscan, ← List.cons_append, ← heq,
      takeWhile_digits (natText_digits _) hrest, dropWhile_digits (natText_digits _) hrest,
      if_neg (natText_ne_nil _)]

theorem scanInteger_natText (n : ℕ) {rest : List Char} (hrest : NoDigit rest) :
    scanInteger (natText n ++ rest) = some (natText n, rest) := by
  obtain ⟨c, ds, heq, hc⟩ := natText_cons n
  rw [← scanNat_natText n hrest, heq]
  unfold scanInteger
  split
  · rename_i h
    exact absurd (List.cons.inj h).1 (ne_of_isDigit hc (by decide))
  · rfl

def signed (negative : Bool) (n : ℕ) : List Char := (if negative then ['-'] else []) ++ natText n

theorem intText_eq (n : ℤ) : intText n = signed (decide (n < 0)) n.natAbs := by
  unfold intText signed
  by_cases h : n < 0
  · rw [if_pos h, decide_eq_true h]
    rfl
  · rw [if_neg h, decide_eq_false h]
    rfl

theorem scanInteger_signed (negative : Bool) (n : ℕ) {rest : List Char} (hrest : NoDigit rest) :
    scanInteger (signed negative n ++ rest) = some (signed negative n, rest) := by
  cases negative with
  | false => exact scanInteger_natText n hrest
  | true =>
    show (scanNat (natText n ++ rest)).map _ = _
    rw [scanNat_natText n hrest]
    rfl

theorem signed_digits (negative : Bool) (n : ℕ) :
    (signed negative n).filter Char.isDigit = natText n := by
  have hall := List.filter_eq_self.mpr (natText_digits n)
  cases negative with
  | false => exact hall
  | true => exact hall

theorem ofIntText_intText (n : ℤ) : ofIntText (intText n) = n := by
  unfold intText
  split
  · rename_i h
    rw [ofIntText, natText, Nat.ofDigitChars_ten_toDigits]
    omega
  · rename_i h
    obtain ⟨c, ds, heq, hc⟩ := natText_cons n.natAbs
    have hvalue : ofIntText (natText n.natAbs) = Nat.ofDigitChars 10 (natText n.natAbs) 0 := by
      rw [heq]
      unfold ofIntText
      split
      · rename_i hminus
        exact absurd (List.cons.inj hminus).1 (ne_of_isDigit hc (by decide))
      · rfl
    rw [hvalue, natText, Nat.ofDigitChars_ten_toDigits]
    omega

/-- What may come after a number without being taken for a part of it. -/
def Delimited (rest : List Char) : Prop :=
  ∀ c ∈ rest.head?, c.isDigit = false ∧ c ≠ '.' ∧ c ≠ 'e' ∧ c ≠ 'E'

theorem Delimited.noDigit {rest : List Char} (h : Delimited rest) : NoDigit rest :=
  fun c hc => (h c hc).1

theorem delimited_nil : Delimited [] := by
  intro c hc
  cases hc

theorem delimited_cons {c : Char} (hc : c = ',' ∨ c = ']' ∨ c = '\x7d') (rest : List Char) :
    Delimited (c :: rest) := by
  intro d hd
  obtain rfl : c = d := Option.some.inj hd
  rcases hc with rfl | rfl | rfl <;> decide

theorem scanFraction_skip {rest : List Char} (h : ∀ c ∈ rest.head?, c ≠ '.') :
    scanFraction rest = ([], rest) := by
  unfold scanFraction
  split
  · exact absurd rfl (h '.' rfl)
  · rfl

theorem scanFraction_text {ds rest : List Char} (hds : ∀ c ∈ ds, c.isDigit = true)
    (hrest : NoDigit rest) (hdot : ∀ c ∈ rest.head?, c ≠ '.') :
    scanFraction (fractionText ds ++ rest) = (fractionText ds, rest) := by
  unfold fractionText
  split
  · exact scanFraction_skip hdot
  · rename_i hne
    rw [List.cons_append, scanFraction, takeWhile_digits hds hrest, dropWhile_digits hds hrest,
      if_neg hne]

theorem scanExponent_skip {rest : List Char} (h : ∀ c ∈ rest.head?, c ≠ 'e' ∧ c ≠ 'E') :
    scanExponent rest = ([], rest) := by
  cases rest with
  | nil => rfl
  | cons c rest =>
    obtain ⟨he, hE⟩ := h c rfl
    have hnot : ¬ (c = 'e' ∨ c = 'E') := not_or.mpr ⟨he, hE⟩
    unfold scanExponent
    dsimp only
    rw [if_neg fun h => hnot h.1]

theorem scanExponent_text {e : Option (Bool × List Char)} {rest : List Char}
    (he : ∀ x ∈ e, x.2 ≠ [] ∧ ∀ c ∈ x.2, c.isDigit = true) (hrest : Delimited rest) :
    scanExponent (exponentText e ++ rest) = (exponentText e, rest) := by
  cases e with
  | none => exact scanExponent_skip fun c hc => (hrest c hc).2.2
  | some x =>
    obtain ⟨negative, ds⟩ := x
    obtain ⟨hne, hds⟩ := he _ rfl
    have hsign : scanSign ((if negative then '-' else '+') :: (ds ++ rest)) =
        ([if negative then '-' else '+'], ds ++ rest) := by
      cases negative <;> rfl
    rw [exponentText, List.cons_append, List.cons_append, scanExponent, hsign]
    dsimp only
    rw [takeWhile_digits hds hrest.noDigit, dropWhile_digits hds hrest.noDigit,
      if_pos ⟨.inl rfl, hne⟩]
    rfl

theorem readNumber_intText (floats : FloatText) {n : ℤ}
    (hn : (natText n.natAbs).length ≤ maxDigits) {rest : List Char} (hrest : Delimited rest) :
    readNumber floats (intText n ++ rest) = .ok (.int n, rest) := by
  have hvalue := ofIntText_intText n
  rw [intText_eq] at hvalue ⊢
  unfold readNumber
  rw [scanInteger_signed _ _ hrest.noDigit]
  dsimp only
  rw [scanFraction_skip fun c hc => (hrest c hc).2.1]
  dsimp only
  rw [scanExponent_skip fun c hc => (hrest c hc).2.2]
  dsimp only
  rw [if_pos ⟨rfl, rfl⟩, signed_digits, if_pos hn, hvalue]

theorem exponentText_head {e : Option (Bool × List Char)} {rest : List Char}
    (hrest : Delimited rest) :
    ∀ c ∈ (exponentText e ++ rest).head?, c.isDigit = false ∧ c ≠ '.' := by
  intro c hc
  cases e with
  | none => exact ⟨(hrest c hc).1, (hrest c hc).2.1⟩
  | some x =>
    obtain rfl : 'e' = c := Option.some.inj hc
    decide

theorem fractionText_noDigit {ds rest : List Char} (hrest : NoDigit rest) :
    NoDigit (fractionText ds ++ rest) := by
  intro c hc
  unfold fractionText at hc
  split at hc
  · exact hrest c hc
  · obtain rfl : '.' = c := Option.some.inj hc
    decide

theorem Decimal.text_eq (d : Decimal) : d.text =
    signed d.negative d.whole ++ (fractionText d.fraction ++ exponentText d.exponent) :=
  List.append_assoc _ _ _

theorem Decimal.not_integer (d : Decimal) :
    ¬ (fractionText d.fraction = [] ∧ exponentText d.exponent = []) := by
  rintro ⟨hf, he⟩
  rcases d.proper with h | h
  · rw [fractionText, if_neg h] at hf
    cases hf
  · obtain ⟨x, hx⟩ := Option.isSome_iff_exists.mp h
    rw [hx] at he
    cases he

theorem readNumber_decimal {floats : FloatText} {d : Decimal} {q : ℚ}
    (hq : floats.float d.text = some q) {rest : List Char} (hrest : Delimited rest) :
    readNumber floats (d.text ++ rest) = .ok (.float q, rest) := by
  have hhead := exponentText_head (e := d.exponent) hrest
  have hdigit : NoDigit (exponentText d.exponent ++ rest) := fun c hc => (hhead c hc).1
  rw [Decimal.text_eq, ← List.append_assoc] at hq
  rw [Decimal.text_eq, List.append_assoc, List.append_assoc]
  unfold readNumber
  rw [scanInteger_signed _ _ (fractionText_noDigit hdigit)]
  dsimp only
  rw [scanFraction_text d.fraction_digits hdigit fun c hc => (hhead c hc).2]
  dsimp only
  rw [scanExponent_text d.exponent_digits hrest]
  dsimp only
  rw [if_neg d.not_integer, hq]

def BeginsNumber (text : List Char) : Prop :=
  ∃ d rest, d.isDigit = true ∧ (text = d :: rest ∨ text = '-' :: d :: rest)

theorem signed_begins (negative : Bool) (n : ℕ) (rest : List Char) :
    BeginsNumber (signed negative n ++ rest) := by
  obtain ⟨d, ds, heq, hd⟩ := natText_cons n
  refine ⟨d, ds ++ rest, hd, ?_⟩
  rw [signed, heq]
  cases negative with
  | false => exact .inl rfl
  | true => exact .inr rfl

theorem readConstant_number {text : List Char} (h : BeginsNumber text) :
    readConstant text = none := by
  obtain ⟨d, rest, hd, h⟩ := h
  have hne {c : Char} (hc : c.isDigit = false) : (c == d) = false :=
    beq_eq_false_iff_ne.mpr (ne_of_isDigit hd hc).symm
  have hnot : ∀ constant ∈ constants, constant.1.isPrefixOf text = false := by
    rcases h with rfl | rfl
    · simp [constants, List.isPrefixOf, hne]
    · simp [constants, List.isPrefixOf, hne]
  unfold readConstant
  rw [List.find?_eq_none.mpr fun constant hmem => by simp [hnot constant hmem]]
  rfl

def BeginsValue (text : List Char) : Prop :=
  ∃ c rest, text = c :: rest ∧ isBlank c = false ∧ c ≠ ']'

theorem BeginsNumber.value {text : List Char} (h : BeginsNumber text) : BeginsValue text := by
  obtain ⟨d, rest, hd, rfl | rfl⟩ := h
  · refine ⟨d, rest, rfl, ?_, ne_of_isDigit hd (by decide)⟩
    have hne {c : Char} (hc : c.isDigit = false) : d ≠ c := ne_of_isDigit hd hc
    simp [isBlank, hne]
  · exact ⟨'-', d :: rest, rfl, by decide, by decide⟩

theorem BeginsValue.append {text : List Char} (h : BeginsValue text) (rest : List Char) :
    BeginsValue (text ++ rest) := by
  obtain ⟨c, text', rfl, hc⟩ := h
  exact ⟨c, text' ++ rest, rfl, hc⟩

theorem skipBlanks_cons {c : Char} (h : isBlank c = false) (rest : List Char) :
    skipBlanks (c :: rest) = c :: rest := by
  rw [skipBlanks, List.dropWhile_cons, h]
  rfl

theorem BeginsValue.skipBlanks {text : List Char} (h : BeginsValue text) :
    skipBlanks text = text := by
  obtain ⟨c, rest, rfl, hc, -⟩ := h
  exact skipBlanks_cons hc rest

theorem skipBlanks_append {spaces : List Char} (h : ∀ c ∈ spaces, c = ' ') {text : List Char}
    (htext : BeginsValue text) : skipBlanks (spaces ++ text) = text := by
  have hblank : ∀ c ∈ spaces, isBlank c = true := by
    intro c hc
    rw [h c hc]
    decide
  rw [JsonText.skipBlanks, List.dropWhile_append_of_pos hblank]
  exact htext.skipBlanks

variable {floats : FloatText} {sep : Separators}

theorem writeInt_ok {n : ℤ} {text : List Char} (h : writeInt n = .ok text) :
    (natText n.natAbs).length ≤ maxDigits ∧ text = intText n := by
  unfold writeInt at h
  split at h
  · rename_i hn
    exact ⟨hn, (Except.ok.inj h).symm⟩
  · cases h

theorem dumps_begins {v : PyValue} {text : List Char} (h : dumps floats sep v = .ok text) :
    BeginsValue text := by
  cases v with
  | none =>
    cases h
    exact ⟨'n', _, rfl, by decide, by decide⟩
  | bool b =>
    cases b with
    | true =>
      cases h
      exact ⟨'t', _, rfl, by decide, by decide⟩
    | false =>
      cases h
      exact ⟨'f', _, rfl, by decide, by decide⟩
  | int n =>
    obtain ⟨-, rfl⟩ := writeInt_ok h
    rw [intText_eq, ← List.append_nil (signed _ _)]
    exact (signed_begins _ _ _).value
  | float q =>
    cases h
    rw [Decimal.text_eq]
    exact (signed_begins _ _ _).value
  | str s =>
    cases h
    exact ⟨'"', _, rfl, by decide, by decide⟩
  | list xs =>
    obtain ⟨text', -, rfl⟩ := Except.of_map_ok h
    exact ⟨'[', _, rfl, by decide, by decide⟩
  | dict items =>
    obtain ⟨text', -, rfl⟩ := Except.of_map_ok h
    exact ⟨'\x7b', _, rfl, by decide, by decide⟩
  | datetime d => cases h

mutual

/-- A value that Python can hold: its floats are floats, and no dict of it has a key twice. -/
def Proper (floats : FloatText) : PyValue → Prop
  | .float q => floats.Exact q
  | .list xs => ProperElements floats xs
  | .dict items => (Items.keys items).Nodup ∧ ProperMembers floats items
  | _ => True

def ProperElements (floats : FloatText) : List PyValue → Prop
  | [] => True
  | x :: xs => Proper floats x ∧ ProperElements floats xs

def ProperMembers (floats : FloatText) : List (String × PyValue) → Prop
  | [] => True
  | (_, x) :: items => Proper floats x ∧ ProperMembers floats items

end

theorem properMembers_iff {floats : FloatText} (items : Items) :
    ProperMembers floats items ↔ ∀ item ∈ items, Proper floats item.2 := by
  induction items with
  | nil => exact ⟨fun _ => List.forall_mem_nil _, fun _ => trivial⟩
  | cons item items ih => rw [ProperMembers, ih, List.forall_mem_cons]

theorem foldl_assign {d members : Items} (h : (d ++ members).keys.Nodup) :
    members.foldl (fun d m => assign d m.1 m.2) d = d ++ members := by
  induction members generalizing d with
  | nil => exact (List.append_nil d).symm
  | cons m members ih =>
    have hm : m.1 ∉ d.keys := by
      intro hmem
      rw [Items.keys, List.map_append, List.map_cons] at h
      exact (List.nodup_append.mp h).2.2 _ hmem _ List.mem_cons_self rfl
    rw [List.foldl_cons, assign, if_neg hm, ih (by simpa using h), List.append_assoc]
    rfl

theorem dictOf_eq {members : Items} (h : members.keys.Nodup) : dictOf members = members :=
  foldl_assign h

theorem readValue_constant {text rest : List Char} {v : PyValue} {fuel : ℕ}
    (h : (text, v) ∈ [("null".toList, PyValue.none), ("true".toList, .bool true),
      ("false".toList, .bool false)]) :
    readValue floats (fuel + 1) (text ++ rest) = .ok (v, rest) := by
  simp only [List.mem_cons, Prod.mk.injEq, List.not_mem_nil, or_false] at h
  rcases h with ⟨rfl, rfl⟩ | ⟨rfl, rfl⟩ | ⟨rfl, rfl⟩ <;> rfl

theorem readValue_number {text : List Char} (h : BeginsNumber text) (fuel : ℕ) :
    readValue floats (fuel + 1) text = readNumber floats text := by
  have hconstant := readConstant_number h
  obtain ⟨d, rest, hd, rfl | rfl⟩ := h
  · rw [readValue, if_neg (ne_of_isDigit hd (by decide)), if_neg (ne_of_isDigit hd (by decide)),
      if_neg (ne_of_isDigit hd (by decide)), hconstant]
  · rw [readValue, if_neg (by decide), if_neg (by decide), if_neg (by decide), hconstant]

theorem readValue_str (s : String) (fuel : ℕ) (rest : List Char) :
    readValue floats (fuel + 1) (quoted s.toList ++ rest) = .ok (.str s, rest) := by
  obtain ⟨text, heq, hread⟩ := readString_quoted s rest
  rw [heq, readValue, if_pos rfl, hread]
  rfl

theorem readValue_list {text rest : List Char} {xs : List PyValue} {fuel : ℕ}
    (htext : BeginsValue text) (h : readElements floats fuel text = .ok (xs, rest)) :
    readValue floats (fuel + 1) ('[' :: text) = .ok (.list xs, rest) := by
  rw [readValue, if_neg (by decide), if_pos rfl, htext.skipBlanks]
  obtain ⟨c, text', rfl, -, hc⟩ := htext
  split
  · rename_i heq
    exact absurd (List.cons.inj heq).1 hc
  · rw [h]
    rfl

theorem readValue_dict {text rest : List Char} {items : Items} {fuel : ℕ}
    (h : readMembers floats fuel ('"' :: text) = .ok (items, rest)) :
    readValue floats (fuel + 1) ('\x7b' :: '"' :: text) = .ok (.dict (dictOf items), rest) := by
  rw [readValue, if_neg (by decide), if_neg (by decide), if_pos rfl,
    skipBlanks_cons (by decide)]
  show Except.map _ (readMembers floats fuel ('"' :: text)) = _
  rw [h]
  rfl

theorem readElements_last {text rest : List Char} {x : PyValue} {fuel : ℕ}
    (h : readValue floats fuel text = .ok (x, ']' :: rest)) :
    readElements floats (fuel + 1) text = .ok ([x], rest) := by
  rw [readElements]
  refine Except.bind_intro h ?_
  dsimp only
  rw [skipBlanks_cons (by decide)]
  rfl

theorem readElements_more {text text' rest : List Char} {x : PyValue} {xs : List PyValue}
    {fuel : ℕ} (h : readValue floats fuel text = .ok (x, ',' :: sep.comma ++ text'))
    (htext' : BeginsValue text') (hrest : readElements floats fuel text' = .ok (xs, rest)) :
    readElements floats (fuel + 1) text = .ok (x :: xs, rest) := by
  rw [readElements]
  refine Except.bind_intro h ?_
  dsimp only
  rw [List.cons_append, skipBlanks_cons (by decide)]
  show (readElements floats fuel (skipBlanks (sep.comma ++ text')) >>= _) = _
  rw [skipBlanks_append sep.comma_spaces htext', hrest]
  rfl

theorem readMembers_last {key : String} {text rest : List Char} {x : PyValue} {fuel : ℕ}
    (htext : BeginsValue text) (h : readValue floats fuel text = .ok (x, '\x7d' :: rest)) :
    readMembers floats (fuel + 1) (quoted key.toList ++ ':' :: sep.colon ++ text) =
      .ok ([(key, x)], rest) := by
  obtain ⟨text', heq, hread⟩ := readString_quoted key (':' :: sep.colon ++ text)
  rw [List.append_assoc, heq, readMembers]
  refine Except.bind_intro hread ?_
  dsimp only
  rw [List.cons_append, skipBlanks_cons (by decide)]
  show (readValue floats fuel (skipBlanks (sep.colon ++ text)) >>= _) = _
  rw [skipBlanks_append sep.colon_spaces htext]
  refine Except.bind_intro h ?_
  dsimp only
  rw [skipBlanks_cons (by decide)]
  rfl

theorem readMembers_more {key : String} {text text' rest : List Char} {x : PyValue}
    {items : Items} {fuel : ℕ} (htext : BeginsValue text)
    (h : readValue floats fuel text = .ok (x, ',' :: sep.comma ++ text'))
    (htext' : BeginsValue text') (hrest : readMembers floats fuel text' = .ok (items, rest)) :
    readMembers floats (fuel + 1) (quoted key.toList ++ ':' :: sep.colon ++ text) =
      .ok ((key, x) :: items, rest) := by
  obtain ⟨text'', heq, hread⟩ := readString_quoted key (':' :: sep.colon ++ text)
  rw [List.append_assoc, heq, readMembers]
  refine Except.bind_intro hread ?_
  dsimp only
  rw [List.cons_append, skipBlanks_cons (by decide)]
  show (readValue floats fuel (skipBlanks (sep.colon ++ text)) >>= _) = _
  rw [skipBlanks_append sep.colon_spaces htext]
  refine Except.bind_intro h ?_
  dsimp only
  rw [List.cons_append, skipBlanks_cons (by decide)]
  show (readMembers floats fuel (skipBlanks (sep.comma ++ text')) >>= _) = _
  rw [skipBlanks_append sep.comma_spaces htext', hrest]
  rfl

theorem dumpsElements_cons {x : PyValue} {xs : List PyValue} {text : List Char}
    (h : dumpsElements floats sep (x :: xs) = .ok text) :
    ∃ first rest, dumps floats sep x = .ok first ∧ dumpsElements floats sep xs = .ok rest ∧
      text = first ++ if xs = [] then [] else ',' :: sep.comma ++ rest := by
  obtain ⟨first, hfirst, h⟩ := Except.bind_ok h
  obtain ⟨rest, hrest, h⟩ := Except.bind_ok h
  exact ⟨first, rest, hfirst, hrest, (Except.ok.inj h).symm⟩

theorem dumpsMembers_cons {key : String} {x : PyValue} {items : Items} {text : List Char}
    (h : dumpsMembers floats sep ((key, x) :: items) = .ok text) :
    ∃ value rest, dumps floats sep x = .ok value ∧ dumpsMembers floats sep items = .ok rest ∧
      text = quoted key.toList ++ ':' :: sep.colon ++ value ++
        if items = [] then [] else ',' :: sep.comma ++ rest := by
  obtain ⟨value, hvalue, h⟩ := Except.bind_ok h
  obtain ⟨rest, hrest, h⟩ := Except.bind_ok h
  exact ⟨value, rest, hvalue, hrest, (Except.ok.inj h).symm⟩

theorem dumpsElements_begins {x : PyValue} {xs : List PyValue} {text : List Char}
    (h : dumpsElements floats sep (x :: xs) = .ok text) : BeginsValue text := by
  obtain ⟨first, rest, hfirst, -, rfl⟩ := dumpsElements_cons h
  exact (dumps_begins hfirst).append _

theorem dumpsMembers_begins {m : String × PyValue} {items : Items} {text : List Char}
    (h : dumpsMembers floats sep (m :: items) = .ok text) : ∃ rest, text = '"' :: rest := by
  obtain ⟨value, rest, -, -, rfl⟩ := dumpsMembers_cons h
  rw [List.append_assoc, List.append_assoc]
  exact ⟨_, rfl⟩

mutual

theorem readValue_dumps : ∀ (v : PyValue) (text : List Char), dumps floats sep v = .ok text →
    Proper floats v → ∀ (fuel : ℕ) (rest : List Char), text.length ≤ fuel → Delimited rest →
      readValue floats fuel (text ++ rest) = .ok (v, rest)
  | v, text, h, _, 0, rest, hfuel, _ => by
    obtain ⟨c, text', rfl, -⟩ := dumps_begins h
    cases hfuel
  | .none, text, h, _, fuel + 1, rest, _, _ => by
    cases h
    exact readValue_constant (by simp)
  | .bool true, text, h, _, fuel + 1, rest, _, _ => by
    cases h
    exact readValue_constant (by simp)
  | .bool false, text, h, _, fuel + 1, rest, _, _ => by
    cases h
    exact readValue_constant (by simp)
  | .int n, text, h, _, fuel + 1, rest, _, hrest => by
    obtain ⟨hn, rfl⟩ := writeInt_ok h
    have hbegins : BeginsNumber (intText n ++ rest) := intText_eq n ▸ signed_begins _ _ rest
    rw [readValue_number hbegins, readNumber_intText floats hn hrest]
  | .float q, text, h, hq, fuel + 1, rest, _, hrest => by
    cases h
    have hbegins : BeginsNumber ((floats.repr q).text ++ rest) := by
      rw [Decimal.text_eq, List.append_assoc]
      exact signed_begins _ _ _
    rw [readValue_number hbegins]
    exact readNumber_decimal hq hrest
  | .str s, text, h, _, fuel + 1, rest, _, _ => by
    cases h
    exact readValue_str s fuel rest
  | .list [], text, h, _, fuel + 1, rest, _, _ => by
    cases h
    rfl
  | .list (x :: xs), text, h, hv, fuel + 1, rest, hfuel, _ => by
    obtain ⟨text', htext', rfl⟩ := Except.of_map_ok h
    have hlength : text'.length + 1 ≤ fuel := by
      rw [List.cons_append, List.length_cons, List.length_append, List.length_singleton] at hfuel
      omega
    rw [List.append_assoc, List.cons_append]
    apply readValue_list ((dumpsElements_begins htext').append _)
    exact readElements_dumps (x :: xs) text' htext' hv fuel rest hlength (List.cons_ne_nil _ _)
  | .dict [], text, h, _, fuel + 1, rest, _, _ => by
    cases h
    rfl
  | .dict (m :: items), text, h, hv, fuel + 1, rest, hfuel, _ => by
    obtain ⟨text', htext', rfl⟩ := Except.of_map_ok h
    have hlength : text'.length + 1 ≤ fuel := by
      rw [List.cons_append, List.length_cons, List.length_append, List.length_singleton] at hfuel
      omega
    have hread := readMembers_dumps (m :: items) text' htext' hv.2 fuel rest hlength
      (List.cons_ne_nil _ _)
    obtain ⟨text'', rfl⟩ := dumpsMembers_begins htext'
    rw [List.append_assoc, List.cons_append, ← dictOf_eq hv.1]
    exact readValue_dict hread
  | .datetime d, text, h, _, fuel + 1, rest, _, _ => by cases h

theorem readElements_dumps : ∀ (xs : List PyValue) (text : List Char),
    dumpsElements floats sep xs = .ok text → ProperElements floats xs →
      ∀ (fuel : ℕ) (rest : List Char), text.length + 1 ≤ fuel → xs ≠ [] →
        readElements floats fuel (text ++ ']' :: rest) = .ok (xs, rest)
  | [], _, _, _, _, _, _, hne => absurd rfl hne
  | [x], text, h, hv, fuel + 1, rest, hfuel, _ => by
    obtain ⟨first, rest', hfirst, -, rfl⟩ := dumpsElements_cons h
    rw [if_pos rfl, List.append_nil] at hfuel ⊢
    apply readElements_last
    exact readValue_dumps x first hfirst hv.1 fuel _ (Nat.le_of_succ_le_succ hfuel)
      (delimited_cons (by decide) rest)
  | x :: y :: ys, text, h, hv, fuel + 1, rest, hfuel, _ => by
    obtain ⟨first, rest', hfirst, hrest', rfl⟩ := dumpsElements_cons h
    rw [if_neg (List.cons_ne_nil y ys)] at hfuel ⊢
    rw [List.length_append, List.cons_append, List.length_cons, List.length_append] at hfuel
    have htext : first ++ (',' :: sep.comma ++ rest') ++ ']' :: rest =
        first ++ (',' :: sep.comma ++ (rest' ++ ']' :: rest)) := by
      simp only [List.append_assoc, List.cons_append]
    rw [htext]
    have hread := readValue_dumps x first hfirst hv.1 fuel
      (',' :: sep.comma ++ (rest' ++ ']' :: rest)) (by omega) (delimited_cons (by decide) _)
    exact readElements_more hread ((dumpsElements_begins hrest').append _)
      (readElements_dumps (y :: ys) rest' hrest' hv.2 fuel rest (by omega) (List.cons_ne_nil _ _))

theorem readMembers_dumps : ∀ (items : List (String × PyValue)) (text : List Char),
    dumpsMembers floats sep items = .ok text → ProperMembers floats items →
      ∀ (fuel : ℕ) (rest : List Char), text.length + 1 ≤ fuel → items ≠ [] →
        readMembers floats fuel (text ++ '\x7d' :: rest) = .ok (items, rest)
  | [], _, _, _, _, _, _, hne => absurd rfl hne
  | [(key, x)], text, h, hv, fuel + 1, rest, hfuel, _ => by
    obtain ⟨value, rest', hvalue, -, rfl⟩ := dumpsMembers_cons h
    rw [if_pos rfl, List.append_nil] at hfuel ⊢
    rw [List.length_append] at hfuel
    rw [List.append_assoc]
    apply readMembers_last ((dumps_begins hvalue).append _)
    exact readValue_dumps x value hvalue hv.1 fuel _ (by omega) (delimited_cons (by decide) rest)
  | (key, x) :: m :: items, text, h, hv, fuel + 1, rest, hfuel, _ => by
    obtain ⟨value, rest', hvalue, hrest', rfl⟩ := dumpsMembers_cons h
    have hbegins : BeginsValue (rest' ++ '\x7d' :: rest) := by
      obtain ⟨text', rfl⟩ := dumpsMembers_begins hrest'
      exact ⟨'"', _, rfl, by decide, by decide⟩
    rw [if_neg (List.cons_ne_nil m items)] at hfuel ⊢
    simp only [List.length_append, List.length_cons] at hfuel
    have htext : quoted key.toList ++ ':' :: sep.colon ++ value ++ (',' :: sep.comma ++ rest') ++
        '\x7d' :: rest = quoted key.toList ++ ':' :: sep.colon ++
          (value ++ (',' :: sep.comma ++ (rest' ++ '\x7d' :: rest))) := by
      simp only [List.append_assoc, List.cons_append]
    rw [htext]
    refine readMembers_more ((dumps_begins hvalue).append _) ?_ hbegins
      (readMembers_dumps (m :: items) rest' hrest' hv.2 fuel rest (by omega)
        (List.cons_ne_nil _ _))
    exact readValue_dumps x value hvalue hv.1 fuel _ (by omega) (delimited_cons (by decide) _)

end

theorem loads_dumps {v : PyValue} {text : List Char} (h : dumps floats sep v = .ok text)
    (hv : Proper floats v) : loads floats text = .ok v := by
  have hread := readValue_dumps v text h hv (2 * text.length + 1) [] (by omega) delimited_nil
  rw [List.append_nil] at hread
  rw [loads, (dumps_begins h).skipBlanks]
  exact Except.bind_intro hread (if_pos rfl)

def Printable (text : List Char) : Prop := ∀ c ∈ text, 0x20 ≤ c.toNat ∧ c.toNat < 0x7f

instance (text : List Char) : Decidable (Printable text) :=
  List.decidableBAll (fun c : Char => 0x20 ≤ c.toNat ∧ c.toNat < 0x7f) text

theorem printable_append {text text' : List Char} (h : Printable text) (h' : Printable text') :
    Printable (text ++ text') := by
  intro c hc
  exact (List.mem_append.mp hc).elim (h c) (h' c)

theorem printable_cons {c : Char} (hc : 0x20 ≤ c.toNat ∧ c.toNat < 0x7f) {text : List Char}
    (h : Printable text) : Printable (c :: text) := by
  intro d hd
  rcases List.mem_cons.mp hd with rfl | hd
  · exact hc
  · exact h d hd

theorem printable_nil : Printable [] := by
  intro c hc
  cases hc

theorem printable_spaces {spaces : List Char} (h : ∀ c ∈ spaces, c = ' ') : Printable spaces := by
  intro c hc
  rw [h c hc]
  decide

theorem printable_digits {ds : List Char} (h : ∀ c ∈ ds, c.isDigit = true) : Printable ds := by
  intro c hc
  have hdigit := h c hc
  simp only [Char.isDigit, Bool.and_eq_true, decide_eq_true_eq, UInt32.le_iff_toNat_le] at hdigit
  have hlow : 48 ≤ c.toNat := hdigit.1
  have hhigh : c.toNat ≤ 57 := hdigit.2
  omega

theorem printable_signed (negative : Bool) (n : ℕ) : Printable (signed negative n) := by
  apply printable_append _ (printable_digits (natText_digits n))
  cases negative with
  | false => exact printable_nil
  | true => exact printable_cons (by decide) printable_nil

theorem printable_decimal (d : Decimal) : Printable d.text := by
  rw [Decimal.text_eq]
  apply printable_append (printable_signed _ _)
  apply printable_append
  · unfold fractionText
    split
    · exact printable_nil
    · exact printable_cons (by decide) (printable_digits d.fraction_digits)
  · cases hexponent : d.exponent with
    | none => exact printable_nil
    | some e =>
      apply printable_cons (by decide)
      apply printable_cons
      · cases e.1 <;> decide
      · exact printable_digits (d.exponent_digits e hexponent).2

theorem printable_hexDigit {n : ℕ} (h : n < 16) :
    0x20 ≤ (hexDigit n).toNat ∧ (hexDigit n).toNat < 0x7f := by
  have hall : ∀ n < 16, 0x20 ≤ (hexDigit n).toNat ∧ (hexDigit n).toNat < 0x7f := by decide
  exact hall n h

theorem printable_unicodeEscape {n : ℕ} (h : n < 0x10000) : Printable (unicodeEscape n) := by
  apply printable_cons (by decide)
  apply printable_cons (by decide)
  apply printable_cons (printable_hexDigit (by omega))
  apply printable_cons (printable_hexDigit (by omega))
  apply printable_cons (printable_hexDigit (by omega))
  exact printable_cons (printable_hexDigit (by omega)) printable_nil

theorem printable_escapeChar (c : Char) : Printable (escapeChar c) := by
  unfold escapeChar
  split
  · rename_i letter hlookup
    obtain ⟨before, after, heq, -⟩ := List.lookup_eq_some_iff.mp hlookup
    have hall : ∀ p ∈ letterEscapes, 0x20 ≤ p.2.toNat ∧ p.2.toNat < 0x7f := by decide
    have hletter := hall (c, letter) (heq ▸ by simp)
    exact printable_cons (by decide) (printable_cons hletter printable_nil)
  · split
    · rename_i hprintable
      have hlow : 0x20 ≤ c.toNat := hprintable.1
      have hhigh : c.toNat ≤ 0x7e := hprintable.2
      exact printable_cons ⟨hlow, by omega⟩ printable_nil
    · split
      · rename_i hsmall
        exact printable_unicodeEscape hsmall
      · have hvalid : c.toNat < 0xd800 ∨ 0xdfff < c.toNat ∧ c.toNat < 0x110000 := c.valid
        exact printable_append (printable_unicodeEscape (by omega))
          (printable_unicodeEscape (by omega))

theorem printable_quoted (s : List Char) : Printable (quoted s) := by
  apply printable_append _ (printable_cons (by decide) printable_nil)
  apply printable_cons (by decide)
  intro c hc
  obtain ⟨d, -, hd⟩ := List.mem_flatMap.mp hc
  exact printable_escapeChar d c hd

mutual

theorem dumps_printable : ∀ (v : PyValue) (text : List Char),
    dumps floats sep v = .ok text → Printable text
  | .none, text, h => by
    cases h
    decide
  | .bool true, text, h => by
    cases h
    decide
  | .bool false, text, h => by
    cases h
    decide
  | .int n, text, h => by
    obtain ⟨-, rfl⟩ := writeInt_ok h
    rw [intText_eq]
    exact printable_signed _ _
  | .float q, text, h => by
    cases h
    exact printable_decimal _
  | .str s, text, h => by
    cases h
    exact printable_quoted _
  | .list xs, text, h => by
    obtain ⟨text', htext', rfl⟩ := Except.of_map_ok h
    apply printable_append _ (printable_cons (by decide) printable_nil)
    exact printable_cons (by decide) (dumpsElements_printable xs text' htext')
  | .dict items, text, h => by
    obtain ⟨text', htext', rfl⟩ := Except.of_map_ok h
    apply printable_append _ (printable_cons (by decide) printable_nil)
    exact printable_cons (by decide) (dumpsMembers_printable items text' htext')
  | .datetime d, text, h => by cases h

theorem dumpsElements_printable : ∀ (xs : List PyValue) (text : List Char),
    dumpsElements floats sep xs = .ok text → Printable text
  | [], text, h => by
    cases h
    exact printable_nil
  | x :: xs, text, h => by
    obtain ⟨first, rest, hfirst, hrest, rfl⟩ := dumpsElements_cons h
    apply printable_append (dumps_printable x first hfirst)
    split
    · exact printable_nil
    · apply printable_append _ (dumpsElements_printable xs rest hrest)
      exact printable_cons (by decide) (printable_spaces sep.comma_spaces)

theorem dumpsMembers_printable : ∀ (items : List (String × PyValue)) (text : List Char),
    dumpsMembers floats sep items = .ok text → Printable text
  | [], text, h => by
    cases h
    exact printable_nil
  | (key, x) :: items, text, h => by
    obtain ⟨value, rest, hvalue, hrest, rfl⟩ := dumpsMembers_cons h
    apply printable_append
    · apply printable_append _ (dumps_printable x value hvalue)
      apply printable_append (printable_quoted _)
      exact printable_cons (by decide) (printable_spaces sep.colon_spaces)
    · split
      · exact printable_nil
      · apply printable_append _ (dumpsMembers_printable items rest hrest)
        exact printable_cons (by decide) (printable_spaces sep.comma_spaces)

end

mutual

def Writable : PyValue → Prop
  | .int n => (natText n.natAbs).length ≤ maxDigits
  | .list xs => WritableElements xs
  | .dict items => WritableMembers items
  | .datetime _ => False
  | _ => True

def WritableElements : List PyValue → Prop
  | [] => True
  | x :: xs => Writable x ∧ WritableElements xs

def WritableMembers : List (String × PyValue) → Prop
  | [] => True
  | (_, x) :: items => Writable x ∧ WritableMembers items

end

theorem writableMembers_iff (items : Items) :
    WritableMembers items ↔ ∀ item ∈ items, Writable item.2 := by
  induction items with
  | nil => exact ⟨fun _ => List.forall_mem_nil _, fun _ => trivial⟩
  | cons item items ih => rw [WritableMembers, ih, List.forall_mem_cons]

mutual

theorem dumps_ok_iff : ∀ v : PyValue, (∃ text, dumps floats sep v = .ok text) ↔ Writable v
  | .none => ⟨fun _ => trivial, fun _ => ⟨_, rfl⟩⟩
  | .bool true => ⟨fun _ => trivial, fun _ => ⟨_, rfl⟩⟩
  | .bool false => ⟨fun _ => trivial, fun _ => ⟨_, rfl⟩⟩
  | .int n => by
    constructor
    · rintro ⟨text, h⟩
      exact (writeInt_ok h).1
    · intro h
      exact ⟨_, if_pos h⟩
  | .float q => ⟨fun _ => trivial, fun _ => ⟨_, rfl⟩⟩
  | .str s => ⟨fun _ => trivial, fun _ => ⟨_, rfl⟩⟩
  | .list xs => by
    rw [Writable, ← dumpsElements_ok_iff xs]
    constructor
    · rintro ⟨text, h⟩
      obtain ⟨text', htext', -⟩ := Except.of_map_ok h
      exact ⟨text', htext'⟩
    · rintro ⟨text, h⟩
      exact ⟨_, by rw [dumps, h]; rfl⟩
  | .dict items => by
    rw [Writable, ← dumpsMembers_ok_iff items]
    constructor
    · rintro ⟨text, h⟩
      obtain ⟨text', htext', -⟩ := Except.of_map_ok h
      exact ⟨text', htext'⟩
    · rintro ⟨text, h⟩
      exact ⟨_, by rw [dumps, h]; rfl⟩
  | .datetime d => by
    constructor
    · rintro ⟨text, h⟩
      cases h
    · intro h
      cases h

theorem dumpsElements_ok_iff : ∀ xs : List PyValue,
    (∃ text, dumpsElements floats sep xs = .ok text) ↔ WritableElements xs
  | [] => ⟨fun _ => trivial, fun _ => ⟨_, rfl⟩⟩
  | x :: xs => by
    rw [WritableElements, ← dumps_ok_iff x, ← dumpsElements_ok_iff xs]
    constructor
    · rintro ⟨text, h⟩
      obtain ⟨first, rest, hfirst, hrest, -⟩ := dumpsElements_cons h
      exact ⟨⟨first, hfirst⟩, rest, hrest⟩
    · rintro ⟨⟨first, hfirst⟩, rest, hrest⟩
      exact ⟨_, Except.bind_intro hfirst (Except.bind_intro hrest rfl)⟩

theorem dumpsMembers_ok_iff : ∀ items : List (String × PyValue),
    (∃ text, dumpsMembers floats sep items = .ok text) ↔ WritableMembers items
  | [] => ⟨fun _ => trivial, fun _ => ⟨_, rfl⟩⟩
  | (key, x) :: items => by
    rw [WritableMembers, ← dumps_ok_iff x, ← dumpsMembers_ok_iff items]
    constructor
    · rintro ⟨text, h⟩
      obtain ⟨value, rest, hvalue, hrest, -⟩ := dumpsMembers_cons h
      exact ⟨⟨value, hvalue⟩, rest, hrest⟩
    · rintro ⟨⟨value, hvalue⟩, rest, hrest⟩
      exact ⟨_, Except.bind_intro hvalue (Except.bind_intro hrest rfl)⟩

end

/-- The digit of the tenths of `|q|`. -/
def tenthDigit (q : ℚ) : Char := Nat.digitChar (10 * q.num.natAbs / q.den % 10)

theorem tenthDigit_isDigit (q : ℚ) : ∀ c ∈ [tenthDigit q], c.isDigit = true := by
  intro c hc
  rw [List.mem_singleton.mp hc]
  exact (Calendar.digitChar_spec _ (Nat.mod_lt _ (by decide))).1

theorem noExponent_digits :
    ∀ e ∈ (none : Option (Bool × List Char)), e.2 ≠ [] ∧ ∀ c ∈ e.2, c.isDigit = true := by
  intro e he
  cases he

def FloatText.tenths : FloatText where
  repr q := ⟨decide (q.num < 0), q.num.natAbs / q.den, [tenthDigit q], none,
    tenthDigit_isDigit q, noExponent_digits, .inl (List.cons_ne_nil _ _)⟩
  float text :=
    let tenths : ℚ := Nat.ofDigitChars 10 (text.filter Char.isDigit) 0
    some (if text.head? = some '-' then -(tenths / 10) else tenths / 10)

theorem FloatText.tenths_exact : FloatText.tenths.Exact (-5 / 2) := by
  unfold FloatText.Exact
  decide +kernel

end JsonText
