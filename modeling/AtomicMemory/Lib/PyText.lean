import Mathlib.Data.List.Basic
import Mathlib.Data.Nat.Notation

-- What Python's methods on texts take from the Unicode tables, and the `repr` of a text.

namespace PyText

def IsAscii (s : List Char) : Prop := ∀ c ∈ s, c.toNat < 128

instance (s : List Char) : Decidable (IsAscii s) := List.decidableBAll _ s

def urlDelimiters : List Char := ['/', '?', '#', '@', ':']

/-- The Unicode tables. No composition takes or makes a delimiter of a URL, so a text has one
in its normal form only where a character has one in its own. -/
structure Unicode where
  lower : List Char → List Char
  nfkc : List Char → List Char
  isPrintable : Char → Bool
  lower_ascii : ∀ s, IsAscii s → lower s = s.map Char.toLower
  nfkc_ascii : ∀ s, IsAscii s → nfkc s = s
  mem_nfkc : ∀ s, ∀ d ∈ urlDelimiters, d ∈ nfkc s ↔ ∃ c ∈ s, d ∈ nfkc [c]

def Unicode.ascii : Unicode where
  lower s := s.map Char.toLower
  nfkc s := s
  isPrintable _ := true
  lower_ascii _ _ := rfl
  nfkc_ascii _ _ := rfl
  mem_nfkc s d _ := by simp

/-- `n` in hexadecimal, in `width` digits at least. -/
def paddedHex (width n : ℕ) : List Char :=
  List.replicate (width - (Nat.toDigits 16 n).length) '0' ++ Nat.toDigits 16 n

def reprChar (u : Unicode) (quote c : Char) : List Char :=
  let n := c.toNat
  if c = quote ∨ c = '\\' then ['\\', c]
  else if c = '\t' then ['\\', 't']
  else if c = '\n' then ['\\', 'n']
  else if c = '\r' then ['\\', 'r']
  else if n < 0x20 ∨ n = 0x7f then '\\' :: 'x' :: paddedHex 2 n
  else if n < 0x7f ∨ u.isPrintable c then [c]
  else if n ≤ 0xff then '\\' :: 'x' :: paddedHex 2 n
  else if n ≤ 0xffff then '\\' :: 'u' :: paddedHex 4 n
  else '\\' :: 'U' :: paddedHex 8 n

/-- `repr` of a text: in double quotes when it has single quotes only. -/
def repr (u : Unicode) (s : List Char) : List Char :=
  let quote := if '\'' ∈ s ∧ '"' ∉ s then '"' else '\''
  quote :: s.flatMap (reprChar u quote) ++ [quote]

end PyText
