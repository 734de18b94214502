import Mathlib.Data.List.TakeWhile
import Mathlib.Data.List.Basic

-- Text is a list of characters and is decoded to bytes, so that no choice of what to do
-- with invalid UTF-8 is needed.

namespace PercentEncoding

def utf8 (s : List Char) : List UInt8 := s.flatMap String.utf8EncodeChar

@[simp] theorem utf8_cons (c : Char) (s : List Char) :
    utf8 (c :: s) = String.utf8EncodeChar c ++ utf8 s := rfl

@[simp] theorem utf8_append (s t : List Char) : utf8 (s ++ t) = utf8 s ++ utf8 t :=
  List.flatMap_append

theorem encodeChar_length_pos (c : Char) : 0 < (String.utf8EncodeChar c).length := by
  rw [String.length_utf8EncodeChar]
  exact Char.utf8Size_pos c

def hexValue (c : Char) : Option ℕ :=
  if '0' ≤ c ∧ c ≤ '9' then some (c.toNat - 48)
  else if 'A' ≤ c ∧ c ≤ 'F' then some (c.toNat - 55)
  else if 'a' ≤ c ∧ c ≤ 'f' then some (c.toNat - 87)
  else none

/-- The byte that `c` begins the escape of. -/
def escapedByte (c : Char) (rest : List Char) : Option UInt8 :=
  if c = '%' then
    match rest with
    | a :: b :: _ =>
      match hexValue a, hexValue b with
      | some hi, some lo => some (UInt8.ofNat (16 * hi + lo))
      | _, _ => none
    | _ => none
  else none

/-- Decode what follows the next `skip` characters. -/
def unquoteFrom : ℕ → List Char → List UInt8
  | _, [] => []
  | skip + 1, _ :: rest => unquoteFrom skip rest
  | 0, c :: rest =>
    match escapedByte c rest with
    | some b => b :: unquoteFrom 2 rest
    | none => String.utf8EncodeChar c ++ unquoteFrom 0 rest

def unquote (s : List Char) : List UInt8 := unquoteFrom 0 s

def hasEscape : List Char → Bool
  | [] => false
  | c :: rest => (escapedByte c rest).isSome || hasEscape rest

theorem unquoteFrom_eq_drop (skip : ℕ) (s : List Char) :
    unquoteFrom skip s = unquote (s.drop skip) := by
  induction s generalizing skip with
  | nil => cases skip <;> rfl
  | cons c rest ih =>
    cases skip with
    | zero => rfl
    | succ skip => exact ih skip

theorem unquote_cons (c : Char) (rest : List Char) :
    unquote (c :: rest) =
      match escapedByte c rest with
      | some b => b :: unquote (rest.drop 2)
      | none => String.utf8EncodeChar c ++ unquote rest := by
  unfold unquote
  rw [unquoteFrom]
  split
  · rw [unquoteFrom_eq_drop]
    rfl
  · rfl

theorem unquote_cons_of_ne {c : Char} (hc : c ≠ '%') (rest : List Char) :
    unquote (c :: rest) = String.utf8EncodeChar c ++ unquote rest := by
  have hnone : escapedByte c rest = none := by
    unfold escapedByte
    rw [if_neg hc]
  rw [unquote_cons, hnone]

theorem escapedByte_length {c : Char} {rest : List Char} {b : UInt8}
    (h : escapedByte c rest = some b) :
    1 + (utf8 (rest.drop 2)).length < (utf8 (c :: rest)).length := by
  unfold escapedByte at h
  split at h
  · split at h
    · rename_i a d rest'
      have ha := encodeChar_length_pos a
      have hc := encodeChar_length_pos c
      simp only [List.drop_succ_cons, List.drop_zero, utf8_cons, List.length_append]
      omega
    · cases h
  · cases h

theorem unquoteFrom_length_le (skip : ℕ) (s : List Char) :
    (unquoteFrom skip s).length ≤ (utf8 (s.drop skip)).length := by
  induction s generalizing skip with
  | nil => cases skip <;> exact Nat.le_refl _
  | cons c rest ih =>
    cases skip with
    | succ skip => exact ih skip
    | zero =>
      rw [unquoteFrom]
      split
      · rename_i b hb
        have h := escapedByte_length hb
        have hrest := ih 2
        simp only [List.length_cons, List.drop_zero]
        omega
      · have hrest := ih 0
        simp only [List.length_append, List.drop_zero, utf8_cons] at hrest ⊢
        omega

theorem unquote_length_le (s : List Char) : (unquote s).length ≤ (utf8 s).length :=
  unquoteFrom_length_le 0 s

theorem unquote_length_lt {s : List Char} (h : hasEscape s = true) :
    (unquote s).length < (utf8 s).length := by
  induction s with
  | nil => cases h
  | cons c rest ih =>
    rw [unquote_cons]
    split
    · rename_i b hb
      have hlt := escapedByte_length hb
      have hle := unquote_length_le (rest.drop 2)
      rw [List.length_cons]
      omega
    · rename_i hnone
      have hrest : hasEscape rest = true := by simpa [hasEscape, hnone] using h
      have := ih hrest
      simp only [utf8_cons, List.length_append]
      omega

theorem unquote_eq_utf8 {s : List Char} (h : hasEscape s = false) : unquote s = utf8 s := by
  induction s with
  | nil => rfl
  | cons c rest ih =>
    simp only [hasEscape, Bool.or_eq_false_iff, Option.isSome_eq_false_iff,
      Option.isNone_iff_eq_none] at h
    rw [unquote_cons, h.1, utf8_cons]
    dsimp only
    rw [ih h.2]

theorem hasEscape_eq_false {s : List Char} (h : '%' ∉ s) : hasEscape s = false := by
  induction s with
  | nil => rfl
  | cons c rest ih =>
    rw [List.mem_cons, not_or] at h
    have hnone : escapedByte c rest = none := if_neg (Ne.symm h.1)
    rw [hasEscape, hnone, ih h.2]
    rfl

theorem unquote_eq_utf8_iff (s : List Char) : unquote s = utf8 s ↔ hasEscape s = false := by
  refine ⟨fun h => ?_, unquote_eq_utf8⟩
  by_contra he
  have := unquote_length_lt (by simpa using he)
  rw [h] at this
  exact absurd this (Nat.lt_irrefl _)

def isUnreserved (c : Char) : Bool := c.isAlphanum || c = '_' || c = '.' || c = '-' || c = '~'

def hexDigit (n : ℕ) : Char := if n < 10 then Char.ofNat (48 + n) else Char.ofNat (55 + n)

def quoteByte (b : UInt8) : List Char :=
  if isUnreserved (Char.ofNat b.toNat) then [Char.ofNat b.toNat]
  else ['%', hexDigit (b.toNat / 16), hexDigit (b.toNat % 16)]

/-- `quote(s, safe='')`. -/
def quote (s : List Char) : List Char := (utf8 s).flatMap quoteByte

def quotePlusByte (b : UInt8) : List Char := if b = 32 then ['+'] else quoteByte b

/-- `quote_plus(s)`. -/
def quotePlus (s : List Char) : List Char := (utf8 s).flatMap quotePlusByte

theorem hexValue_hexDigit {n : ℕ} (h : n < 16) : hexValue (hexDigit n) = some n := by
  have hall : ∀ n < 16, hexValue (hexDigit n) = some n := by decide
  exact hall n h

theorem isUnreserved_hexDigit {n : ℕ} (h : n < 16) : isUnreserved (hexDigit n) = true := by
  have hall : ∀ n < 16, isUnreserved (hexDigit n) = true := by decide
  exact hall n h

theorem encodeChar_of_isUnreserved {b : UInt8} (h : isUnreserved (Char.ofNat b.toNat) = true) :
    String.utf8EncodeChar (Char.ofNat b.toNat) = [b] := by
  have hall : ∀ n < 256, isUnreserved (Char.ofNat n) = true →
      String.utf8EncodeChar (Char.ofNat n) = [UInt8.ofNat n] := by decide +kernel
  have := hall b.toNat b.toNat_lt h
  rwa [UInt8.ofNat_toNat] at this

theorem unquote_quoteByte (b : UInt8) (rest : List Char) :
    unquote (quoteByte b ++ rest) = b :: unquote rest := by
  unfold quoteByte
  split
  · rename_i h
    have hne : Char.ofNat b.toNat ≠ '%' := by
      intro heq
      rw [heq] at h
      exact absurd h (by decide)
    rw [List.singleton_append, unquote_cons_of_ne hne, encodeChar_of_isUnreserved h]
    rfl
  · have hb := b.toNat_lt
    have hhi := hexValue_hexDigit (n := b.toNat / 16) (by omega)
    have hlo := hexValue_hexDigit (n := b.toNat % 16) (by omega)
    have hbyte : 16 * (b.toNat / 16) + b.toNat % 16 = b.toNat := Nat.div_add_mod _ _
    simp only [List.cons_append, List.nil_append]
    rw [unquote_cons, escapedByte, if_pos rfl]
    simp only [hhi, hlo, hbyte, UInt8.ofNat_toNat, List.drop_succ_cons, List.drop_zero]

theorem unquote_flatMap_quoteByte (bs : List UInt8) (rest : List Char) :
    unquote (bs.flatMap quoteByte ++ rest) = bs ++ unquote rest := by
  induction bs with
  | nil => rfl
  | cons b bs ih =>
    rw [List.flatMap_cons, List.append_assoc, unquote_quoteByte, ih, List.cons_append]

theorem unquote_quote (s : List Char) : unquote (quote s) = utf8 s := by
  have h := unquote_flatMap_quoteByte (utf8 s) []
  simpa only [quote, List.append_nil] using h.trans (List.append_nil _)

theorem mem_quoteByte {b : UInt8} {c : Char} (h : c ∈ quoteByte b) :
    isUnreserved c = true ∨ c = '%' := by
  have hb := b.toNat_lt
  unfold quoteByte at h
  split at h
  · rename_i hu
    rw [List.mem_singleton.mp h]
    exact .inl hu
  · simp only [List.mem_cons, List.not_mem_nil, or_false] at h
    rcases h with rfl | rfl | rfl
    · exact .inr rfl
    · exact .inl (isUnreserved_hexDigit (by omega))
    · exact .inl (isUnreserved_hexDigit (by omega))

theorem mem_quote {s : List Char} {c : Char} (h : c ∈ quote s) :
    isUnreserved c = true ∨ c = '%' := by
  obtain ⟨b, -, hb⟩ := List.mem_flatMap.mp h
  exact mem_quoteByte hb

theorem mem_quotePlus {s : List Char} {c : Char} (h : c ∈ quotePlus s) :
    isUnreserved c = true ∨ c = '%' ∨ c = '+' := by
  obtain ⟨b, -, hb⟩ := List.mem_flatMap.mp h
  unfold quotePlusByte at hb
  split at hb
  · exact .inr (.inr (List.mem_singleton.mp hb))
  · exact (mem_quoteByte hb).imp_right .inl

theorem not_mem_quote (s : List Char) {c : Char} (hu : isUnreserved c = false) (hc : c ≠ '%') :
    c ∉ quote s := by
  intro h
  rcases mem_quote h with h | h
  · rw [hu] at h
    cases h
  · exact hc h

theorem not_mem_quotePlus (s : List Char) {c : Char} (hu : isUnreserved c = false)
    (hc : c ≠ '%') (hplus : c ≠ '+') : c ∉ quotePlus s := by
  intro h
  rcases mem_quotePlus h with h | h | h
  · rw [hu] at h
    cases h
  · exact hc h
  · exact hplus h

end PercentEncoding
