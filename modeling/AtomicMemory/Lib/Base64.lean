import Mathlib.Data.List.Basic
import Mathlib.Data.Nat.Notation

-- The encoding of bytes with padding, and its decoding.

namespace Base64

def sextetChar (n : ℕ) : Char :=
  if n < 26 then Char.ofNat (65 + n)
  else if n < 52 then Char.ofNat (71 + n)
  else if n < 62 then Char.ofNat (n - 4)
  else if n = 62 then '+'
  else '/'

/-- `base64.b64encode`. -/
def b64encode : List UInt8 → List Char
  | a :: b :: c :: rest =>
    sextetChar (a.toNat / 4) :: sextetChar (a.toNat % 4 * 16 + b.toNat / 16) ::
      sextetChar (b.toNat % 16 * 4 + c.toNat / 64) :: sextetChar (c.toNat % 64) :: b64encode rest
  | [a, b] =>
    [sextetChar (a.toNat / 4), sextetChar (a.toNat % 4 * 16 + b.toNat / 16),
      sextetChar (b.toNat % 16 * 4), '=']
  | [a] => [sextetChar (a.toNat / 4), sextetChar (a.toNat % 4 * 16), '=', '=']
  | [] => []

def sextet (c : Char) : Option ℕ :=
  if 'A' ≤ c ∧ c ≤ 'Z' then some (c.toNat - 65)
  else if 'a' ≤ c ∧ c ≤ 'z' then some (c.toNat - 71)
  else if '0' ≤ c ∧ c ≤ '9' then some (c.toNat + 4)
  else if c = '+' then some 62
  else if c = '/' then some 63
  else none

def b64decode : List Char → Option (List UInt8)
  | [] => some []
  | p :: q :: r :: s :: rest =>
    match sextet p, sextet q, sextet r, sextet s with
    | some p, some q, some r, some s =>
      (b64decode rest).map fun bytes =>
        UInt8.ofNat (p * 4 + q / 16) :: UInt8.ofNat (q % 16 * 16 + r / 4) ::
          UInt8.ofNat (r % 4 * 64 + s) :: bytes
    | some p, some q, some r, none =>
      if s = '=' ∧ rest = [] then
        some [UInt8.ofNat (p * 4 + q / 16), UInt8.ofNat (q % 16 * 16 + r / 4)]
      else none
    | some p, some q, none, none =>
      if r = '=' ∧ s = '=' ∧ rest = [] then some [UInt8.ofNat (p * 4 + q / 16)] else none
    | _, _, _, _ => none
  | _ => none

theorem sextet_sextetChar {n : ℕ} (h : n < 64) : sextet (sextetChar n) = some n := by
  have hall : ∀ n < 64, sextet (sextetChar n) = some n := by decide
  exact hall n h

theorem sextet_pad : sextet '=' = none := by decide

theorem b64decode_b64encode (bytes : List UInt8) : b64decode (b64encode bytes) = some bytes := by
  induction bytes using b64encode.induct with
  | case1 a b c rest ih =>
    have ha := a.toNat_lt
    have hb := b.toNat_lt
    have hc := c.toNat_lt
    rw [b64encode, b64decode, sextet_sextetChar (by omega), sextet_sextetChar (by omega),
      sextet_sextetChar (by omega), sextet_sextetChar (by omega), ih]
    have h1 : a.toNat / 4 * 4 + (a.toNat % 4 * 16 + b.toNat / 16) / 16 = a.toNat := by omega
    have h2 : (a.toNat % 4 * 16 + b.toNat / 16) % 16 * 16 + (b.toNat % 16 * 4 + c.toNat / 64) / 4 =
        b.toNat := by omega
    have h3 : (b.toNat % 16 * 4 + c.toNat / 64) % 4 * 64 + c.toNat % 64 = c.toNat := by omega
    simp only [h1, h2, h3, UInt8.ofNat_toNat, Option.map_some]
  | case2 a b =>
    have ha := a.toNat_lt
    have hb := b.toNat_lt
    rw [b64encode, b64decode, sextet_sextetChar (by omega), sextet_sextetChar (by omega),
      sextet_sextetChar (by omega), sextet_pad]
    have h1 : a.toNat / 4 * 4 + (a.toNat % 4 * 16 + b.toNat / 16) / 16 = a.toNat := by omega
    have h2 : (a.toNat % 4 * 16 + b.toNat / 16) % 16 * 16 + b.toNat % 16 * 4 / 4 = b.toNat := by
      omega
    simp only [h1, h2, UInt8.ofNat_toNat, and_self, if_true]
  | case3 a =>
    have ha := a.toNat_lt
    rw [b64encode, b64decode, sextet_sextetChar (by omega), sextet_sextetChar (by omega),
      sextet_pad]
    have h1 : a.toNat / 4 * 4 + a.toNat % 4 * 16 / 16 = a.toNat := by omega
    simp only [h1, UInt8.ofNat_toNat, and_self, if_true]
  | case4 => rfl

def isBase64 (c : Char) : Bool := c.isAlphanum || c = '+' || c = '/' || c = '='

theorem isBase64_sextetChar {n : ℕ} (h : n < 64) : isBase64 (sextetChar n) = true := by
  have hall : ∀ n < 64, isBase64 (sextetChar n) = true := by decide
  exact hall n h

theorem b64encode_alphabet (bytes : List UInt8) : ∀ c ∈ b64encode bytes, isBase64 c = true := by
  induction bytes using b64encode.induct with
  | case1 a b c rest ih =>
    have ha := a.toNat_lt
    have hb := b.toNat_lt
    have hc := c.toNat_lt
    rw [b64encode]
    simp only [List.forall_mem_cons]
    exact ⟨isBase64_sextetChar (by omega), isBase64_sextetChar (by omega),
      isBase64_sextetChar (by omega), isBase64_sextetChar (by omega), ih⟩
  | case2 a b =>
    have ha := a.toNat_lt
    have hb := b.toNat_lt
    rw [b64encode]
    simp only [List.forall_mem_cons]
    exact ⟨isBase64_sextetChar (by omega), isBase64_sextetChar (by omega),
      isBase64_sextetChar (by omega), by decide, List.forall_mem_nil _⟩
  | case3 a =>
    have ha := a.toNat_lt
    rw [b64encode]
    simp only [List.forall_mem_cons]
    exact ⟨isBase64_sextetChar (by omega), isBase64_sextetChar (by omega), by decide, by decide,
      List.forall_mem_nil _⟩
  | case4 => exact List.forall_mem_nil _

end Base64
