import Mathlib.Data.List.Basic
import Greenlight.Lib.Word

/-!
# Base64

Three bytes are four digits of six bits.  A codec has two digits of its own besides the letters and the numbers
(`Alphabet`); the last group of a text without padding has two or three digits, whose spare bits are zero, and a
padded text fills it up with `=`.  What is written without padding is read back (`decode_encode`).
-/

namespace Greenlight.Lib.Base64

/-- The digits for 62 and 63. -/
structure Alphabet where
  plus : UInt8
  slash : UInt8
  deriving DecidableEq, Repr

/-- The digits `+` and `/`. -/
def standard : Alphabet := ⟨43, 47⟩

/-- The digits `-` and `_`. -/
def urlSafe : Alphabet := ⟨45, 95⟩

namespace Alphabet

def digit (A : Alphabet) (n : ℕ) : UInt8 :=
  if n < 26 then .ofNat (65 + n)
  else if n < 52 then .ofNat (97 + (n - 26))
  else if n < 62 then .ofNat (48 + (n - 52))
  else if n = 62 then A.plus
  else A.slash

def value (A : Alphabet) (c : UInt8) : Option ℕ :=
  if 65 ≤ c ∧ c ≤ 90 then some (c.toNat - 65)
  else if 97 ≤ c ∧ c ≤ 122 then some (c.toNat - 97 + 26)
  else if 48 ≤ c ∧ c ≤ 57 then some (c.toNat - 48 + 52)
  else if c = A.plus then some 62
  else if c = A.slash then some 63
  else none

/-- Every digit is read as its value. -/
def Reads (A : Alphabet) : Prop := ∀ n < 64, A.value (A.digit n) = some n

theorem reads_standard : standard.Reads := by
  unfold Reads
  decide

end Alphabet

variable {A : Alphabet}

/-- The text without padding. -/
def encode (A : Alphabet) : Bytes → Bytes
  | a :: b :: c :: rest =>
    A.digit (a.toNat / 4) :: A.digit (a.toNat % 4 * 16 + b.toNat / 16) ::
      A.digit (b.toNat % 16 * 4 + c.toNat / 64) :: A.digit (c.toNat % 64) :: encode A rest
  | [a, b] => [A.digit (a.toNat / 4), A.digit (a.toNat % 4 * 16 + b.toNat / 16), A.digit (b.toNat % 16 * 4)]
  | [a] => [A.digit (a.toNat / 4), A.digit (a.toNat % 4 * 16)]
  | [] => []

/-- The bytes of the last group, of two or three digits. -/
def lastBytes (A : Alphabet) : Bytes → Option Bytes
  | [w, x] => do
    let (w, x) := (← A.value w, ← A.value x)
    if x % 16 = 0 then some [.ofNat (w * 4 + x / 16)] else none
  | [w, x, y] => do
    let (w, x, y) := (← A.value w, ← A.value x, ← A.value y)
    if y % 4 = 0 then some [.ofNat (w * 4 + x / 16), .ofNat (x % 16 * 16 + y / 4)] else none
  | _ => none

/-- A text without padding. -/
def decode (A : Alphabet) : Bytes → Option Bytes
  | w :: x :: y :: z :: rest => do
    let (w, x, y, z) := (← A.value w, ← A.value x, ← A.value y, ← A.value z)
    return UInt8.ofNat (w * 4 + x / 16) :: UInt8.ofNat (x % 16 * 16 + y / 4) ::
      UInt8.ofNat (y % 4 * 64 + z) :: (← decode A rest)
  | [] => some []
  | rest => lastBytes A rest

/-- A text with padding, which has whole groups. -/
def decodePadded (A : Alphabet) : Bytes → Option Bytes
  | [] => some []
  | [w, x, 61, 61] => lastBytes A [w, x]
  | [w, x, y, 61] => lastBytes A [w, x, y]
  | w :: x :: y :: z :: rest => do
    let (w, x, y, z) := (← A.value w, ← A.value x, ← A.value y, ← A.value z)
    return UInt8.ofNat (w * 4 + x / 16) :: UInt8.ofNat (x % 16 * 16 + y / 4) ::
      UInt8.ofNat (y % 4 * 64 + z) :: (← decodePadded A rest)
  | _ => none

theorem ofNat_of_eq {a : UInt8} {n : ℕ} (h : n = a.toNat) : UInt8.ofNat n = a := by
  rw [h, UInt8.ofNat_toNat]

theorem decode_encode (hA : A.Reads) (b : Bytes) : decode A (encode A b) = some b := by
  fun_induction encode A b with
  | case1 a b c rest ih =>
    have ha := a.toNat_lt
    have hb := b.toNat_lt
    have hc := c.toNat_lt
    have hw := hA (a.toNat / 4) (by omega)
    have hx := hA (a.toNat % 4 * 16 + b.toNat / 16) (by omega)
    have hy := hA (b.toNat % 16 * 4 + c.toNat / 64) (by omega)
    have hz := hA (c.toNat % 64) (by omega)
    have h1 : UInt8.ofNat (a.toNat / 4 * 4 + (a.toNat % 4 * 16 + b.toNat / 16) / 16) = a :=
      ofNat_of_eq (by omega)
    have h2 : UInt8.ofNat ((a.toNat % 4 * 16 + b.toNat / 16) % 16 * 16 +
        (b.toNat % 16 * 4 + c.toNat / 64) / 4) = b := ofNat_of_eq (by omega)
    have h3 : UInt8.ofNat ((b.toNat % 16 * 4 + c.toNat / 64) % 4 * 64 + c.toNat % 64) = c :=
      ofNat_of_eq (by omega)
    simp only [decode, hw, hx, hy, hz, ih, Option.bind_eq_bind, Option.bind_some, Option.pure_def, h1, h2, h3]
  | case2 a b =>
    have ha := a.toNat_lt
    have hb := b.toNat_lt
    have hw := hA (a.toNat / 4) (by omega)
    have hx := hA (a.toNat % 4 * 16 + b.toNat / 16) (by omega)
    have hy := hA (b.toNat % 16 * 4) (by omega)
    -- the two digits behind leave bits over, which have to be zero
    have hspare : b.toNat % 16 * 4 % 4 = 0 := by omega
    have h1 : UInt8.ofNat (a.toNat / 4 * 4 + (a.toNat % 4 * 16 + b.toNat / 16) / 16) = a :=
      ofNat_of_eq (by omega)
    have h2 : UInt8.ofNat ((a.toNat % 4 * 16 + b.toNat / 16) % 16 * 16 + b.toNat % 16 * 4 / 4) = b :=
      ofNat_of_eq (by omega)
    simp only [decode, lastBytes, hw, hx, hy, Option.bind_eq_bind, Option.bind_some, hspare, if_true, h1, h2]
  | case3 a =>
    have ha := a.toNat_lt
    have hw := hA (a.toNat / 4) (by omega)
    have hx := hA (a.toNat % 4 * 16) (by omega)
    have hspare : a.toNat % 4 * 16 % 16 = 0 := by omega
    have h1 : UInt8.ofNat (a.toNat / 4 * 4 + a.toNat % 4 * 16 / 16) = a := ofNat_of_eq (by omega)
    simp only [decode, lastBytes, hw, hx, Option.bind_eq_bind, Option.bind_some, hspare, if_true, h1]
  | case4 => rfl

example : decodePadded urlSafe (encode urlSafe [251, 255] ++ [61]) = some [251, 255] := by decide

end Greenlight.Lib.Base64
