import Greenlight.Lib.Word
import Mathlib.Algebra.Order.Ring.Nat
import Mathlib.Data.List.Induction

/-!
# Big-endian numbers

The number that a list of bytes stands for, the bytes of a number at a width, and the eight bytes of a
machine word as a case of both.
-/

namespace Greenlight.Lib

/-- The number of the bytes, the highest first. -/
def beNat (b : Bytes) : ℕ := b.foldl (fun n byte => 256 * n + byte.toNat) 0

/-- The lowest `k` bytes of a number, the highest first. -/
def toBe : ℕ → ℕ → Bytes
  | 0, _ => []
  | k + 1, n => toBe k (n / 256) ++ [UInt8.ofNat (n % 256)]

@[simp] theorem beNat_nil : beNat [] = 0 := rfl

@[simp] theorem beNat_concat (b : Bytes) (byte : UInt8) : beNat (b ++ [byte]) = 256 * beNat b + byte.toNat := by
  simp [beNat]

@[simp] theorem length_toBe (k n : ℕ) : (toBe k n).length = k := by
  induction k generalizing n with
  | zero => rfl
  | succ k ih => simp [toBe, ih]

theorem beNat_toBe : ∀ {k n : ℕ}, n < 256 ^ k → beNat (toBe k n) = n := by
  intro k
  induction k with
  | zero =>
    intro n h
    have h0 : n = 0 := by simpa using h
    rw [h0]
    rfl
  | succ k ih =>
    intro n h
    have hdiv : n / 256 < 256 ^ k := by
      rw [Nat.pow_succ] at h
      omega
    rw [toBe, beNat_concat, ih hdiv, UInt8.toNat_ofNat']
    omega

theorem beNat_lt (b : Bytes) : beNat b < 256 ^ b.length := by
  induction b using List.reverseRecOn with
  | nil => exact Nat.one_pos
  | append_singleton b byte ih =>
    have hbyte := byte.toNat_lt
    rw [beNat_concat, List.length_append, List.length_singleton, Nat.pow_succ]
    omega

theorem toBe_beNat (b : Bytes) : toBe b.length (beNat b) = b := by
  induction b using List.reverseRecOn with
  | nil => rfl
  | append_singleton b byte ih =>
    have hbyte := byte.toNat_lt
    have hdiv : (256 * beNat b + byte.toNat) / 256 = beNat b := by omega
    have hmod : (256 * beNat b + byte.toNat) % 256 = byte.toNat := by omega
    rw [beNat_concat, List.length_append, List.length_singleton, toBe, hdiv, hmod, ih, UInt8.ofNat_toNat]

theorem beNat_cons_zero (b : Bytes) : beNat (0 :: b) = beNat b := rfl

theorem beNat_dropWhile_zero (b : Bytes) : beNat (b.dropWhile (· == 0)) = beNat b := by
  induction b with
  | nil => rfl
  | cons byte b ih =>
    by_cases h : byte = 0
    · subst h
      rw [List.dropWhile_cons_of_pos (by decide), ih, beNat_cons_zero]
    · rw [List.dropWhile_cons_of_neg (by simpa using h)]

theorem pow_le_beNat_cons {byte : UInt8} (h : byte ≠ 0) (b : Bytes) : 256 ^ b.length ≤ beNat (byte :: b) := by
  have hbyte : 0 < byte.toNat := Nat.pos_of_ne_zero fun h0 => h (UInt8.toNat_inj.1 h0)
  induction b using List.reverseRecOn with
  | nil =>
    rw [List.length_nil, Nat.pow_zero]
    simpa [beNat] using Nat.succ_le_of_lt hbyte
  | append_singleton b last ih =>
    rw [← List.cons_append, beNat_concat, List.length_append, List.length_singleton, Nat.pow_succ]
    omega

/-- Without a leading zero the number tells how many bytes there are. -/
theorem length_eq_succ_iff {b : Bytes} (hfirst : b.head? ≠ some 0) (k : ℕ) :
    b.length = k + 1 ↔ 256 ^ k ≤ beNat b ∧ beNat b < 256 ^ (k + 1) := by
  have hlt := beNat_lt b
  cases b with
  | nil =>
    have hpow : 0 < 256 ^ k := Nat.pow_pos (by decide)
    simp only [List.length_nil, beNat_nil]
    omega
  | cons byte b =>
    have hbyte : byte ≠ 0 := fun h0 => hfirst (congrArg some h0)
    have hle := pow_le_beNat_cons hbyte b
    rw [List.length_cons] at hlt ⊢
    constructor
    · intro hk
      obtain rfl := Nat.succ.inj hk
      exact ⟨hle, hlt⟩
    · rintro ⟨hlow, hhigh⟩
      have hb : b.length < k + 1 := (Nat.pow_lt_pow_iff_right (by decide)).1 (hle.trans_lt hhigh)
      have hk : k < b.length + 1 := (Nat.pow_lt_pow_iff_right (by decide)).1 (hlow.trans_lt hlt)
      omega

/-- The bit of weight `2 ^ i` is bit `i % 8` of the byte that is `i / 8` from the end. -/
theorem testBit_beNat : ∀ (b : Bytes) (i : ℕ),
    (beNat b).testBit i = (b.reverse.getD (i / 8) 0).toNat.testBit (i % 8) := by
  intro b
  induction b using List.reverseRecOn with
  | nil => simp
  | append_singleton b byte ih =>
    intro i
    have hbyte : byte.toNat < 2 ^ 8 := byte.toNat_lt
    have hvalue : beNat (b ++ [byte]) = 2 ^ 8 * beNat b + byte.toNat := beNat_concat b byte
    rw [hvalue, Nat.testBit_two_pow_mul_add _ hbyte, List.reverse_concat]
    split_ifs with hi
    · rw [Nat.div_eq_of_lt hi, Nat.mod_eq_of_lt hi, List.getD_cons_zero]
    · have hdiv : i / 8 = (i - 8) / 8 + 1 := by omega
      have hmod : i % 8 = (i - 8) % 8 := by omega
      rw [ih, hdiv, hmod, List.getD_cons_succ]

theorem beBytes_eq_toBe (w : UInt64) : beBytes w = toBe 8 w.toNat := by
  simp only [beBytes, toBe, List.nil_append, List.cons_append, ← UInt8.toNat_inj, List.cons.injEq, and_true]
  simp only [UInt64.toNat_toUInt8, UInt64.toNat_shiftRight, Nat.shiftRight_eq_div_pow, UInt8.toNat_ofNat',
    UInt64.reduceToNat, Nat.reduceMod, Nat.reducePow]
  omega

@[simp] theorem beNat_beBytes (w : UInt64) : beNat (beBytes w) = w.toNat := by
  rw [beBytes_eq_toBe]
  exact beNat_toBe w.toNat_lt

/-! ### Reading a word back -/

/-- A byte moved up by `k` bits, and a number below it. -/
theorem shiftLeft_or (k : ℕ) {x y : ℕ} (hk : k ≤ 56) (hx : x < 256) (hy : y < 2 ^ k) :
    x <<< k % 18446744073709551616 ||| y = 2 ^ k * x + y := by
  have hpow : 2 ^ k ≤ 2 ^ 56 := Nat.pow_le_pow_right (by decide) hk
  have hlt : x <<< k < 18446744073709551616 := by
    rw [Nat.shiftLeft_eq]
    calc x * 2 ^ k ≤ 255 * 2 ^ 56 := Nat.mul_le_mul (by omega) hpow
      _ < 18446744073709551616 := by decide
  rw [Nat.mod_eq_of_lt hlt, ← Nat.shiftLeft_add_eq_or_of_lt hy, Nat.shiftLeft_eq, Nat.mul_comm]

theorem getU64_cons (a b c d e f g h : UInt8) (rest : Bytes) :
    getU64 (a :: b :: c :: d :: e :: f :: g :: h :: rest) =
      some (UInt64.ofNat (beNat [a, b, c, d, e, f, g, h])) := by
  have ha := a.toNat_lt
  have hb := b.toNat_lt
  have hc := c.toNat_lt
  have hd := d.toNat_lt
  have he := e.toNat_lt
  have hf := f.toNat_lt
  have hg := g.toNat_lt
  have hh := h.toNat_lt
  simp only [getU64, Option.some.injEq, UInt64.or_assoc]
  apply UInt64.toNat.inj
  simp only [UInt64.toNat_or, UInt64.toNat_shiftLeft, UInt8.toNat_toUInt64, UInt64.reduceToNat, Nat.reduceMod,
    Nat.reducePow, UInt64.toNat_ofNat']
  -- from the lowest byte up
  rw [shiftLeft_or 8 (by decide) hg (by omega), shiftLeft_or 16 (by decide) hf (by omega),
    shiftLeft_or 24 (by decide) he (by omega), shiftLeft_or 32 (by decide) hd (by omega),
    shiftLeft_or 40 (by decide) hc (by omega), shiftLeft_or 48 (by decide) hb (by omega),
    shiftLeft_or 56 (by decide) ha (by omega)]
  simp only [beNat, List.foldl_cons, List.foldl_nil]
  omega

theorem getU64_beBytes (w : UInt64) (rest : Bytes) : getU64 (beBytes w ++ rest) = some w := by
  have hcons := getU64_cons (w >>> 56).toUInt8 (w >>> 48).toUInt8 (w >>> 40).toUInt8 (w >>> 32).toUInt8
    (w >>> 24).toUInt8 (w >>> 16).toUInt8 (w >>> 8).toUInt8 w.toUInt8 rest
  have hvalue : beNat (beBytes w) = w.toNat := beNat_beBytes w
  rw [beBytes] at hvalue ⊢
  rw [hvalue, UInt64.ofNat_toNat] at hcons
  exact hcons

end Greenlight.Lib
