import Greenlight.Lib.Decimal
import Mathlib.Data.String.Basic

/-!
# Numerals in the order of text

Text is compared character by character.  A numeral comes before another one of the same length if its number is
smaller, and before a shorter one if the number that its first digits form is; so the order of text is not that of the
numbers (`toDigits_append_lt_iff`).
-/

namespace Greenlight.Lib

/-- Lists with beginnings of the same length are compared by these first. -/
theorem append_lt_append_iff {α : Type} [LinearOrder α] : ∀ {p q s t : List α}, p.length = q.length →
    (p ++ s < q ++ t ↔ p < q ∨ p = q ∧ s < t)
  | [], [], s, t, _ => by simp
  | a :: p, b :: q, s, t, h => by
    have ih := append_lt_append_iff (s := s) (t := t) (Nat.succ.inj h : p.length = q.length)
    rw [List.cons_append, List.cons_append, List.cons_lt_cons_iff, List.cons_lt_cons_iff, ih, List.cons.injEq,
      and_or_left, or_assoc, and_assoc]

theorem digitChar_lt_iff {i j : ℕ} (hi : i < 10) (hj : j < 10) : Nat.digitChar i < Nat.digitChar j ↔ i < j := by
  have hall : ∀ i j : Fin 10, Nat.digitChar i < Nat.digitChar j ↔ i < j := by decide
  exact hall ⟨i, hi⟩ ⟨j, hj⟩

theorem toDigits_injective : Function.Injective (Nat.toDigits 10) := fun m n h => by
  have hvalue := congrArg (Nat.ofDigitChars 10 · 0) h
  simpa only [Nat.ofDigitChars_ten_toDigits] using hvalue

theorem toDigits_lt_iff : ∀ {m n : ℕ}, (Nat.toDigits 10 m).length = (Nat.toDigits 10 n).length →
    (Nat.toDigits 10 m < Nat.toDigits 10 n ↔ m < n) := by
  intro m
  induction m using Nat.strongRecOn with
  | ind m ih =>
    intro n hlen
    by_cases hm : m < 10
    · have hn : n < 10 := by
        have hle := (Nat.length_toDigits_le_iff (b := 10) (n := n) (k := 1) (by decide) (by decide)).1
          (by rw [← hlen, Nat.toDigits_of_lt_base hm]; rfl)
        omega
      rw [Nat.toDigits_of_lt_base hm, Nat.toDigits_of_lt_base hn, List.cons_lt_cons_iff, digitChar_lt_iff hm hn]
      simp
    · have hn : ¬ n < 10 := by
        intro hn
        have hle := (Nat.length_toDigits_le_iff (b := 10) (n := m) (k := 1) (by decide) (by decide)).1
          (by rw [hlen, Nat.toDigits_of_lt_base hn]; rfl)
        omega
      -- the last digit decides if the others are the same
      rw [Nat.toDigits_of_base_le (by decide) (not_lt.1 hm), Nat.toDigits_of_base_le (by decide) (not_lt.1 hn)]
        at hlen ⊢
      simp only [List.length_append, List.length_singleton, Nat.add_right_cancel_iff] at hlen
      have hlast := digitChar_lt_iff (Nat.mod_lt m (by decide : 0 < 10)) (Nat.mod_lt n (by decide : 0 < 10))
      rw [append_lt_append_iff hlen, ih (m / 10) (by omega) hlen, toDigits_injective.eq_iff,
        List.cons_lt_cons_iff, hlast]
      simp only [List.not_lt_nil, and_false, or_false]
      omega

/-- The first digits of a numeral are the numeral of a quotient. -/
theorem exists_toDigits_append : ∀ {j n : ℕ}, j < (Nat.toDigits 10 n).length →
    ∃ rest, Nat.toDigits 10 n = Nat.toDigits 10 (n / 10 ^ j) ++ rest ∧ rest.length = j
  | 0, n, _ => ⟨[], by simp⟩
  | j + 1, n, h => by
    obtain ⟨rest, hrest, hlen⟩ := exists_toDigits_append (j := j) (n := n) (by omega)
    have hbase : 10 ≤ n / 10 ^ j := by
      by_contra hlt
      rw [hrest, Nat.toDigits_of_lt_base (by omega), List.length_append, List.length_singleton, hlen] at h
      omega
    refine ⟨Nat.digitChar (n / 10 ^ j % 10) :: rest, ?_, by rw [List.length_cons, hlen]⟩
    rw [hrest, Nat.toDigits_of_base_le (by decide) hbase, Nat.div_div_eq_div_mul, ← Nat.pow_succ]
    simp

def numDigits (n : ℕ) : ℕ := (Nat.toDigits 10 n).length

/-- The number that the first digits of `n` form, as many as `m` has. -/
def leadingDigits (m n : ℕ) : ℕ := n / 10 ^ (numDigits n - numDigits m)

theorem lt_pow_numDigits (n : ℕ) : n < 10 ^ numDigits n :=
  (Nat.length_toDigits_le_iff (by decide) Nat.length_toDigits_pos).1 le_rfl

theorem numDigits_le {m n : ℕ} (h : m ≤ n) : numDigits m ≤ numDigits n :=
  (Nat.length_toDigits_le_iff (by decide) Nat.length_toDigits_pos).2 (h.trans_lt (lt_pow_numDigits n))

/-- **Numerals of different lengths.**  The first digits of the longer numeral are compared with the shorter one, and
then its other digits with what follows the shorter one. -/
theorem toDigits_append_lt_iff {m n : ℕ} (h : numDigits m ≤ numDigits n) :
    ∃ rest, rest.length = numDigits n - numDigits m ∧ (∀ c ∈ rest, c.isDigit) ∧
      ∀ s t, Nat.toDigits 10 n ++ t < Nat.toDigits 10 m ++ s ↔
        leadingDigits m n < m ∨ leadingDigits m n = m ∧ rest ++ t < s := by
  have hpos : 0 < numDigits m := Nat.length_toDigits_pos
  obtain ⟨rest, hrest, hlen⟩ := exists_toDigits_append (j := numDigits n - numDigits m) (n := n)
    (show _ < numDigits n by omega)
  change Nat.toDigits 10 n = Nat.toDigits 10 (leadingDigits m n) ++ rest at hrest
  have hlead : numDigits (leadingDigits m n) = numDigits m := by
    have htotal := congrArg List.length hrest
    rw [List.length_append, hlen] at htotal
    change numDigits n = numDigits (leadingDigits m n) + (numDigits n - numDigits m) at htotal
    omega
  refine ⟨rest, hlen, fun c hc => ?_, fun s t => ?_⟩
  · have hmem : c ∈ Nat.toDigits 10 n := by
      rw [hrest]
      exact List.mem_append_right _ hc
    exact (numeral_toDigits n).isDigit c hmem
  · rw [hrest, List.append_assoc, append_lt_append_iff hlead, toDigits_lt_iff hlead, toDigits_injective.eq_iff]

end Greenlight.Lib
