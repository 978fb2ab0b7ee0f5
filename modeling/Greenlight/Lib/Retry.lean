import Mathlib.Data.Nat.Basic

/-!
# Attempts until one ends

A loop that makes one attempt after the other until one of them leaves it with a result.  What it returns is what the
first attempt that leaves does (`exists_retry_iff`).  Attempts that are a pause apart get past every deadline, after
at most as many as there are pauses up to it (`Times.le_start`).
-/

namespace Greenlight.Lib

section Attempts

variable {ρ : Type} {attempt : ℕ → Option ρ} {r : ρ} {k n : ℕ}

/-- The attempts from number `k` on, of which at most `fuel` are made; `none` is an attempt that is made again. -/
def retryFrom (attempt : ℕ → Option ρ) (k : ℕ) : ℕ → Option ρ
  | 0 => none
  | fuel + 1 =>
    match attempt k with
    | some r => some r
    | none => retryFrom attempt (k + 1) fuel

def retry (attempt : ℕ → Option ρ) (fuel : ℕ) : Option ρ := retryFrom attempt 0 fuel

theorem retryFrom_eq_some_iff :
    retryFrom attempt k n = some r ↔ ∃ i < n, attempt (k + i) = some r ∧ ∀ j < i, attempt (k + j) = none := by
  induction n generalizing k with
  | zero => exact iff_of_false nofun fun ⟨i, hi, _⟩ => absurd hi (Nat.not_lt_zero i)
  | succ n ih =>
    rw [retryFrom]
    cases hk : attempt k with
    | some r' =>
      constructor
      · rintro ⟨⟩
        exact ⟨0, Nat.succ_pos n, hk, fun j hj => absurd hj (Nat.not_lt_zero j)⟩
      · rintro ⟨i, -, hi, hbefore⟩
        cases i with
        | zero => exact hk.symm.trans hi
        | succ i => cases hk.symm.trans (hbefore 0 (Nat.succ_pos i))
    | none =>
      show retryFrom attempt (k + 1) n = some r ↔ _
      rw [ih]
      constructor
      · rintro ⟨i, hi, hr, hbefore⟩
        refine ⟨i + 1, Nat.succ_lt_succ hi, by rwa [Nat.add_comm i, ← Nat.add_assoc], fun j hj => ?_⟩
        cases j with
        | zero => exact hk
        | succ j =>
          have hj' := hbefore j (Nat.lt_of_succ_lt_succ hj)
          rwa [Nat.add_right_comm] at hj'
      · rintro ⟨i, hi, hr, hbefore⟩
        cases i with
        | zero => cases hk.symm.trans hr
        | succ i =>
          refine ⟨i, Nat.lt_of_succ_lt_succ hi, by rwa [Nat.add_right_comm], fun j hj => ?_⟩
          have hj' := hbefore (j + 1) (Nat.succ_lt_succ hj)
          rwa [← Nat.add_assoc, Nat.add_right_comm] at hj'

theorem retry_eq_some_iff : retry attempt n = some r ↔ ∃ i < n, attempt i = some r ∧ ∀ j < i, attempt j = none := by
  show retryFrom attempt 0 n = some r ↔ _
  simp only [retryFrom_eq_some_iff, Nat.zero_add]

theorem exists_retry_iff :
    (∃ n, retry attempt n = some r) ↔ ∃ i, attempt i = some r ∧ ∀ j < i, attempt j = none := by
  constructor
  · rintro ⟨n, h⟩
    obtain ⟨i, -, hi⟩ := retry_eq_some_iff.1 h
    exact ⟨i, hi⟩
  · rintro ⟨i, hi⟩
    exact ⟨i + 1, retry_eq_some_iff.2 ⟨i, Nat.lt_succ_self i, hi⟩⟩

theorem exists_retry_of_isSome {i : ℕ} (h : (attempt i).isSome) (hi : i < n) : ∃ r, retry attempt n = some r := by
  induction i using Nat.strongRecOn with
  | ind i ih =>
    by_cases hbefore : ∃ j < i, (attempt j).isSome
    · obtain ⟨j, hj, hsome⟩ := hbefore
      exact ih j hj hsome (Nat.lt_trans hj hi)
    · obtain ⟨r, hr⟩ := Option.isSome_iff_exists.1 h
      refine ⟨r, retry_eq_some_iff.2 ⟨i, hi, hr, fun j hj => ?_⟩⟩
      by_contra hne
      exact hbefore ⟨j, hj, Option.isSome_iff_ne_none.2 hne⟩

end Attempts

/-! ### Attempts in time -/

/-- When the attempts start and end; after each one the loop sleeps. -/
structure Times (pause : ℕ) where
  start : ℕ → ℕ
  stop : ℕ → ℕ
  start_le_stop : ∀ i, start i ≤ stop i
  sleeps : ∀ i, stop i + pause ≤ start (i + 1)

namespace Times

variable {pause : ℕ} (t : Times pause)

theorem mul_le_start (i : ℕ) : pause * i ≤ t.start i := by
  induction i with
  | zero => exact Nat.zero_le _
  | succ i ih =>
    have hstop := t.start_le_stop i
    have hsleep := t.sleeps i
    rw [Nat.mul_succ]
    omega

/-- The pauses alone get past a deadline. -/
theorem le_start {deadline k : ℕ} (h : deadline ≤ pause * k) : deadline ≤ t.start k :=
  Nat.le_trans h (t.mul_le_start k)

end Times

end Greenlight.Lib
