import Greenlight.Plugin.Tlv

/-!
# Truncated integers

`put_tu64` writes the bytes of a word without its leading zeros, none for zero and up to eight.  `get_tu64` goes by the
number of bytes that are left and reads one, two, four or eight; on any other number it panics.  So it reads back what
was written exactly if the word takes one of these numbers of bytes (`getTu64_putTu64_iff`), and never reads another
word (`getTu64_putTu64`).
-/

namespace Greenlight.Plugin

open Greenlight.Lib

/-- `get_tu64`; the byte of `get_u8` is a number of one byte. -/
def getTu64 (b : Bytes) : Fallible (UInt64 × Bytes) :=
  match b.length with
  | 1 => getBe 1 b
  | 2 => getBe 2 b
  | 4 => getBe 4 b
  | 8 => getBe 8 b
  | _ => .error .panic

/-! ### What is written -/

theorem length_putTu64_le (u : UInt64) : (putTu64 u).length ≤ 8 :=
  (List.dropWhile_suffix _).length_le.trans (length_beBytes u).le

theorem beNat_putTu64 (u : UInt64) : beNat (putTu64 u) = u.toNat := by
  rw [putTu64, beNat_dropWhile_zero, beNat_beBytes]

theorem head?_putTu64_ne (u : UInt64) : (putTu64 u).head? ≠ some 0 := by
  intro h
  have hfirst := List.head?_dropWhile_not (· == 0) (beBytes u)
  rw [← putTu64, h] at hfirst
  exact absurd hfirst (by decide)

theorem length_putTu64_eq_succ_iff (u : UInt64) (k : ℕ) :
    (putTu64 u).length = k + 1 ↔ 256 ^ k ≤ u.toNat ∧ u.toNat < 256 ^ (k + 1) := by
  rw [length_eq_succ_iff (head?_putTu64_ne u), beNat_putTu64]

/-! ### What is read -/

theorem getBe_length (b : Bytes) : getBe b.length b = .ok (UInt64.ofNat (beNat b), []) :=
  getBe_eq_ok_iff.2 ⟨b, rfl, (List.append_nil b).symm, rfl⟩

theorem getTu64_eq (b : Bytes) : getTu64 b =
    if b.length ∈ [1, 2, 4, 8] then .ok (UInt64.ofNat (beNat b), []) else .error .panic := by
  rw [← getBe_length]
  unfold getTu64
  split
  case h_5 h1 h2 h4 h8 =>
    have hother : b.length ∉ [1, 2, 4, 8] := by
      simp only [List.mem_cons, List.not_mem_nil, or_false, not_or]
      exact ⟨h1, h2, h4, h8⟩
    rw [if_neg hother]
  all_goals
    rename_i hlen
    rw [hlen, if_pos (by decide)]

theorem getTu64_putTu64 (u : UInt64) : getTu64 (putTu64 u) =
    if (putTu64 u).length ∈ [1, 2, 4, 8] then .ok (u, []) else .error .panic := by
  rw [getTu64_eq, beNat_putTu64, UInt64.ofNat_toNat]

/-- **Truncated integers round trip** exactly if they take one, two, four or eight bytes. -/
theorem getTu64_putTu64_iff (u : UInt64) : getTu64 (putTu64 u) = .ok (u, []) ↔
    (1 ≤ u.toNat ∧ u.toNat < 2 ^ 16) ∨ (2 ^ 24 ≤ u.toNat ∧ u.toNat < 2 ^ 32) ∨ 2 ^ 56 ≤ u.toNat := by
  have hone := length_putTu64_eq_succ_iff u 0
  have htwo := length_putTu64_eq_succ_iff u 1
  have hfour := length_putTu64_eq_succ_iff u 3
  have height := length_putTu64_eq_succ_iff u 7
  have hlt : u.toNat < 2 ^ 64 := u.toNat_lt
  have hread : getTu64 (putTu64 u) = .ok (u, []) ↔ (putTu64 u).length ∈ [1, 2, 4, 8] := by
    rw [getTu64_putTu64]
    split_ifs with hlen
    · exact iff_of_true rfl hlen
    · exact iff_of_false nofun hlen
  rw [hread]
  simp only [List.mem_cons, List.not_mem_nil, or_false]
  omega

/-- Zero is written in no byte, and `2 ^ 16` in three. -/
theorem getTu64_putTu64_panics : getTu64 (putTu64 65536) = .error .panic ∧
    ¬ ∀ u : UInt64, getTu64 (putTu64 u) = .ok (u, []) := by
  have hpanic : getTu64 (putTu64 0) = .error .panic := by decide
  refine ⟨by decide, fun h => ?_⟩
  cases hpanic.symm.trans (h 0)

end Greenlight.Plugin
