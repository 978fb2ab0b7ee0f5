import Greenlight.Lib.BigEndian
import Greenlight.Tramp.Pay
import Mathlib.Data.List.GetD
import Mathlib.Data.Nat.Bitwise

/-!
# Feature bits

A feature bitmap is a big-endian number of any length.  `feature_guard` of the plugin reverses the bytes and
counts from the front, `is_feature_bit_enabled` of the client counts from the end.  Both read the bit of weight
`2 ^ index`, and neither leaves the bitmap.
-/

namespace Greenlight.Tramp

open Greenlight.Lib

/-- `is_feature_bit_enabled`; `none` is a panic, of a subtraction or of an index that is out of bounds. -/
def isFeatureBitEnabled (bitmap : Bytes) (index : ℕ) : Option Bool :=
  let nBytes := bitmap.length
  let byteIndex := index / 8
  let bitIndex := index % 8
  if nBytes ≤ byteIndex then some false
  else do
    let last ← Nat.psub nBytes 1
    let position ← Nat.psub last byteIndex
    let selectedByte ← bitmap[position]?
    let bitMask := 1 <<< UInt8.ofNat bitIndex
    return selectedByte &&& bitMask ≠ 0

/-- The condition on which `feature_guard` fails, with its index; `none` is an index that is out of bounds. -/
def featureMissing (features : Bytes) (featureBit : ℕ) : Option Bool :=
  let features := features.reverse
  let bytePos := featureBit / 8
  let bitPos := featureBit % 8
  if features.length ≤ bytePos then some true
  else features[bytePos]?.map fun byte => byte &&& 1 <<< UInt8.ofNat bitPos = 0

section

variable (features : Bytes) (index : ℕ)

theorem and_mask_eq_zero_iff (byte : UInt8) {bit : ℕ} (hbit : bit < 8) :
    byte &&& 1 <<< UInt8.ofNat bit = 0 ↔ byte.toNat.testBit bit = false := by
  have hmask : (1 <<< UInt8.ofNat bit : UInt8).toNat = 2 ^ bit := by
    rw [UInt8.toNat_shiftLeft, UInt8.toNat_ofNat', Nat.mod_eq_of_lt (by omega : bit < 2 ^ 8), Nat.mod_eq_of_lt hbit,
      UInt8.toNat_one, Nat.one_shiftLeft]
    exact Nat.mod_eq_of_lt (Nat.pow_lt_pow_right (by decide) hbit)
  rw [← UInt8.toNat_inj, UInt8.toNat_and, hmask, Nat.and_two_pow, UInt8.toNat_zero]
  cases byte.toNat.testBit bit <;> simp

theorem testBit_of_length_le (h : features.length ≤ index / 8) : (beNat features).testBit index = false := by
  rw [testBit_beNat, List.getD_eq_default _ _ (by rwa [List.length_reverse])]
  exact Nat.zero_testBit _

theorem and_mask_of_getElem? {byte : UInt8} (h : features.reverse[index / 8]? = some byte) :
    byte &&& 1 <<< UInt8.ofNat (index % 8) = 0 ↔ ¬ (beNat features).testBit index = true := by
  obtain ⟨hpos, rfl⟩ := List.getElem?_eq_some_iff.1 h
  rw [testBit_beNat, List.getD_eq_getElem _ _ hpos, Bool.not_eq_true]
  exact and_mask_eq_zero_iff _ (Nat.mod_lt _ (by decide))

theorem featureMissing_eq : featureMissing features index = some (!(beNat features).testBit index) := by
  unfold featureMissing
  dsimp only
  split_ifs with h
  · rw [List.length_reverse] at h
    rw [testBit_of_length_le _ _ h]
    rfl
  · have hbyte := List.getElem?_eq_getElem (not_le.1 h)
    rw [hbyte, Option.map_some, decide_eq_decide.2 (and_mask_of_getElem? _ _ hbyte), decide_not, Bool.decide_eq_true]

theorem isFeatureBitEnabled_eq : isFeatureBitEnabled features index = some ((beNat features).testBit index) := by
  unfold isFeatureBitEnabled
  dsimp only
  split_ifs with h
  · rw [testBit_of_length_le _ _ h]
  · -- the position from the end is one from the front of the reversed bitmap
    have hlt : index / 8 < features.length := not_le.1 h
    have hrev : features.reverse[index / 8]? = features[features.length - 1 - index / 8]? :=
      List.getElem?_reverse hlt
    obtain ⟨byte, hbyte⟩ : ∃ byte, features.reverse[index / 8]? = some byte :=
      ⟨_, List.getElem?_eq_getElem (by rwa [List.length_reverse])⟩
    have hbit : byte &&& 1 <<< UInt8.ofNat (index % 8) ≠ 0 ↔ (beNat features).testBit index = true :=
      (and_mask_of_getElem? _ _ hbyte).not.trans not_not
    simp only [Nat.psub_eq_sub (show 1 ≤ features.length by omega),
      Nat.psub_eq_sub (show index / 8 ≤ features.length - 1 by omega), ← hrev, hbyte, Option.bind_eq_bind,
      Option.bind_some, Option.pure_def]
    exact congrArg some (Bool.eq_iff_iff.2 (decide_eq_true_iff.trans hbit))

/-- The guard fails on its condition, which stays inside of the bitmap. -/
theorem featureGuard_eq_ok_iff_featureMissing :
    featureGuard features index = .ok () ↔ featureMissing features index = some false := by
  unfold featureGuard featureMissing
  dsimp only
  by_cases hpos : features.reverse.length ≤ index / 8
  · rw [if_pos (Or.inl hpos), if_pos hpos]
    exact iff_of_false nofun nofun
  · have hlt := not_le.1 hpos
    rw [if_neg hpos, List.getElem?_eq_getElem hlt, List.getD_eq_getElem _ _ hlt, Option.map_some, Option.some_inj,
      decide_eq_false_iff_not]
    split_ifs with h
    · exact iff_of_false nofun fun hbit => h.elim hpos hbit
    · exact iff_of_true rfl fun hbit => h (Or.inr hbit)

theorem featureGuard_eq_ok_iff : featureGuard features index = .ok () ↔ (beNat features).testBit index = true := by
  rw [featureGuard_eq_ok_iff_featureMissing, featureMissing_eq, Option.some_inj, Bool.not_eq_false']

end

/-- **The two tests of a feature bit agree.**  The guard of the plugin passes exactly if the client finds the bit,
and both read the bit of the bitmap as a big-endian number, without an index that is out of bounds. -/
theorem featureGuard_iff_isFeatureBitEnabled (features : Bytes) (index : ℕ) :
    (featureGuard features index = .ok () ↔ isFeatureBitEnabled features index = some true) ∧
      (featureGuard features index = .ok () ↔ (beNat features).testBit index = true) ∧
      isFeatureBitEnabled features index = some ((beNat features).testBit index) ∧
      featureMissing features index = some (!(beNat features).testBit index) := by
  refine ⟨?_, featureGuard_eq_ok_iff features index, isFeatureBitEnabled_eq features index,
    featureMissing_eq features index⟩
  rw [featureGuard_eq_ok_iff, isFeatureBitEnabled_eq, Option.some.injEq]

end Greenlight.Tramp
