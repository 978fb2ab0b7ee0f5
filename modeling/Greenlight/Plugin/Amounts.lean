import Greenlight.Lib.Decimal
import Greenlight.Lsp.HtlcAccepted

/-!
# Amounts in the `invoice_payment` hook

`amt_from_str_or_int` of `messages.rs`, and the serializer of `requests.rs` whose amounts it reads.  The visitor
collects the digits and the unit from anywhere in the string, expects the digits to be a number, and multiplies.
So what it does with a string is what one expects if the characters that are no digits are no unit, or if the
string is an amount that fits a word, and in no other case (`readsAmount_iff`).
-/

namespace Greenlight.Plugin

open Greenlight.Lib Greenlight.Lsp

/-- The conversion table from the unit to `msat`. -/
def unitMult (ext : String) : Option UInt64 :=
  if ext = "msat" then some 1
  else if ext = "sat" then some 1000
  else if ext = "btc" then some 100000000000
  else none

def visitStr (build : Build) (v : String) : Fallible UInt64 :=
  match unitMult (partitionDigits v).2 with
  | none => .error .error
  | some mult =>
    match parseU64 (partitionDigits v).1 with
    | none => .error .panic
    | some num =>
      match mulU64 build num mult with
      | none => .error .panic
      | some amt => .ok amt

/-- `amt_from_str_or_int`: the visitor takes strings and unsigned integers. -/
def amtFromStrOrInt (build : Build) : Json → Fallible UInt64
  | .str v => visitStr build v
  | .int n => if 0 ≤ n ∧ n < 2 ^ 64 then .ok (UInt64.ofNat n.toNat) else .error .error
  | _ => .error .error

/-- `Amount` of `requests.rs`. -/
inductive Amount where
  | millisatoshi (a : UInt64)
  | satoshi (a : UInt64)
  | bitcoin (a : UInt64)
  | all
  | any
  deriving DecidableEq, Repr

def Amount.serialize : Amount → Json
  | .millisatoshi a => .str (a.toNat.repr ++ "msat")
  | .satoshi a => .str (a.toNat.repr ++ "sat")
  | .bitcoin a => .str (a.toNat.repr ++ "btc")
  | .all => .str "all"
  | .any => .str "any"

def Amount.msat : Amount → Option ℕ
  | .millisatoshi a => some (a.toNat * 1)
  | .satoshi a => some (a.toNat * 1000)
  | .bitcoin a => some (a.toNat * 100000000000)
  | .all => none
  | .any => none

/-! ### What a string stands for -/

/-- The string is a numeral with a unit behind it, and its value in `msat` is the word. -/
def AmountText (v : String) (amt : UInt64) : Prop :=
  ∃ n unit mult, unitMult unit = some mult ∧ Quantity v n unit ∧ n * mult.toNat = amt.toNat

/-- The reader takes the amounts that fit a word with their values, and returns an error for all other strings. -/
structure ReadsAmount (build : Build) (v : String) : Prop where
  accepts : ∀ amt, amtFromStrOrInt build (.str v) = .ok amt ↔ AmountText v amt
  rejects : (¬ ∃ amt, AmountText v amt) → amtFromStrOrInt build (.str v) = .error .error

theorem unitMult_cases {unit : String} {mult : UInt64} (h : unitMult unit = some mult) :
    NoDigit unit ∧ 0 < mult.toNat := by
  unfold unitMult at h
  split at h
  · subst unit
    cases h
    decide
  split at h
  · subst unit
    cases h
    decide
  split at h
  · subst unit
    cases h
    decide
  · cases h

theorem visitStr_of_quantity (build : Build) {v unit : String} {n : ℕ} {mult : UInt64}
    (hunit : unitMult unit = some mult) (hv : Quantity v n unit) (hfits : n * mult.toNat < UInt64.size) :
    visitStr build v = .ok (UInt64.ofNat (n * mult.toNat)) := by
  obtain ⟨hdigit, hpos⟩ := unitMult_cases hunit
  have hn : n < UInt64.size := (Nat.le_mul_of_pos_right n hpos).trans_lt hfits
  have hword : (UInt64.ofNat n).toNat = n := UInt64.toNat_ofNat_of_lt hn
  have hparse : parseU64 (partitionDigits v).1 = some (UInt64.ofNat n) := by
    rw [parseU64_partitionDigits, hv.digitsValue_eq hdigit, if_pos ⟨hv.digits_ne_empty hdigit, hn⟩]
  have hmul : mulU64 build (UInt64.ofNat n) mult = some (UInt64.ofNat n * mult) :=
    mulU64_of_lt build (by rwa [hword])
  have hprod : UInt64.ofNat n * mult = UInt64.ofNat (n * mult.toNat) := by
    rw [UInt64.ofNat_mul, UInt64.ofNat_toNat]
  simp only [visitStr, hv.unit_eq hdigit, hunit, hparse, hmul, hprod]

theorem visitStr_of_amountText (build : Build) {v : String} {amt : UInt64} (h : AmountText v amt) :
    visitStr build v = .ok amt := by
  obtain ⟨n, unit, mult, hunit, hv, hvalue⟩ := h
  have hread := visitStr_of_quantity build hunit hv (hvalue ▸ amt.toNat_lt)
  rwa [hvalue, UInt64.ofNat_toNat] at hread

theorem not_amountText {v : String} (h : unitMult (partitionDigits v).2 = none) (amt : UInt64) :
    ¬ AmountText v amt := by
  rintro ⟨n, unit, mult, hunit, hv, -⟩
  rw [hv.unit_eq (unitMult_cases hunit).1, hunit] at h
  cases h

/-- Behind the table there is no error any more: the digits are expected to be a number. -/
theorem visitStr_ne_error (build : Build) {v : String} {mult : UInt64}
    (hunit : unitMult (partitionDigits v).2 = some mult) : visitStr build v ≠ .error .error := by
  simp only [visitStr, hunit]
  cases parseU64 (partitionDigits v).1 with
  | none => exact nofun
  | some num =>
    cases hmul : mulU64 build num mult with
    | none => simp only [hmul]; exact nofun
    | some amt => simp only [hmul]; exact nofun

/-- **When a string is read as it should be**: its characters that are no digits are no unit, or it is an amount
that fits a word. -/
theorem readsAmount_iff (build : Build) (v : String) :
    ReadsAmount build v ↔ unitMult (partitionDigits v).2 = none ∨ ∃ amt, AmountText v amt := by
  constructor
  · intro h
    cases hunit : unitMult (partitionDigits v).2 with
    | none => exact Or.inl rfl
    | some mult =>
      refine Or.inr (by_contra fun hno => ?_)
      exact visitStr_ne_error build hunit (h.rejects hno)
  · rintro (hnone | ⟨amt, hamt⟩)
    · have hread : amtFromStrOrInt build (.str v) = .error .error := by
        simp only [amtFromStrOrInt, visitStr, hnone]
      refine ⟨fun amt => ⟨fun h => ?_, fun h => absurd h (not_amountText hnone amt)⟩, fun _ => hread⟩
      cases hread.symm.trans h
    · have hread : amtFromStrOrInt build (.str v) = .ok amt := visitStr_of_amountText build hamt
      refine ⟨fun amt' => ⟨fun h => ?_, visitStr_of_amountText build⟩, fun hno => absurd ⟨amt, hamt⟩ hno⟩
      cases hread.symm.trans h
      exact hamt

theorem amtFromStrOrInt_serialize (build : Build) {a : Amount} {msat : ℕ} (ha : a.msat = some msat)
    (hfits : msat < UInt64.size) : amtFromStrOrInt build a.serialize = .ok (UInt64.ofNat msat) := by
  have hread : ∀ (n : ℕ) (unit : String) (mult : UInt64), unitMult unit = some mult → n * mult.toNat = msat →
      visitStr build (n.repr ++ unit) = .ok (UInt64.ofNat msat) := fun n unit mult hunit hvalue => by
    rw [visitStr_of_quantity build hunit (quantity_repr n unit) (by rwa [hvalue]), hvalue]
  cases a with
  | millisatoshi a =>
    refine hread a.toNat "msat" 1 rfl ?_
    simpa only [Amount.msat, Option.some.injEq, UInt64.reduceToNat] using ha
  | satoshi a =>
    refine hread a.toNat "sat" 1000 rfl ?_
    simpa only [Amount.msat, Option.some.injEq, UInt64.reduceToNat] using ha
  | bitcoin a =>
    refine hread a.toNat "btc" 100000000000 rfl ?_
    simpa only [Amount.msat, Option.some.injEq, UInt64.reduceToNat] using ha
  | all => cases ha
  | any => cases ha

/-- **Amount strings**: when a string is read as it should be, and that serialized amounts are. -/
theorem amountStrings (build : Build) (v : String) :
    (ReadsAmount build v ↔ unitMult (partitionDigits v).2 = none ∨ ∃ amt, AmountText v amt) ∧
      ∀ (a : Amount) (msat : ℕ), a.msat = some msat → msat < UInt64.size →
        amtFromStrOrInt build a.serialize = .ok (UInt64.ofNat msat) :=
  ⟨readsAmount_iff build v, fun _ _ => amtFromStrOrInt_serialize build⟩

theorem amountStrings_satoshi : amtFromStrOrInt .release (Amount.satoshi 5).serialize = .ok (UInt64.ofNat 5000) :=
  (amountStrings .release "5sat").2 (.satoshi 5) 5000 rfl (by decide)

/-- A unit in front of the digits is taken, a unit without digits is a panic, and a product wraps. -/
theorem amounts_misread : amtFromStrOrInt .release (.str "s5at") = .ok 5000 ∧
    amtFromStrOrInt .release (.str "msat") = .error .panic ∧
    amtFromStrOrInt .release (.str "184467441btc") = .ok 26290448384 ∧
    ¬ ∀ build v, ReadsAmount build v := by
  have hpanic : amtFromStrOrInt .release (.str "msat") = .error .panic := by decide +kernel
  refine ⟨by decide +kernel, hpanic, by decide +kernel, fun h => ?_⟩
  rcases (readsAmount_iff .release "msat").1 (h .release "msat") with hnone | ⟨amt, hamt⟩
  · exact absurd hnone (by decide +kernel)
  · cases hpanic.symm.trans (visitStr_of_amountText .release hamt)

end Greenlight.Plugin
