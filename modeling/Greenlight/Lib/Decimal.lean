import Greenlight.Lib.Word

/-!
# Decimal numbers in text

`u64::from_str`, and amounts with a unit.  A reader that separates the digits of a text from its other
characters (`partitionDigits`) finds number and unit of every amount that is written as a numeral followed by
its unit (`Quantity.partitionDigits_eq`), and of other texts as well.
-/

namespace Greenlight.Lib

/-- `u64::from_str`. -/
def parseU64 (s : String) : Option UInt64 :=
  let digits : List Char := match s.toList with
    | '+' :: rest => rest
    | cs => cs
  let value : ℕ := digits.foldl (fun n c => 10 * n + (c.toNat - '0'.toNat)) 0
  if digits ≠ [] ∧ digits.all Char.isDigit ∧ value < UInt64.size then some (UInt64.ofNat value) else none

example : parseU64 "+100" = some 100 ∧ parseU64 "18446744073709551616" = none := by decide +kernel

/-- `chars().partition(|c| c.is_digit(10))`: the digits of a text, and its other characters. -/
def partitionDigits (s : String) : String × String :=
  let (digits, rest) := s.toList.partition Char.isDigit
  (String.ofList digits, String.ofList rest)

/-- The number of the digits of a text, wherever they stand. -/
def digitsValue (s : String) : ℕ := Nat.ofDigitChars 10 (partitionDigits s).1.toList 0

def NoDigit (s : String) : Prop := ∀ c ∈ s.toList, c.isDigit = false

instance (s : String) : Decidable (NoDigit s) :=
  decidable_of_iff (s.toList.all fun c => !c.isDigit) (by simp [NoDigit])

/-- A text of digits, at least one, for the number. -/
structure Numeral (cs : List Char) (n : ℕ) : Prop where
  ne_nil : cs ≠ []
  isDigit : ∀ c ∈ cs, c.isDigit
  value : Nat.ofDigitChars 10 cs 0 = n

/-- A numeral followed by a unit. -/
def Quantity (s : String) (n : ℕ) (unit : String) : Prop := ∃ cs, Numeral cs n ∧ s.toList = cs ++ unit.toList

/-! ### Numerals -/

/-- The text that `format!` writes for a number. -/
theorem numeral_toDigits (n : ℕ) : Numeral (Nat.toDigits 10 n) n where
  ne_nil := Nat.toDigits_ne_nil
  isDigit _ hc := Nat.isDigit_of_mem_toDigits (by decide) (by decide) hc
  value := Nat.ofDigitChars_ten_toDigits

theorem quantity_repr (n : ℕ) (unit : String) : Quantity (n.repr ++ unit) n unit :=
  ⟨_, numeral_toDigits n, by rw [String.toList_append, Nat.toList_repr]⟩

theorem parseU64_of_isDigit {s : String} (h : ∀ c ∈ s.toList, c.isDigit) :
    parseU64 s = if s ≠ "" ∧ Nat.ofDigitChars 10 s.toList 0 < UInt64.size
      then some (UInt64.ofNat (Nat.ofDigitChars 10 s.toList 0)) else none := by
  have hplus : (match s.toList with | '+' :: rest => rest | cs => cs) = s.toList := by
    split
    · rename_i heq
      exact absurd (h '+' (by rw [heq]; exact List.mem_cons_self)) (by decide)
    · rfl
  have hall : s.toList.all Char.isDigit = true := List.all_eq_true.2 h
  have hempty : s.toList ≠ [] ↔ s ≠ "" := by simp
  simp only [parseU64, hplus, hall, hempty, true_and, Nat.ofDigitChars_eq_foldl]

/-! ### Digits and other characters -/

theorem partitionDigits_eq (s : String) : partitionDigits s =
    (String.ofList (s.toList.filter Char.isDigit), String.ofList (s.toList.filter fun c => !c.isDigit)) := by
  simp only [partitionDigits, List.partition_eq_filter_filter]
  rfl

theorem isDigit_of_mem_partitionDigits {s : String} {c : Char} (h : c ∈ (partitionDigits s).1.toList) :
    c.isDigit := by
  rw [partitionDigits_eq, String.toList_ofList] at h
  exact (List.mem_filter.1 h).2

theorem parseU64_partitionDigits (s : String) : parseU64 (partitionDigits s).1 =
    if (partitionDigits s).1 ≠ "" ∧ digitsValue s < UInt64.size then some (UInt64.ofNat (digitsValue s)) else none :=
  parseU64_of_isDigit fun _ => isDigit_of_mem_partitionDigits

namespace Quantity

variable {s unit : String} {n : ℕ}

/-- The digits of an amount are its numeral, and the other characters are its unit. -/
theorem partitionDigits_eq (h : Quantity s n unit) (hunit : NoDigit unit) :
    ∃ cs, Numeral cs n ∧ partitionDigits s = (String.ofList cs, unit) := by
  obtain ⟨cs, hcs, hs⟩ := h
  refine ⟨cs, hcs, ?_⟩
  have hdigits : (cs ++ unit.toList).filter Char.isDigit = cs := by
    rw [List.filter_append, List.filter_eq_self.2 hcs.isDigit,
      List.filter_eq_nil_iff.2 fun c hc => by simp [hunit c hc], List.append_nil]
  have hrest : (cs ++ unit.toList).filter (fun c => !c.isDigit) = unit.toList := by
    rw [List.filter_append, List.filter_eq_nil_iff.2 fun c hc => by simp [hcs.isDigit c hc],
      List.filter_eq_self.2 fun c hc => by simp [hunit c hc], List.nil_append]
  rw [Lib.partitionDigits_eq, hs, hdigits, hrest, String.ofList_toList]

theorem digits_ne_empty (h : Quantity s n unit) (hunit : NoDigit unit) :
    (partitionDigits s).1 ≠ "" := by
  obtain ⟨cs, hcs, hs⟩ := h.partitionDigits_eq hunit
  simpa [hs] using hcs.ne_nil

theorem unit_eq (h : Quantity s n unit) (hunit : NoDigit unit) :
    (partitionDigits s).2 = unit := by
  obtain ⟨cs, -, hs⟩ := h.partitionDigits_eq hunit
  rw [hs]

theorem digitsValue_eq (h : Quantity s n unit) (hunit : NoDigit unit) :
    digitsValue s = n := by
  obtain ⟨cs, hcs, hs⟩ := h.partitionDigits_eq hunit
  rw [digitsValue, hs, String.toList_ofList]
  exact hcs.value

end Quantity

end Greenlight.Lib
