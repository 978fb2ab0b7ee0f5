import Mathlib.Data.String.Basic
import Greenlight.Lib.Text

/-!
# The first occurrence

A search goes through a text from its start, so it finds the first occurrence of the pattern (`find_of_firstBetween`),
and the count of the occurrences goes on behind it (`FirstBetween.countMatches`).  Where the first character of the
pattern does not come again in the pattern, two occurrences never overlap, and the one of a pattern that is counted
once is the only one (`FirstBetween.eq_of_countMatches`).

`find` gives a number of bytes.  It is at least the number of characters (`length_le_utf8ByteSize`), and equal to it
on ASCII texts (`utf8ByteSize_of_ascii`).
-/

namespace Greenlight.Lib

section Occurrences

variable {α : Type*} {s pat a b a' b' : List α} {c : α}

/-- The first occurrence of a pattern in a text, as what stands before it and after it. -/
structure FirstBetween (s pat a b : List α) : Prop where
  eq : s = a ++ pat ++ b
  least : ∀ a' b', s = a' ++ pat ++ b' → a.length ≤ a'.length

theorem FirstBetween.start (h : s = pat ++ b) : FirstBetween s pat [] b := ⟨h, fun _ _ _ => Nat.zero_le _⟩

theorem FirstBetween.cons (hpre : ¬ pat <+: c :: s) (h : FirstBetween s pat a b) :
    FirstBetween (c :: s) pat (c :: a) b := by
  refine ⟨by rw [h.eq]; rfl, fun a' b' heq => ?_⟩
  cases a' with
  | nil => exact absurd ⟨b', heq.symm⟩ hpre
  | cons d a' =>
    obtain ⟨rfl, hs⟩ := List.cons_eq_cons.1 heq
    exact Nat.succ_le_succ (h.least a' b' hs)

theorem FirstBetween.not_prefix (h : FirstBetween s pat (c :: a) b) : ¬ pat <+: s := by
  rintro ⟨b', hb'⟩
  exact absurd (h.least [] b' hb'.symm) (Nat.not_succ_le_zero _)

theorem FirstBetween.tail (h : FirstBetween (c :: s) pat (c :: a) b) : FirstBetween s pat a b := by
  refine ⟨(List.cons_eq_cons.1 h.eq).2, fun a' b' heq => ?_⟩
  exact Nat.le_of_succ_le_succ (h.least (c :: a') b' (congrArg (c :: ·) heq))

theorem FirstBetween.isInfix (h : FirstBetween s pat a b) : pat <:+: s := ⟨a, b, h.eq.symm⟩

theorem exists_firstBetween (h : pat <:+: s) : ∃ a b, FirstBetween s pat a b := by
  induction s with
  | nil => exact ⟨[], [], .start (by rw [List.infix_nil.1 h]; rfl)⟩
  | cons c s ih =>
    by_cases hpre : pat <+: c :: s
    · obtain ⟨b, hb⟩ := hpre
      exact ⟨[], b, .start hb.symm⟩
    · obtain ⟨a, b, hab⟩ := ih ((List.infix_cons_iff.1 h).resolve_left hpre)
      exact ⟨c :: a, b, hab.cons hpre⟩

/-- An occurrence that is not the first one begins inside the first one or lies behind its start. -/
theorem FirstBetween.exists_append (h : FirstBetween s pat a b) (h' : s = a' ++ pat ++ b') :
    ∃ d, a' = a ++ d ∧ pat ++ b = d ++ pat ++ b' := by
  have heq : a ++ (pat ++ b) = a' ++ (pat ++ b') := by
    rw [← List.append_assoc, ← List.append_assoc, ← h.eq, ← h']
  obtain ⟨d, rfl⟩ : a <+: a' :=
    List.prefix_of_prefix_length_le (heq ▸ List.prefix_append _ _) (List.prefix_append _ _) (h.least _ _ h')
  exact ⟨d, rfl, by simpa using heq⟩

end Occurrences

/-! ### What is found and counted -/

section Search

variable {s pat a b a' b' : List Char} {c : Char}

theorem findPos_of_firstBetween (h : FirstBetween s pat a b) : findPos pat s = some a.length := by
  induction a generalizing s with
  | nil =>
    have hpre : pat <+: s := ⟨b, h.eq.symm⟩
    cases s with
    | nil => rw [findPos, if_pos (List.prefix_nil.1 hpre)]; rfl
    | cons c s => rw [findPos, if_pos hpre]; rfl
  | cons c a ih =>
    obtain rfl : s = c :: (a ++ pat ++ b) := h.eq
    rw [findPos, if_neg h.not_prefix, ih h.tail]
    rfl

theorem findPos_eq_none (h : ¬ pat <:+: s) : findPos pat s = none := by
  induction s with
  | nil => exact if_neg fun hnil : pat = [] => h (hnil ▸ List.nil_infix)
  | cons c s ih =>
    rw [List.infix_cons_iff, not_or] at h
    rw [findPos, if_neg h.1, ih h.2]
    rfl

theorem firstBetween_iff : FirstBetween s pat a b ↔ s = a ++ pat ++ b ∧ findPos pat s = some a.length := by
  refine ⟨fun h => ⟨h.eq, findPos_of_firstBetween h⟩, fun ⟨heq, hpos⟩ => ⟨heq, ?_⟩⟩
  obtain ⟨a₁, b₁, h₁⟩ := exists_firstBetween (⟨a, b, heq.symm⟩ : pat <:+: s)
  rw [findPos_of_firstBetween h₁, Option.some.injEq] at hpos
  exact hpos ▸ h₁.least

instance : Decidable (FirstBetween s pat a b) := decidable_of_iff _ firstBetween_iff.symm

theorem countMatches_skip (pat l s : List Char) : countMatches pat (l ++ s) l.length = countMatches pat s 0 := by
  induction l with
  | nil => rfl
  | cons c l ih => exact ih

theorem FirstBetween.countMatches (hpat : pat ≠ []) (h : FirstBetween s pat a b) :
    countMatches pat s 0 = countMatches pat b 0 + 1 := by
  induction a generalizing s with
  | nil =>
    obtain ⟨c, p, rfl⟩ := List.exists_cons_of_ne_nil hpat
    obtain rfl : s = c :: (p ++ b) := h.eq
    have hpre : c :: p <+: c :: (p ++ b) := List.prefix_append (c :: p) b
    rw [Lib.countMatches, if_pos hpre, List.length_cons, Nat.add_sub_cancel, countMatches_skip]
  | cons c a ih =>
    obtain rfl : s = c :: (a ++ pat ++ b) := h.eq
    rw [Lib.countMatches, if_neg h.not_prefix, ih h.tail]

theorem countMatches_eq_zero_iff (hpat : pat ≠ []) : Lib.countMatches pat s 0 = 0 ↔ ¬ pat <:+: s := by
  constructor
  · intro hzero hinfix
    obtain ⟨a, b, hab⟩ := exists_firstBetween hinfix
    rw [hab.countMatches hpat] at hzero
    omega
  · intro hnone
    induction s with
    | nil => rfl
    | cons c s ih =>
      rw [List.infix_cons_iff, not_or] at hnone
      rw [Lib.countMatches, if_neg hnone.1, ih hnone.2]

/-- An occurrence that is counted alone is the only one, if none can begin inside it. -/
theorem FirstBetween.eq_of_countMatches {p : List Char} (hc : c ∉ p) (h : FirstBetween s (c :: p) a b)
    (hone : Lib.countMatches (c :: p) s 0 = 1) (h' : s = a' ++ c :: p ++ b') : a' = a ∧ b' = b := by
  -- an occurrence behind the first one would be counted too
  have hrest : ¬ c :: p <:+: b := by
    intro hinfix
    obtain ⟨a₂, b₂, h₂⟩ := exists_firstBetween hinfix
    rw [h.countMatches (List.cons_ne_nil c p), h₂.countMatches (List.cons_ne_nil c p)] at hone
    omega
  obtain ⟨d, rfl, hd⟩ := h.exists_append h'
  cases d with
  | nil => exact ⟨List.append_nil a, (List.append_cancel_left hd).symm⟩
  | cons d₀ d =>
    exfalso
    simp only [List.cons_append, List.append_assoc, List.cons.injEq] at hd
    rcases List.append_eq_append_iff.1 hd.2 with ⟨e, -, hb⟩ | ⟨e, hpe, hb⟩
    · -- it lies behind the first one
      exact hrest ⟨e, b', by simp [hb]⟩
    · -- it begins inside the first one, or right behind it
      cases e with
      | nil => exact hrest ⟨[], b', hb⟩
      | cons e₀ e =>
        obtain rfl : c = e₀ := (List.cons_eq_cons.1 hb).1
        exact hc (hpe ▸ List.mem_append_right _ List.mem_cons_self)

end Search

/-! ### Bytes and characters -/

theorem length_le_utf8Len (l : List Char) : l.length ≤ String.utf8Len l := by
  induction l with
  | nil => exact le_rfl
  | cons c l ih => exact Nat.add_le_add ih (Char.utf8Size_pos c)

theorem utf8Len_of_ascii {l : List Char} (h : ∀ c ∈ l, c.toNat < 128) : String.utf8Len l = l.length := by
  induction l with
  | nil => rfl
  | cons c l ih =>
    obtain ⟨hc, hl⟩ := List.forall_mem_cons.1 h
    have hone : c.utf8Size = 1 := Char.utf8Size_eq_one_iff.2 (Nat.le_of_lt_succ hc)
    rw [String.utf8Len_cons, ih hl, hone, List.length_cons]

theorem length_le_utf8ByteSize (s : String) : s.toList.length ≤ s.utf8ByteSize :=
  String.utf8Len_toList s ▸ length_le_utf8Len s.toList

theorem utf8ByteSize_of_ascii {s : String} (h : ∀ c ∈ s.toList, c.toNat < 128) : s.utf8ByteSize = s.length := by
  rw [← String.utf8Len_toList, utf8Len_of_ascii h, String.length_toList]

theorem eq_append_iff_toList {s a pat b : String} :
    s = a ++ pat ++ b ↔ s.toList = a.toList ++ pat.toList ++ b.toList := by
  rw [← String.toList_inj, String.toList_append, String.toList_append]

theorem exists_firstBetween_toList {s pat : String} (h : pat.toList <:+: s.toList) :
    ∃ a b : String, FirstBetween s.toList pat.toList a.toList b.toList := by
  obtain ⟨a, b, hab⟩ := exists_firstBetween h
  exact ⟨String.ofList a, String.ofList b, by rwa [String.toList_ofList, String.toList_ofList]⟩

theorem find_of_firstBetween {s pat a b : String} (h : FirstBetween s.toList pat.toList a.toList b.toList) :
    find s pat = some a.utf8ByteSize := by
  have htake : s.toList.take a.toList.length = a.toList := by
    rw [h.eq, List.append_assoc, List.take_left]
  rw [find, findPos_of_firstBetween h, Option.map_some, htake, String.ofList_toList]

theorem find_eq_none {s pat : String} (h : ¬ pat.toList <:+: s.toList) : find s pat = none := by
  rw [find, findPos_eq_none h, Option.map_none]

end Greenlight.Lib
