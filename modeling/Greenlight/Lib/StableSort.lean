import Mathlib.Data.List.Destutter
import Mathlib.Order.Lattice

/-!
# Sorting by a key and dropping repeated keys

A stable sort by a key, and the pass that drops every element whose key is that of the last element kept.  One after
the other they leave the first element of every key, in the order of the keys.
-/

namespace Greenlight.Lib

section

variable {α κ : Type} [LinearOrder κ] (key : α → κ) (l : List α)

/-- `sort_by` of a comparison of keys. -/
def sortByKey : List α := l.mergeSort fun a b => decide (key a ≤ key b)

/-- `dedup_by` of an equality of keys. -/
def dedupByKey : List α := l.destutter fun a b => key a ≠ key b

/-- The elements are in the order of their keys. -/
def SortedByKey : Prop := l.Pairwise fun a b => key a ≤ key b

/-! ### The sort -/

theorem keyLe_trans (a b c : α) (hab : decide (key a ≤ key b)) (hbc : decide (key b ≤ key c)) :
    decide (key a ≤ key c) :=
  decide_eq_true ((of_decide_eq_true hab).trans (of_decide_eq_true hbc))

theorem keyLe_total (a b : α) : decide (key a ≤ key b) || decide (key b ≤ key a) := by
  rw [Bool.or_eq_true, decide_eq_true_eq, decide_eq_true_eq]
  exact le_total (key a) (key b)

theorem sortedByKey_sortByKey : SortedByKey key (sortByKey key l) :=
  (List.pairwise_mergeSort (keyLe_trans key) (keyLe_total key) l).imp of_decide_eq_true

/-- **The sort is stable**: the elements of one key stay in their order. -/
theorem filter_sortByKey (k : κ) :
    (sortByKey key l).filter (fun a => decide (key a = k)) = l.filter fun a => decide (key a = k) := by
  have hperm : (sortByKey key l).Perm l := List.mergeSort_perm l _
  have hpairwise : (l.filter fun a => decide (key a = k)).Pairwise fun a b => decide (key a ≤ key b) := by
    refine List.pairwise_of_forall_mem_list fun a ha b hb => decide_eq_true ?_
    rw [of_decide_eq_true (List.mem_filter.1 ha).2, of_decide_eq_true (List.mem_filter.1 hb).2]
  have hsub := List.sublist_mergeSort (keyLe_trans key) (keyLe_total key) hpairwise List.filter_sublist
  have hfilter := hsub.filter fun a => decide (key a = k)
  simp only [List.filter_filter, Bool.and_self] at hfilter
  exact (hfilter.eq_of_length (hperm.filter _).length_eq.symm).symm

theorem find?_sortByKey (k : κ) :
    (sortByKey key l).find? (fun a => decide (key a = k)) = l.find? fun a => decide (key a = k) := by
  rw [← List.head?_filter, filter_sortByKey, List.head?_filter]

/-! ### Dropping repeated keys -/

section Dedup

variable {key l}

theorem SortedByKey.tail {a : α} (h : SortedByKey key (a :: l)) : SortedByKey key l := (List.pairwise_cons.1 h).2

theorem SortedByKey.drop_second {a c : α} (h : SortedByKey key (a :: c :: l)) : SortedByKey key (a :: l) :=
  h.sublist ((List.sublist_cons_self c l).cons_cons a)

/-- What the pass keeps behind an element with a new key has greater keys than the one before. -/
theorem key_lt_of_mem {a b c : α} (h : SortedByKey key (a :: c :: l)) (hne : key a ≠ key c)
    (hb : b ∈ l.destutter' (fun a b => key a ≠ key b) c) : key a < key b := by
  have hac : key a < key c := lt_of_le_of_ne ((List.pairwise_cons.1 h).1 c (List.mem_cons_self ..)) hne
  rcases List.mem_cons.1 ((List.destutter'_sublist _ _ _).subset hb) with rfl | hb
  · exact hac
  · exact hac.trans_le ((List.pairwise_cons.1 h.tail).1 b hb)

theorem mem_destutter'_iff (b : α) : ∀ (l : List α) (a : α), SortedByKey key (a :: l) →
    (b ∈ l.destutter' (fun a b => key a ≠ key b) a ↔
      (a :: l).find? (fun c => decide (key c = key b)) = some b) := by
  intro l
  induction l with
  | nil =>
    intro a _
    by_cases hab : key a = key b
    · simp [hab, eq_comm]
    · have hne : b ≠ a := fun h => hab (congrArg key h.symm)
      simp [hab, hne]
  | cons c l ih =>
    intro a hsorted
    by_cases hac : key a = key c
    · -- the second element is dropped, and is not the first of its key
      rw [List.destutter'_cons_neg _ (not_not.2 hac), ih a hsorted.drop_second]
      by_cases hab : key a = key b
      · simp [hab]
      · have hcb : ¬ key c = key b := fun h => hab (hac.trans h)
        simp [hab, hcb]
    · rw [List.destutter'_cons_pos _ hac, List.mem_cons, ih c hsorted.tail]
      by_cases hab : key a = key b
      · have hnot : ¬ (c :: l).find? (fun d => decide (key d = key b)) = some b := fun hmem =>
          (key_lt_of_mem hsorted hac ((ih c hsorted.tail).2 hmem)).ne hab
        simp only [hnot, or_false]
        simp [hab, eq_comm]
      · have hne : b ≠ a := fun h => hab (congrArg key h.symm)
        simp [hab, hne]

theorem pairwise_destutter' : ∀ (l : List α) (a : α), SortedByKey key (a :: l) →
    (l.destutter' (fun a b => key a ≠ key b) a).Pairwise fun a b => key a < key b := by
  intro l
  induction l with
  | nil => intro a _; exact List.pairwise_singleton _ _
  | cons c l ih =>
    intro a hsorted
    by_cases hac : key a = key c
    · rw [List.destutter'_cons_neg _ (not_not.2 hac)]
      exact ih a hsorted.drop_second
    · rw [List.destutter'_cons_pos _ hac]
      exact List.pairwise_cons.2 ⟨fun b hb => key_lt_of_mem hsorted hac hb, ih c hsorted.tail⟩

/-- **The pass over a sorted list keeps the first element of every key**, -/
theorem mem_dedupByKey (hsorted : SortedByKey key l) {b : α} :
    b ∈ dedupByKey key l ↔ l.find? (fun a => decide (key a = key b)) = some b := by
  cases l with
  | nil => simp [dedupByKey]
  | cons a l => exact mem_destutter'_iff b l a hsorted

/-- in the order of the keys. -/
theorem pairwise_dedupByKey (hsorted : SortedByKey key l) :
    (dedupByKey key l).Pairwise fun a b => key a < key b := by
  cases l with
  | nil => exact List.Pairwise.nil
  | cons a l => exact pairwise_destutter' l a hsorted

end Dedup

/-! ### One after the other -/

theorem mem_dedupByKey_sortByKey {b : α} :
    b ∈ dedupByKey key (sortByKey key l) ↔ l.find? (fun a => decide (key a = key b)) = some b := by
  rw [mem_dedupByKey (sortedByKey_sortByKey key l), find?_sortByKey]

theorem exists_mem_dedupByKey_sortByKey {k : κ} :
    (∃ b ∈ dedupByKey key (sortByKey key l), key b = k) ↔ ∃ a ∈ l, key a = k := by
  constructor
  · rintro ⟨b, hb, rfl⟩
    exact ⟨b, List.mem_of_find?_eq_some ((mem_dedupByKey_sortByKey key l).1 hb), rfl⟩
  · rintro ⟨a, ha, rfl⟩
    obtain ⟨b, hb⟩ := Option.isSome_iff_exists.1
      (List.find?_isSome.2 ⟨a, ha, decide_eq_true rfl⟩ : (l.find? fun c => decide (key c = key a)).isSome)
    have hkey : key b = key a := by simpa using List.find?_some hb
    rw [← hkey] at hb
    exact ⟨b, (mem_dedupByKey_sortByKey key l).2 hb, hkey⟩

end

end Greenlight.Lib
