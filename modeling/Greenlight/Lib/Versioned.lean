import Mathlib.Order.Lattice

/-!
# Versioned entries

An entry is a version with a value; two stores of versioned entries are merged entry by entry, and the merge
keeps what it has unless the other entry is strictly newer (`join`).  `Covers a b` says that `b` is not lost
in `a`: `a` holds the entry of `b` or one of a strictly greater version.  The merge covers what was there
before, and it covers the other side exactly if the two agree on the value of an equal version
(`covers_join_right_iff`).  Of a set of entries that agree the merges find the one newest (`Newest`), in
whatever order they go over it.
-/

namespace Greenlight.Lib.Versioned

variable {ν α : Type*} [LinearOrder ν]

/-- The entry after a merge: the right one only if it is strictly newer. -/
def join : Option (ν × α) → Option (ν × α) → Option (ν × α)
  | none, b => b
  | some a, none => some a
  | some a, some b => if a.1 < b.1 then some b else some a

@[simp] theorem join_none_left (b : Option (ν × α)) : join none b = b := rfl

@[simp] theorem join_none_right (a : Option (ν × α)) : join a none = a := by cases a <;> rfl

@[simp] theorem join_some (a b : ν × α) :
    join (some a) (some b) = if a.1 < b.1 then some b else some a := rfl

theorem join_eq_or (a b : Option (ν × α)) : join a b = a ∨ join a b = b := by
  rcases a with _ | a
  · exact Or.inr rfl
  · rcases b with _ | b
    · exact Or.inl rfl
    · by_cases h : a.1 < b.1 <;> simp [h]

/-- `b` is newer than what there is. -/
def Newer (a : Option (ν × α)) (b : ν × α) : Prop := ∀ e ∈ a, e.1 < b.1

@[simp] theorem newer_none (b : ν × α) : Newer none b := nofun

@[simp] theorem newer_some {a b : ν × α} : Newer (some a) b ↔ a.1 < b.1 := by simp [Newer]

theorem join_of_not_newer {a : Option (ν × α)} {b : ν × α} (h : ¬ Newer a b) : join a (some b) = a := by
  cases a with
  | none => exact absurd (newer_none b) h
  | some a => rw [join_some, if_neg (by simpa using h)]

/-- `a` has an entry of at least the version of `b`. -/
def AtLeast (a b : Option (ν × α)) : Prop := ∀ e ∈ b, ∃ f ∈ a, e.1 ≤ f.1

/-- `a` has the entry `b`, or one of a strictly greater version. -/
def Covers (a b : Option (ν × α)) : Prop := ∀ e ∈ b, ∃ f ∈ a, e.1 < f.1 ∨ f = e

/-- Entries of an equal version have an equal value. -/
def Agree (a b : Option (ν × α)) : Prop := ∀ e ∈ a, ∀ f ∈ b, e.1 = f.1 → e = f

omit [LinearOrder ν] in
theorem Agree.symm {a b : Option (ν × α)} (h : Agree a b) : Agree b a :=
  fun e he f hf heq => (h f hf e he heq.symm).symm

theorem Agree.join_left {a b c : Option (ν × α)} (h : Agree a c) (h' : Agree b c) : Agree (join a b) c := by
  rcases join_eq_or a b with e | e
  · rwa [e]
  · rwa [e]

theorem Covers.atLeast {a b : Option (ν × α)} (h : Covers a b) : AtLeast a b := by
  intro e he
  obtain ⟨f, hf, hlt | rfl⟩ := h e he
  · exact ⟨f, hf, hlt.le⟩
  · exact ⟨f, hf, le_rfl⟩

theorem atLeast_refl (a : Option (ν × α)) : AtLeast a a := fun e he => ⟨e, he, le_rfl⟩

theorem AtLeast.trans {a b c : Option (ν × α)} (h : AtLeast a b) (h' : AtLeast b c) : AtLeast a c := by
  intro e he
  obtain ⟨f, hf, hef⟩ := h' e he
  obtain ⟨g, hg, hfg⟩ := h f hf
  exact ⟨g, hg, hef.trans hfg⟩

/-- A merge with an entry that is not strictly newer changes nothing. -/
theorem join_eq_left {a : ν × α} {b : Option (ν × α)} (h : ∀ e ∈ b, e.1 ≤ a.1) : join (some a) b = some a := by
  rcases b with _ | b
  · rfl
  · rw [join_some, if_neg (h b rfl).not_gt]

theorem covers_join_left (a b : Option (ν × α)) : Covers (join a b) a := by
  intro e he
  obtain rfl := Option.mem_def.1 he
  rcases b with _ | b
  · exact ⟨e, rfl, Or.inr rfl⟩
  · rw [join_some]
    split
    · exact ⟨b, rfl, Or.inl ‹_›⟩
    · exact ⟨e, rfl, Or.inr rfl⟩

theorem atLeast_join_right (a b : Option (ν × α)) : AtLeast (join a b) b := by
  intro e he
  obtain rfl := Option.mem_def.1 he
  rcases a with _ | a
  · exact ⟨e, rfl, le_rfl⟩
  · rw [join_some]
    split
    · exact ⟨e, rfl, le_rfl⟩
    · exact ⟨a, rfl, not_lt.1 ‹_›⟩

/-- **A merge loses nothing of the other side exactly if the two agree.** -/
theorem covers_join_right_iff {a b : Option (ν × α)} : Covers (join a b) b ↔ Agree a b := by
  constructor
  · rintro h e rfl f rfl heq
    -- at the same version the merge has kept `a`
    rw [join_some, if_neg heq.not_lt] at h
    obtain ⟨g, hg, hfg⟩ := h f rfl
    obtain rfl := Option.mem_some_iff.1 hg
    rcases hfg with hlt | rfl
    · exact absurd heq hlt.ne'
    · rfl
  · rintro h f rfl
    rcases a with _ | a
    · exact ⟨f, rfl, Or.inr rfl⟩
    · rw [join_some]
      split
      · exact ⟨f, rfl, Or.inr rfl⟩
      · rename_i hlt
        rcases lt_or_eq_of_le (not_lt.1 hlt) with hlt' | heq
        · exact ⟨a, rfl, Or.inl hlt'⟩
        · exact ⟨a, rfl, Or.inr (h a rfl f rfl heq.symm)⟩

/-! ### The newest entry of a set -/

/-- `a` is the entry of the greatest version in the set, and missing if the set is empty. -/
structure Newest (s : Set (ν × α)) (a : Option (ν × α)) : Prop where
  mem : ∀ e ∈ a, e ∈ s
  le : ∀ e ∈ s, ∃ f ∈ a, e.1 ≤ f.1

theorem newest_option (a : Option (ν × α)) : Newest {e | e ∈ a} a :=
  ⟨fun _ he => he, fun e he => ⟨e, he, le_rfl⟩⟩

/-- The merge of the newest entries of two sets is the newest of both. -/
theorem Newest.join {s t : Set (ν × α)} {a b : Option (ν × α)} (ha : Newest s a) (hb : Newest t b) :
    Newest (s ∪ t) (join a b) where
  mem e he := by
    rcases join_eq_or a b with h | h
    · exact Or.inl (ha.mem e (h ▸ he))
    · exact Or.inr (hb.mem e (h ▸ he))
  le e he := by
    rcases he with he | he
    · obtain ⟨f, hf, hef⟩ := ha.le e he
      obtain ⟨g, hg, hfg⟩ := covers_join_left a b f hf
      rcases hfg with hfg | rfl
      · exact ⟨g, hg, hef.trans hfg.le⟩
      · exact ⟨g, hg, hef⟩
    · obtain ⟨f, hf, hef⟩ := hb.le e he
      obtain ⟨g, hg, hfg⟩ := atLeast_join_right a b f hf
      exact ⟨g, hg, hef.trans hfg⟩

theorem Newest.unique {s : Set (ν × α)} {a b : Option (ν × α)} (hagree : ∀ e ∈ s, ∀ f ∈ s, e.1 = f.1 → e = f)
    (ha : Newest s a) (hb : Newest s b) : a = b := by
  ext e
  have half : ∀ {a b : Option (ν × α)}, Newest s a → Newest s b → e ∈ a → e ∈ b := by
    intro a b ha hb he
    obtain ⟨f, hf, hef⟩ := hb.le e (ha.mem e he)
    obtain ⟨g, hg, hfg⟩ := ha.le f (hb.mem f hf)
    obtain rfl : e = g := Option.mem_unique he hg
    rwa [hagree e (ha.mem e he) f (hb.mem f hf) (le_antisymm hef hfg)]
  exact ⟨half ha hb, half hb ha⟩

end Greenlight.Lib.Versioned
