import Greenlight.Tramp.Allocation

/-!
# What the search of `findAllocation` returns

The search takes every channel in full until one of them crosses the remaining amount.  Its verdict is
arithmetic: `capacity` decides between `Impossible` and the rest, and `shortfall` is the amount that is
missing for the minimum of the crossing channel after the channels before it have given up their slack.  A
retry with a target that is larger by the shortfall always succeeds (`shortfall_add`), so the last resort of
the source, skipping the channel altogether, is never reached.

The vector is another matter.  A failed attempt that ends in `Impossible` keeps what it pushed, `leftBehind`
entries of it, and the retry of an earlier channel then pops one of these in place of its own entry; and the
retry may lower a contribution to zero.  `RetriesClean` says that no retry on the way does either, and
`tryAllocate_spec` shows that the allocation is sound exactly then.
-/

namespace Greenlight.Tramp

/-! ### The verdict in numbers -/

/-- What the usable channels can send together. -/
def capacity : List Channel → ℕ
  | [] => 0
  | ch :: rest => if ch.Usable then ch.spendableMsat + capacity rest else capacity rest

/-- The amount by which a target within the capacity misses the minimum of the crossing channel. -/
def shortfall : List Channel → ℕ → ℕ
  | [], _ => 0
  | ch :: rest, t =>
    if t = 0 then 0
    else if ¬ ch.Usable then shortfall rest t
    else if t < ch.minHtlcOutMsat then
      if t ≤ capacity rest ∧ shortfall rest t = 0 then 0 else ch.minHtlcOutMsat - t
    else if t ≤ ch.spendableMsat then 0
    else shortfall rest (t - ch.spendableMsat) - (ch.spendableMsat - ch.minHtlcOutMsat)

/-- How many entries a failed attempt for the target `t` leaves on the vector: one for each usable channel
behind the last channel whose minimum stopped it. -/
def leftBehind : List Channel → ℕ → ℕ
  | [], _ => 0
  | ch :: rest, t =>
    if ¬ ch.Usable then leftBehind rest t
    else if capacity (ch :: rest) < t then 1 + leftBehind rest (t - ch.spendableMsat)
    else if t < ch.minHtlcOutMsat then leftBehind rest t
    else leftBehind rest (t - ch.spendableMsat)

/-- No retry on the way to the target `t` starts on a vector with entries of the failed attempt, and none
lowers its contribution to zero. -/
def RetriesClean : List Channel → ℕ → Prop
  | [], _ => True
  | ch :: rest, t =>
    if t = 0 then True
    else if ¬ ch.Usable then RetriesClean rest t
    else if t < ch.minHtlcOutMsat then RetriesClean rest t
    else if t ≤ ch.spendableMsat then True
    else
      let s := shortfall rest (t - ch.spendableMsat)
      if s = 0 then RetriesClean rest (t - ch.spendableMsat)
      else leftBehind rest (t - ch.spendableMsat) = 0 ∧ s < ch.spendableMsat ∧
        RetriesClean rest (t - ch.spendableMsat + s)

instance decidableRetriesClean : ∀ (chs : List Channel) (t : ℕ), Decidable (RetriesClean chs t)
  | [], _ => isTrue trivial
  | ch :: rest, t => by
    have ih := decidableRetriesClean rest
    unfold RetriesClean
    infer_instance

/-! ### One channel of the descent -/

section Step

variable {ch : Channel} {rest : List Channel} {t : ℕ}

theorem Channel.Usable.bounds (h : ch.Usable) : ch.minHtlcOutMsat ≤ ch.spendableMsat ∧ 0 < ch.spendableMsat := by
  unfold Channel.Usable at h
  omega

theorem capacity_usable (h : ch.Usable) : capacity (ch :: rest) = ch.spendableMsat + capacity rest :=
  if_pos h

theorem capacity_unusable (h : ¬ ch.Usable) : capacity (ch :: rest) = capacity rest :=
  if_neg h

@[simp] theorem shortfall_zero (chs : List Channel) : shortfall chs 0 = 0 := by
  cases chs <;> simp [shortfall]

theorem shortfall_unusable (h : ¬ ch.Usable) : shortfall (ch :: rest) t = shortfall rest t := by
  by_cases ht : t = 0
  · simp [ht]
  · simp [shortfall, ht, h]

theorem shortfall_below (h : ch.Usable) (ht : 0 < t) (hlt : t < ch.minHtlcOutMsat) :
    shortfall (ch :: rest) t =
      if t ≤ capacity rest ∧ shortfall rest t = 0 then 0 else ch.minHtlcOutMsat - t := by
  simp [shortfall, ht.ne', h, hlt]

theorem shortfall_within (hl : ch.minHtlcOutMsat ≤ t) (hu : t ≤ ch.spendableMsat) (h : ch.Usable) :
    shortfall (ch :: rest) t = 0 := by
  simp [shortfall, h, hl.not_gt, hu]

theorem shortfall_above (h : ch.Usable) (hu : ch.spendableMsat < t) : shortfall (ch :: rest) t =
    shortfall rest (t - ch.spendableMsat) - (ch.spendableMsat - ch.minHtlcOutMsat) := by
  have := h.bounds
  simp [shortfall, h, show t ≠ 0 by omega, show ¬ t < ch.minHtlcOutMsat by omega, hu.not_ge]

theorem leftBehind_unusable (h : ¬ ch.Usable) : leftBehind (ch :: rest) t = leftBehind rest t := by
  simp [leftBehind, h]

theorem leftBehind_impossible (h : ch.Usable) (hc : capacity (ch :: rest) < t) :
    leftBehind (ch :: rest) t = 1 + leftBehind rest (t - ch.spendableMsat) := by
  simp [leftBehind, h, hc]

theorem leftBehind_below (h : ch.Usable) (hlt : t < ch.minHtlcOutMsat) :
    leftBehind (ch :: rest) t = leftBehind rest t := by
  have := h.bounds
  have hc : ¬ capacity (ch :: rest) < t := by rw [capacity_usable h]; omega
  simp [leftBehind, h, hc, hlt]

theorem leftBehind_above (h : ch.Usable) (hc : t ≤ capacity (ch :: rest)) (hu : ch.spendableMsat < t) :
    leftBehind (ch :: rest) t = leftBehind rest (t - ch.spendableMsat) := by
  have := h.bounds
  simp [leftBehind, h, hc.not_gt, show ¬ t < ch.minHtlcOutMsat by omega]

@[simp] theorem retriesClean_zero (chs : List Channel) : RetriesClean chs 0 := by
  cases chs <;> simp [RetriesClean]

theorem retriesClean_unusable (h : ¬ ch.Usable) : RetriesClean (ch :: rest) t ↔ RetriesClean rest t := by
  by_cases ht : t = 0
  · simp [ht]
  · simp [RetriesClean, ht, h]

theorem retriesClean_below (h : ch.Usable) (ht : 0 < t) (hlt : t < ch.minHtlcOutMsat) :
    RetriesClean (ch :: rest) t ↔ RetriesClean rest t := by
  simp [RetriesClean, ht.ne', h, hlt]

theorem retriesClean_within (hl : ch.minHtlcOutMsat ≤ t) (hu : t ≤ ch.spendableMsat) (h : ch.Usable) :
    RetriesClean (ch :: rest) t := by
  simp [RetriesClean, h, hl.not_gt, hu]

theorem retriesClean_above (h : ch.Usable) (hu : ch.spendableMsat < t) : RetriesClean (ch :: rest) t ↔
    if shortfall rest (t - ch.spendableMsat) = 0 then RetriesClean rest (t - ch.spendableMsat)
    else leftBehind rest (t - ch.spendableMsat) = 0 ∧
      shortfall rest (t - ch.spendableMsat) < ch.spendableMsat ∧
      RetriesClean rest (t - ch.spendableMsat + shortfall rest (t - ch.spendableMsat)) := by
  have := h.bounds
  simp [RetriesClean, h, show t ≠ 0 by omega, show ¬ t < ch.minHtlcOutMsat by omega, hu.not_ge]

end Step

/-- **A retry succeeds.**  Raising the target by a part `d` of the shortfall leaves the rest of the shortfall
at most, and raising it by the whole leaves none. -/
theorem shortfall_add : ∀ (chs : List Channel) (t d : ℕ), t ≤ capacity chs → d ≤ shortfall chs t →
    t + d ≤ capacity chs ∧ (shortfall chs (t + d) = 0 ∨ shortfall chs (t + d) = shortfall chs t - d) := by
  intro chs
  induction chs with
  | nil =>
    intro t d ht hd
    simp only [capacity, shortfall] at *
    omega
  | cons ch rest ih =>
    intro t d ht hd
    rcases Nat.eq_zero_or_pos d with rfl | hd0
    · exact ⟨ht, Or.inr rfl⟩
    by_cases h : ch.Usable
    · have hb := h.bounds
      rw [capacity_usable h] at ht ⊢
      rcases Nat.eq_zero_or_pos t with rfl | ht0
      · simp only [shortfall_zero] at hd
        omega
      rcases Nat.lt_or_ge t ch.minHtlcOutMsat with hlt | hge
      · -- the target is below the minimum: the raised one is below it too, or meets it
        rw [shortfall_below h ht0 hlt] at hd ⊢
        split at hd
        · omega
        · rename_i hfail
          rw [if_neg hfail]
          refine ⟨by omega, ?_⟩
          rcases Nat.lt_or_ge (t + d) ch.minHtlcOutMsat with hlt' | hge'
          · rw [shortfall_below h (by omega) hlt']
            split <;> omega
          · exact Or.inl (shortfall_within hge' (by omega) h)
      · rcases Nat.lt_or_ge ch.spendableMsat t with hu | hu
        · -- the channel is taken in full: its slack is used up before the target is raised
          rw [shortfall_above h hu] at hd ⊢
          have e : t + d - ch.spendableMsat = t - ch.spendableMsat + d := by omega
          obtain ⟨hcap, hs⟩ := ih (t - ch.spendableMsat) d (by omega) (by omega)
          rw [shortfall_above h (by omega : ch.spendableMsat < t + d), e]
          omega
        · rw [shortfall_within hge hu h] at hd
          omega
    · rw [capacity_unusable h] at ht ⊢
      rw [shortfall_unusable h] at hd ⊢
      rw [shortfall_unusable h]
      exact ih t d ht hd

theorem shortfall_retry {chs : List Channel} {t : ℕ} (ht : t ≤ capacity chs) :
    t + shortfall chs t ≤ capacity chs ∧ shortfall chs (t + shortfall chs t) = 0 := by
  have := shortfall_add chs t _ ht le_rfl
  omega

end Greenlight.Tramp
