import Greenlight.Tramp.AllocationRetry

/-!
# When an allocation is sound

`tryAllocate_spec` reads the verdict of the search off `capacity` and `shortfall`, and the entries it adds to
the vector: a failed search adds `leftBehind` of them, a successful one adds a sound allocation if
`RetriesClean` holds and otherwise one that overpays or has an entry of zero.  The induction is on the
channels; the cases of the descent are the frame lemmas of the section `Frame`.
-/

namespace Greenlight.Tramp

/-- The sum of the contributions. -/
def total (alloc : List ChannelContribution) : ℕ := (alloc.map (·.contribMsat)).sum

@[simp] theorem total_nil : total [] = 0 := rfl

@[simp] theorem total_cons (e : ChannelContribution) (al : List ChannelContribution) :
    total (e :: al) = e.contribMsat + total al := by simp [total]

@[simp] theorem total_append (al al' : List ChannelContribution) :
    total (al ++ al') = total al + total al' := by simp [total]

/-- A sound allocation, or the empty one for the target zero. -/
structure Allocates (chs : List Channel) (t : ℕ) (al : List ChannelContribution) : Prop where
  total_eq : total al = t
  bounds : ∀ e ∈ al, max 1 e.channel.minHtlcOutMsat ≤ e.contribMsat ∧
    e.contribMsat ≤ e.channel.spendableMsat
  sublist : (al.map (·.channel)).Sublist chs

/-- An allocation that overpays, or has an entry of zero. -/
def Faulty (t : ℕ) (al : List ChannelContribution) : Prop :=
  t < total al ∨ ∃ e ∈ al, e.contribMsat = 0

/-- The entries `al` that a search with the verdict `r` adds to the vector. -/
inductive Searched (chs : List Channel) (t : ℕ) : AllocResult → List ChannelContribution → Prop
  | impossible {al : List ChannelContribution} : capacity chs < t → al.length = leftBehind chs t →
      Searched chs t .impossible al
  | needSpace {al : List ChannelContribution} : t ≤ capacity chs → 0 < shortfall chs t →
      al.length = leftBehind chs t → Searched chs t (.needSpace (shortfall chs t)) al
  | success {al : List ChannelContribution} : t ≤ capacity chs → shortfall chs t = 0 → t ≤ total al →
      (RetriesClean chs t → Allocates chs t al) → (¬ RetriesClean chs t → Faulty t al) →
      Searched chs t .success al

theorem allocates_nil (chs : List Channel) : Allocates chs 0 [] :=
  ⟨rfl, by simp, by simp⟩

theorem Allocates.skip {ch : Channel} {rest : List Channel} {t : ℕ} {al : List ChannelContribution}
    (h : Allocates rest t al) : Allocates (ch :: rest) t al :=
  ⟨h.total_eq, h.bounds, h.sublist.cons ch⟩

theorem Allocates.take (ch : Channel) (c : ℕ) {rest : List Channel} {t : ℕ} {al : List ChannelContribution}
    (h : Allocates rest t al) (hl : ch.minHtlcOutMsat ≤ c) (h0 : 0 < c) (hu : c ≤ ch.spendableMsat) :
    Allocates (ch :: rest) (c + t) (⟨ch, c⟩ :: al) where
  total_eq := by simp [h.total_eq]
  bounds := by
    intro e he
    rcases List.mem_cons.1 he with rfl | he
    · exact ⟨by simp only; omega, hu⟩
    · exact h.bounds e he
  sublist := h.sublist.cons_cons ch

theorem Allocates.not_faulty {chs : List Channel} {t : ℕ} {al : List ChannelContribution}
    (h : Allocates chs t al) : ¬ Faulty t al := by
  rintro (hlt | ⟨e, he, h0⟩)
  · exact absurd h.total_eq hlt.ne'
  · have := (h.bounds e he).1
    omega

theorem Faulty.take (ch : Channel) (c : ℕ) {t : ℕ} {al : List ChannelContribution} (h : Faulty t al) :
    Faulty (c + t) (⟨ch, c⟩ :: al) := by
  rcases h with hlt | ⟨e, he, h0⟩
  · left
    simp only [total_cons]
    omega
  · exact Or.inr ⟨e, List.mem_cons_of_mem _ he, h0⟩

/-- A vector on which an entry of the failed attempt is left in front of the retried one overpays. -/
theorem faulty_of_left {t c : ℕ} {ch : Channel} {left al : List ChannelContribution} (hc : 0 < c)
    (hl : left ≠ []) (ht : t ≤ total al) : Faulty t ((⟨ch, c⟩ :: left).dropLast ++ al) := by
  left
  obtain ⟨x, xs, rfl⟩ := List.exists_cons_of_ne_nil hl
  simp only [List.dropLast_cons_cons, List.cons_append, total_cons, total_append]
  omega

/-! ### The frames -/

section Frame

variable {ch : Channel} {rest : List Channel} {t : ℕ} {al : List ChannelContribution}

theorem tryAllocate_zero (chs : List Channel) (al : List ChannelContribution) :
    tryAllocate chs 0 al = some (.success, al) := by
  cases chs <;> simp [tryAllocate]

theorem searched_zero (chs : List Channel) : Searched chs 0 .success [] :=
  .success (Nat.zero_le _) (shortfall_zero _) le_rfl (fun _ => allocates_nil chs)
    (fun h => absurd (retriesClean_zero chs) h)

theorem Searched.unusable {r : AllocResult} (h : ¬ ch.Usable) (hs : Searched rest t r al) :
    Searched (ch :: rest) t r al := by
  have hsf : shortfall (ch :: rest) t = shortfall rest t := shortfall_unusable h
  cases hs with
  | impossible hc hl =>
    exact .impossible (by rwa [capacity_unusable h]) (by rwa [leftBehind_unusable h])
  | needSpace hc hp hl =>
    rw [← hsf] at hp ⊢
    exact .needSpace (by rwa [capacity_unusable h]) hp (by rwa [leftBehind_unusable h])
  | success hc hp ht hclean hdirty =>
    refine .success (by rwa [capacity_unusable h]) (by rwa [hsf]) ht ?_ ?_
    · exact fun hr => (hclean ((retriesClean_unusable h).1 hr)).skip
    · exact fun hr => hdirty fun hr' => hr ((retriesClean_unusable h).2 hr')

/-- A channel whose minimum is above the target is skipped if the channels behind it take the target, -/
theorem Searched.below (h : ch.Usable) (h0 : 0 < t) (hlt : t < ch.minHtlcOutMsat)
    (hs : Searched rest t .success al) : Searched (ch :: rest) t .success al := by
  have hb := h.bounds
  cases hs with
  | success hc hp ht hclean hdirty =>
    refine .success (by rw [capacity_usable h]; omega) ?_ ht ?_ ?_
    · rw [shortfall_below h h0 hlt, if_pos ⟨hc, hp⟩]
    · exact fun hr => (hclean ((retriesClean_below h h0 hlt).1 hr)).skip
    · exact fun hr => hdirty fun hr' => hr ((retriesClean_below h h0 hlt).2 hr')

/-- and asks for the amount it misses otherwise. -/
theorem Searched.below_fail {r : AllocResult} (h : ch.Usable) (h0 : 0 < t) (hlt : t < ch.minHtlcOutMsat)
    (hr : r ≠ .success) (hs : Searched rest t r al) :
    Searched (ch :: rest) t (.needSpace (ch.minHtlcOutMsat - t)) al := by
  have hb := h.bounds
  have hfail : ¬ (t ≤ capacity rest ∧ shortfall rest t = 0) := by
    cases hs with
    | impossible hc _ => omega
    | needSpace _ hp _ => omega
    | success => exact absurd rfl hr
  have hsf : shortfall (ch :: rest) t = ch.minHtlcOutMsat - t := by
    rw [shortfall_below h h0 hlt, if_neg hfail]
  rw [← hsf]
  refine .needSpace (by rw [capacity_usable h]; omega) (by omega) ?_
  rw [leftBehind_below h hlt]
  cases hs with
  | impossible _ hl => exact hl
  | needSpace _ _ hl => exact hl
  | success => exact absurd rfl hr

theorem searched_within (h : ch.Usable) (h0 : 0 < t) (hl : ch.minHtlcOutMsat ≤ t) (hu : t ≤ ch.spendableMsat) :
    Searched (ch :: rest) t .success [⟨ch, t⟩] := by
  have hal : Allocates (ch :: rest) t [⟨ch, t⟩] := (allocates_nil rest).take ch t hl h0 hu
  refine .success (by rw [capacity_usable h]; omega) (shortfall_within hl hu h) (by simp) (fun _ => hal) ?_
  exact fun hr => absurd (retriesClean_within hl hu h) hr

/-- A channel taken in full, when the channels behind it take the rest, -/
theorem Searched.above (h : ch.Usable) (hu : ch.spendableMsat < t)
    (hs : Searched rest (t - ch.spendableMsat) .success al) :
    Searched (ch :: rest) t .success (⟨ch, ch.spendableMsat⟩ :: al) := by
  have hb := h.bounds
  have e : ch.spendableMsat + (t - ch.spendableMsat) = t := by omega
  cases hs with
  | success hc hp ht hclean hdirty =>
    have hiff : RetriesClean (ch :: rest) t ↔ RetriesClean rest (t - ch.spendableMsat) := by
      rw [retriesClean_above h hu, if_pos hp]
    refine .success (by rw [capacity_usable h]; omega) ?_ (by simp only [total_cons]; omega) ?_ ?_
    · rw [shortfall_above h hu, hp, Nat.zero_sub]
    · intro hr
      have := (hclean (hiff.1 hr)).take ch _ hb.1 hb.2 le_rfl
      rwa [e] at this
    · intro hr
      have := (hdirty fun hr' => hr (hiff.2 hr')).take ch ch.spendableMsat
      rwa [e] at this

/-- when they cannot take it at all: the entry stays, -/
theorem Searched.above_impossible (h : ch.Usable) (hu : ch.spendableMsat < t)
    (hs : Searched rest (t - ch.spendableMsat) .impossible al) :
    Searched (ch :: rest) t .impossible (⟨ch, ch.spendableMsat⟩ :: al) := by
  cases hs with
  | impossible hc hl =>
    have hc' : capacity (ch :: rest) < t := by rw [capacity_usable h]; omega
    refine .impossible hc' ?_
    rw [leftBehind_impossible h hc', List.length_cons, hl, Nat.add_comm]

/-- when they miss more than its slack: one entry is dropped, -/
theorem Searched.above_fail {s : ℕ} (h : ch.Usable) (hu : ch.spendableMsat < t)
    (hs : Searched rest (t - ch.spendableMsat) (.needSpace s) al)
    (hfree : ch.spendableMsat - ch.minHtlcOutMsat < s) :
    Searched (ch :: rest) t (.needSpace (s - (ch.spendableMsat - ch.minHtlcOutMsat)))
      (⟨ch, ch.spendableMsat⟩ :: al).dropLast := by
  cases hs with
  | needSpace hc hp hl =>
    have hsf : shortfall (ch :: rest) t = _ := shortfall_above h hu
    have hc' : t ≤ capacity (ch :: rest) := by rw [capacity_usable h]; omega
    rw [← hsf]
    refine .needSpace hc' (by omega) ?_
    rw [leftBehind_above h hc' hu, List.length_dropLast, List.length_cons, Nat.add_sub_cancel, hl]

/-- and when its slack covers what they miss: it gives up the shortfall and the retry succeeds. -/
theorem Searched.above_retry {s : ℕ} {al' : List ChannelContribution} (h : ch.Usable)
    (hu : ch.spendableMsat < t) (hs : Searched rest (t - ch.spendableMsat) (.needSpace s) al)
    (hfree : s ≤ ch.spendableMsat - ch.minHtlcOutMsat)
    (hs' : Searched rest (t - (ch.spendableMsat - s)) .success al') :
    Searched (ch :: rest) t .success
      ((⟨ch, ch.spendableMsat⟩ :: al).dropLast ++ ⟨ch, ch.spendableMsat - s⟩ :: al') := by
  have hb := h.bounds
  cases hs with
  | needSpace hc hp hl =>
    set s := shortfall rest (t - ch.spendableMsat) with hsdef
    have e : t - (ch.spendableMsat - s) = t - ch.spendableMsat + s := by omega
    have e' : ch.spendableMsat - s + (t - (ch.spendableMsat - s)) = t := by omega
    cases hs' with
    | success hc' hp' ht' hclean hdirty =>
      have hiff : RetriesClean (ch :: rest) t ↔
          leftBehind rest (t - ch.spendableMsat) = 0 ∧ s < ch.spendableMsat ∧
            RetriesClean rest (t - (ch.spendableMsat - s)) := by
        rw [retriesClean_above h hu, if_neg (by omega), e]
      have htot : t ≤ total (⟨ch, ch.spendableMsat - s⟩ :: al') := by
        simp only [total_cons]
        omega
      refine .success (by rw [capacity_usable h]; omega) ?_ ?_ ?_ ?_
      · rw [shortfall_above h hu]
        omega
      · rw [total_append]
        omega
      · intro hr
        obtain ⟨hleft, hpos, hr'⟩ := hiff.1 hr
        have hal : al = [] := List.length_eq_zero_iff.1 (hl.trans hleft)
        have := (hclean hr').take ch (ch.spendableMsat - s) (by omega) (by omega) (by omega)
        rw [e'] at this
        simpa [hal] using this
      · intro hr
        by_cases hal : al = []
        · -- nothing is left in front: the contribution is zero or the retry itself is faulty
          subst hal
          simp only [List.dropLast_singleton, List.nil_append]
          rcases Nat.lt_or_ge s ch.spendableMsat with hpos | hzero
          · have hr' : ¬ RetriesClean rest (t - (ch.spendableMsat - s)) :=
              fun hr' => hr (hiff.2 ⟨by rw [← hl]; rfl, hpos, hr'⟩)
            have := (hdirty hr').take ch (ch.spendableMsat - s)
            rwa [e'] at this
          · exact Or.inr ⟨_, List.mem_cons_self .., by simp only; omega⟩
        · exact faulty_of_left hb.2 hal htot

end Frame

theorem Searched.eq_success {chs : List Channel} {t : ℕ} {r : AllocResult} {al : List ChannelContribution}
    (hs : Searched chs t r al) (hc : t ≤ capacity chs) (hp : shortfall chs t = 0) : r = .success := by
  cases hs with
  | impossible hc' _ => omega
  | needSpace _ hp' _ => omega
  | success => rfl

/-! ### The search -/

/-- **The search.**  No subtraction of it underflows, the entries that were on the vector before stay, and
the verdict and the entries it adds are those of `Searched`. -/
theorem tryAllocate_spec : ∀ (chs : List Channel) (t : ℕ) (allocations : List ChannelContribution),
    ∃ r al, tryAllocate chs t allocations = some (r, allocations ++ al) ∧ Searched chs t r al := by
  intro chs
  induction chs with
  | nil =>
    intro t allocations
    rcases Nat.eq_zero_or_pos t with rfl | h0
    · exact ⟨.success, [], by simp [tryAllocate], searched_zero []⟩
    · exact ⟨.impossible, [], by simp [tryAllocate, h0.ne'], .impossible h0 rfl⟩
  | cons ch rest ih =>
    intro t allocations
    rcases Nat.eq_zero_or_pos t with rfl | h0
    · exact ⟨.success, [], by simp [tryAllocate_zero], searched_zero _⟩
    by_cases h : ch.Usable
    · have hb := h.bounds
      have hskip : ¬ (ch.spendableMsat < ch.minHtlcOutMsat ∨ ch.spendableMsat = 0) := h
      simp only [tryAllocate, h0.ne', if_false, hskip]
      rcases Nat.lt_or_ge t ch.minHtlcOutMsat with hlt | hge
      · -- below the minimum: the channels behind are asked first
        obtain ⟨r, al, hrun, hs⟩ := ih t allocations
        simp only [hlt, if_true, hrun, Nat.psub_eq_sub hlt.le]
        cases r with
        | success => exact ⟨_, al, rfl, hs.below h h0 hlt⟩
        | impossible => exact ⟨_, al, rfl, hs.below_fail h h0 hlt (by simp)⟩
        | needSpace s => exact ⟨_, al, rfl, hs.below_fail h h0 hlt (by simp)⟩
      · simp only [hge.not_gt, if_false]
        rcases Nat.lt_or_ge ch.spendableMsat t with hu | hu
        · -- taken in full
          obtain ⟨r, al, hrun, hs⟩ := ih (t - ch.spendableMsat) (allocations ++ [⟨ch, ch.spendableMsat⟩])
          rw [List.append_assoc] at hrun
          simp only [Nat.min_eq_left hu.le, Nat.psub_eq_sub hu.le, Nat.psub_eq_sub hb.1]
          cases r with
          | success =>
            refine ⟨_, _, ?_, hs.above h hu⟩
            simp [hrun]
          | impossible =>
            refine ⟨_, _, ?_, hs.above_impossible h hu⟩
            simp [hrun]
          | needSpace s =>
            rcases Nat.lt_or_ge (ch.spendableMsat - ch.minHtlcOutMsat) s with hfree | hfree
            · refine ⟨_, _, ?_, hs.above_fail h hu hfree⟩
              simp [hrun, hfree.not_ge, Nat.psub_eq_sub hfree.le]
            · obtain ⟨r', al', hrun', hs'⟩ := ih (t - (ch.spendableMsat - s))
                ((allocations ++ ⟨ch, ch.spendableMsat⟩ :: al).dropLast ++ [⟨ch, ch.spendableMsat - s⟩])
              have hr' : r' = .success := by
                cases hs with
                | needSpace hc hp hl =>
                  have hretry := shortfall_retry hc
                  have e : t - (ch.spendableMsat - shortfall rest (t - ch.spendableMsat)) =
                      t - ch.spendableMsat + shortfall rest (t - ch.spendableMsat) := by omega
                  rw [e] at hs'
                  exact hs'.eq_success hretry.1 hretry.2
              subst hr'
              refine ⟨_, _, ?_, hs.above_retry h hu hfree hs'⟩
              have hs_le : s ≤ ch.spendableMsat := by omega
              have ht_le : ch.spendableMsat - s ≤ t := by omega
              simp only [List.append_assoc, List.cons_append, List.nil_append,
                List.dropLast_append_cons] at hrun' ⊢
              simp [hrun, hfree, Nat.psub_eq_sub hs_le, Nat.psub_eq_sub ht_le, hrun']
        · refine ⟨_, _, ?_, searched_within h h0 hge hu⟩
          simp [Nat.min_eq_right hu, Nat.psub_eq_sub (le_refl t), tryAllocate_zero]
    · obtain ⟨r, al, hrun, hs⟩ := ih t allocations
      refine ⟨r, al, ?_, hs.unusable h⟩
      have hskip : ch.spendableMsat < ch.minHtlcOutMsat ∨ ch.spendableMsat = 0 := not_not.1 h
      simp only [tryAllocate, h0.ne', if_false, hskip, if_true, hrun]

/-- The targets for which the search either fails or has only clean retries. -/
def AllocationClean (channels : List Channel) (targetMsat : ℕ) : Prop :=
  targetMsat ≤ capacity channels → shortfall channels targetMsat = 0 → RetriesClean channels targetMsat

instance (channels : List Channel) (targetMsat : ℕ) : Decidable (AllocationClean channels targetMsat) := by
  unfold AllocationClean
  infer_instance

/-- **An allocation is sound exactly if the retries are clean.** -/
theorem findAllocation_sound_iff (channels : List Channel) (targetMsat : ℕ) :
    (∀ alloc, findAllocation channels targetMsat = some (some alloc) →
      SoundAllocation channels targetMsat alloc) ↔ AllocationClean channels targetMsat := by
  rcases Nat.eq_zero_or_pos targetMsat with rfl | h0
  · refine ⟨fun _ _ _ => retriesClean_zero channels, fun _ alloc h => ?_⟩
    simp [findAllocation] at h
  obtain ⟨r, al, hrun, hs⟩ := tryAllocate_spec channels targetMsat []
  rw [List.nil_append] at hrun
  simp only [findAllocation, h0.ne', if_false, hrun]
  unfold AllocationClean
  cases hs with
  | impossible hc _ => exact ⟨fun _ hc' => absurd hc' hc.not_ge, fun _ alloc h => nomatch h⟩
  | needSpace _ hp _ => exact ⟨fun _ _ hp' => absurd hp' hp.ne', fun _ alloc h => nomatch h⟩
  | success hc hp _ hclean hdirty =>
    constructor
    · intro hsound _ _
      by_contra hr
      -- an unclean retry leaves a part outside its bounds or too much in total
      have h := hsound al rfl
      exact Allocates.not_faulty ⟨h.total, h.bounds, h.sublist⟩ (hdirty hr)
    · rintro hcond alloc ⟨⟩
      have h := hclean (hcond hc hp)
      refine ⟨?_, h.total_eq, h.bounds, h.sublist⟩
      rintro rfl
      exact h0.ne h.total_eq

/-- The retry of the first channel pops the entry of the third one and pays `10 + 9 + 6` for `15`. -/
theorem findAllocation_unsound : ¬ ∀ (channels : List Channel) (targetMsat : ℕ)
    (alloc : List ChannelContribution), findAllocation channels targetMsat = some (some alloc) →
      SoundAllocation channels targetMsat alloc := by
  intro h
  have hrun : findAllocation [⟨"1x1x1", 10, 1⟩, ⟨"2x1x1", 20, 6⟩, ⟨"3x1x1", 3, 1⟩] 15 =
      some (some [⟨⟨"1x1x1", 10, 1⟩, 10⟩, ⟨⟨"1x1x1", 10, 1⟩, 9⟩, ⟨⟨"2x1x1", 20, 6⟩, 6⟩]) := by decide
  exact absurd (h _ _ _ hrun).total (by decide)

end Greenlight.Tramp
