import Greenlight.Tramp.AllocationSpec

/-!
# The arithmetic of the search

Amounts are unsigned, so a subtraction of `try_allocate` that goes below zero panics, or wraps to a huge
contribution in a release build.  `searchSteps` lists what a search does on the way to its result, the subtractions
with their operands and the shortfalls that are passed up, in all the calls that it makes: those of the descent and
those of the retries.  Every one of them is safe.
-/

namespace Greenlight.Tramp

inductive SearchStep where
  | sub (a b : ℕ)
  | needSpace (shortfall : ℕ)
  deriving DecidableEq, Repr

/-- A subtraction stays above zero, and a call that asks for space asks for some. -/
def SearchStep.Safe : SearchStep → Prop
  | sub a b => b ≤ a
  | needSpace shortfall => 0 < shortfall

instance (s : SearchStep) : Decidable s.Safe := by
  cases s <;> unfold SearchStep.Safe <;> infer_instance

/-- The arithmetic of `try_allocate`, that of its recursive calls included, in the order of the source. -/
def searchSteps : List Channel → ℕ → List ChannelContribution → List SearchStep
  | [], _, _ => []
  | ch :: rest, targetMsat, allocations =>
    if targetMsat = 0 then []
    else if ch.spendableMsat < ch.minHtlcOutMsat ∨ ch.spendableMsat = 0 then
      searchSteps rest targetMsat allocations
    else
      let lower := ch.minHtlcOutMsat
      let upper := min ch.spendableMsat targetMsat
      if targetMsat < lower then
        searchSteps rest targetMsat allocations ++
          match tryAllocate rest targetMsat allocations with
          | some (.success, _) => []
          | _ => [.sub lower targetMsat, .needSpace (lower - targetMsat)]
      else
        let remaining := targetMsat - upper
        .sub targetMsat upper :: searchSteps rest remaining (allocations ++ [⟨ch, upper⟩]) ++
          match tryAllocate rest remaining (allocations ++ [⟨ch, upper⟩]) with
          | some (.needSpace shortfall, allocations) =>
            let free := upper - lower
            .sub upper lower ::
              if shortfall ≤ free then
                let adjustedAmount := upper - shortfall
                let remaining := targetMsat - adjustedAmount
                let retried := allocations.dropLast ++ [⟨ch, adjustedAmount⟩]
                .sub upper shortfall :: .sub targetMsat adjustedAmount :: searchSteps rest remaining retried ++
                  match tryAllocate rest remaining retried with
                  | some (.success, _) => []
                  | some (_, allocations) => searchSteps rest targetMsat allocations.dropLast
                  | none => []
              else [.sub shortfall free, .needSpace (shortfall - free)]
          | _ => []

/-- The relations that the subtractions of one call rest on: the channel is usable and the target is not below its
minimum. -/
theorem upper_bounds {lower upper targetMsat spendableMsat : ℕ} (hupper : upper = min spendableMsat targetMsat)
    (hskip : ¬ (spendableMsat < lower ∨ spendableMsat = 0)) (hlower : ¬ targetMsat < lower) :
    upper ≤ targetMsat ∧ lower ≤ upper := by
  omega

theorem safe_of_mem_shortfall {a b : ℕ} (h : b < a) : ∀ s ∈ [SearchStep.sub a b, .needSpace (a - b)], s.Safe := by
  intro s hs
  rcases List.mem_pair.1 hs with rfl | rfl
  · exact h.le
  · exact Nat.sub_pos_of_lt h

theorem searchSteps_safe : ∀ (channels : List Channel) (targetMsat : ℕ) (allocations : List ChannelContribution),
    ∀ s ∈ searchSteps channels targetMsat allocations, s.Safe := by
  intro channels
  induction channels with
  | nil => intro t al s hs; cases hs
  | cons ch rest ih =>
    intro t al s hs
    unfold searchSteps at hs
    dsimp only at hs
    split_ifs at hs with h0 hskip hlt
    · cases hs
    · exact ih _ _ s hs
    · -- below the minimum
      rcases List.mem_append.1 hs with hs | hs
      · exact ih _ _ s hs
      · split at hs
        · cases hs
        · exact safe_of_mem_shortfall hlt s hs
    · obtain ⟨htarget, hlower⟩ := upper_bounds rfl hskip hlt
      set upper := min ch.spendableMsat t with hupper
      rcases List.mem_append.1 hs with hs | hs
      · -- the descent
        rcases List.mem_cons.1 hs with rfl | hs
        · exact htarget
        · exact ih _ _ s hs
      · split at hs
        · rename_i shortfall left hrun
          rcases List.mem_cons.1 hs with rfl | hs
          · exact hlower
          split_ifs at hs with hfree
          · simp only [List.cons_append, List.mem_cons, List.mem_append] at hs
            rcases hs with rfl | rfl | hs | hs
            · exact hfree.trans (Nat.sub_le _ _)
            · exact (Nat.sub_le _ _).trans htarget
            · -- the retry
              exact ih _ _ s hs
            · split at hs
              · cases hs
              · exact ih _ _ s hs
              · cases hs
          · exact safe_of_mem_shortfall (not_le.1 hfree) s hs
        · cases hs

/-- **The arithmetic of the search is safe.**  No subtraction of a search underflows and no call that it makes asks
for a shortfall of zero, whatever the channels, the target and the vector are; so the search has a result, and one
that asks for space asks for some. -/
theorem tryAllocate_arithmetic (channels : List Channel) (targetMsat : ℕ)
    (allocations : List ChannelContribution) :
    (∀ s ∈ searchSteps channels targetMsat allocations, s.Safe) ∧
      ∃ r left, tryAllocate channels targetMsat allocations = some (r, left) ∧
        ∀ shortfall, r = .needSpace shortfall → 0 < shortfall := by
  refine ⟨searchSteps_safe channels targetMsat allocations, ?_⟩
  obtain ⟨r, al, hrun, hs⟩ := tryAllocate_spec channels targetMsat allocations
  refine ⟨r, _, hrun, ?_⟩
  rintro shortfall rfl
  cases hs with
  | needSpace _ hpos _ => exact hpos

/-- The second channel misses `1` of its minimum, and the first one gives it up in a retry. -/
example : searchSteps [⟨"1x1x1", 10, 1⟩, ⟨"2x1x1", 20, 6⟩] 15 [] =
    [.sub 15 10, .sub 6 5, .needSpace 1, .sub 10 1, .sub 10 1, .sub 15 9, .sub 6 6] := by decide

end Greenlight.Tramp
