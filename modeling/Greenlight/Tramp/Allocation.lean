import Mathlib.Data.Nat.PSub
import Mathlib.Algebra.BigOperators.Group.List.Basic
import Mathlib.Algebra.GroupWithZero.Nat

/-!
# Splitting a trampoline payment over channels

`findAllocation` of `tramp.rs`: the amount of a payment is split over the channels to the trampoline
node.  `tryAllocate` is the backtracking search.  It carries one vector of contributions through all its
attempts (`push` appends at the end, `pop` drops the last entry), so the vector is an argument and a part of
the result here.  Amounts are millisatoshi; nothing is added, and a subtraction of the source is `Nat.psub`,
whose `none` is the overflow panic (a wrapped amount in a release build).
-/

namespace Greenlight.Tramp

/-- The text of a short channel id, `1x1x1`. -/
abbrev ShortChannelId := String

structure Channel where
  shortChannelId : ShortChannelId
  spendableMsat : ℕ
  minHtlcOutMsat : ℕ
  deriving DecidableEq, Repr

structure ChannelContribution where
  channel : Channel
  contribMsat : ℕ
  deriving DecidableEq, Repr

inductive AllocResult where
  | success
  | impossible
  | needSpace (shortfall : ℕ)
  deriving DecidableEq, Repr

/-- A channel the search does not skip as drained or unusable. -/
def Channel.Usable (ch : Channel) : Prop :=
  ¬ (ch.spendableMsat < ch.minHtlcOutMsat ∨ ch.spendableMsat = 0)

instance (ch : Channel) : Decidable ch.Usable := by unfold Channel.Usable; infer_instance

/-- `try_allocate`: the search over the remaining channels for the remaining amount. -/
def tryAllocate : List Channel → ℕ → List ChannelContribution →
    Option (AllocResult × List ChannelContribution)
  | [], targetMsat, allocations =>
    if targetMsat = 0 then some (.success, allocations) else some (.impossible, allocations)
  | ch :: rest, targetMsat, allocations =>
    if targetMsat = 0 then some (.success, allocations)
    else if ch.spendableMsat < ch.minHtlcOutMsat ∨ ch.spendableMsat = 0 then
      tryAllocate rest targetMsat allocations
    else
      let lower := ch.minHtlcOutMsat
      let upper := min ch.spendableMsat targetMsat
      if targetMsat < lower then do
        match ← tryAllocate rest targetMsat allocations with
        | (.success, allocations) => return (.success, allocations)
        | (_, allocations) => return (.needSpace (← Nat.psub lower targetMsat), allocations)
      else do
        let remaining ← Nat.psub targetMsat upper
        match ← tryAllocate rest remaining (allocations ++ [⟨ch, upper⟩]) with
        | (.success, allocations) => return (.success, allocations)
        -- the entry pushed above stays on the vector
        | (.impossible, allocations) => return (.impossible, allocations)
        | (.needSpace shortfall, allocations) =>
          let free ← Nat.psub upper lower
          if shortfall ≤ free then
            let adjustedAmount ← Nat.psub upper shortfall
            let remaining ← Nat.psub targetMsat adjustedAmount
            match ← tryAllocate rest remaining (allocations.dropLast ++ [⟨ch, adjustedAmount⟩]) with
            | (.success, allocations) => return (.success, allocations)
            | (_, allocations) => tryAllocate rest targetMsat allocations.dropLast
          else
            return (.needSpace (← Nat.psub shortfall free), allocations.dropLast)

/-- `find_allocation`: the inner `none` is the code's `None`, the outer one a panic. -/
def findAllocation (channels : List Channel) (targetMsat : ℕ) :
    Option (Option (List ChannelContribution)) :=
  if targetMsat = 0 then some none
  else do
    match ← tryAllocate channels targetMsat [] with
    | (.success, allocations) => return some allocations
    | _ => return none

def descendingLe (a b : Channel) : Bool :=
  b.spendableMsat < a.spendableMsat ∨
    (a.spendableMsat = b.spendableMsat ∧ a.minHtlcOutMsat ≤ b.minHtlcOutMsat)

def ascendingLe (a b : Channel) : Bool :=
  a.spendableMsat < b.spendableMsat ∨
    (a.spendableMsat = b.spendableMsat ∧ a.minHtlcOutMsat ≤ b.minHtlcOutMsat)

def findAllocationDescendingOrder (channels : List Channel) (targetMsat : ℕ) :
    Option (Option (List ChannelContribution)) :=
  findAllocation (channels.mergeSort descendingLe) targetMsat

def findAllocationAscendingOrder (channels : List Channel) (targetMsat : ℕ) :
    Option (Option (List ChannelContribution)) :=
  findAllocation (channels.mergeSort ascendingLe) targetMsat

/-- What a caller may rely on: the contributions are those of channels of the list, each taken at most
once and in the order of the list, within the bounds of their channels, and they sum to the target. -/
structure SoundAllocation (channels : List Channel) (targetMsat : ℕ)
    (alloc : List ChannelContribution) : Prop where
  nonempty : alloc ≠ []
  total : (alloc.map (·.contribMsat)).sum = targetMsat
  bounds : ∀ e ∈ alloc, max 1 e.channel.minHtlcOutMsat ≤ e.contribMsat ∧
    e.contribMsat ≤ e.channel.spendableMsat
  sublist : (alloc.map (·.channel)).Sublist channels

end Greenlight.Tramp
