import Mathlib.Data.Nat.Notation
import Mathlib.Logic.Relation

/-!
# Loops that end

A loop whose body either goes on with another state or leaves with a result.  A measure falls with every round, so the
loop has a result, and it is what the last round that is reached leaves with.
-/

namespace Greenlight.Lib

/-- A loop body with a measure that falls while the loop goes on. -/
structure Loop (σ ρ : Type) where
  body : σ → σ ⊕ ρ
  measure : σ → ℕ
  decreases : ∀ {s t : σ}, body s = .inl t → measure t < measure s

namespace Loop

variable {σ ρ : Type} (loop : Loop σ ρ)

/-- The result of the loop. -/
def run (s : σ) : ρ :=
  match _h : loop.body s with
  | .inl t => run t
  | .inr r => r
termination_by loop.measure s
decreasing_by exact loop.decreases _h

/-- The loop gets from one state to another. -/
def Reaches : σ → σ → Prop := Relation.ReflTransGen fun s t => loop.body s = .inl t

variable {loop} {s t : σ} {r : ρ}

theorem run_inl (h : loop.body s = .inl t) : loop.run s = loop.run t := by
  rw [run]
  split
  · rename_i t' h'
    cases h.symm.trans h'
    rfl
  · rename_i r h'
    cases h.symm.trans h'

theorem run_inr (h : loop.body s = .inr r) : loop.run s = r := by
  rw [run]
  split
  · rename_i t h'
    cases h.symm.trans h'
  · rename_i r' h'
    cases h.symm.trans h'
    rfl

theorem Reaches.run_eq (h : loop.Reaches s t) : loop.run s = loop.run t := by
  induction h with
  | refl => rfl
  | tail _ hstep ih => rw [ih, run_inl hstep]

theorem exists_reaches (loop : Loop σ ρ) (s : σ) : ∃ t, loop.Reaches s t ∧ loop.body t = .inr (loop.run s) := by
  induction hn : loop.measure s using Nat.strongRecOn generalizing s with
  | ind n ih =>
    cases hbody : loop.body s with
    | inr r => exact ⟨s, .refl, by rw [hbody, run_inr hbody]⟩
    | inl t =>
      obtain ⟨u, hreach, hu⟩ := ih _ (hn ▸ loop.decreases hbody) t rfl
      exact ⟨u, .head hbody hreach, by rw [hu, run_inl hbody]⟩

/-- **The result of a loop** has a property if and only if every round that leaves leaves with it. -/
theorem run_iff {P : ρ → Prop} : P (loop.run s) ↔ ∀ t r, loop.Reaches s t → loop.body t = .inr r → P r := by
  constructor
  · intro h t r hreach hr
    rwa [hreach.run_eq, run_inr hr] at h
  · intro h
    obtain ⟨t, hreach, ht⟩ := exists_reaches loop s
    exact h t _ hreach ht

end Loop

end Greenlight.Lib
