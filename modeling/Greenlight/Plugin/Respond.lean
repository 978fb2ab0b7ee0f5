import Mathlib.Logic.Function.Basic
import Greenlight.Lib.Transition
import Greenlight.Persist.State

/-!
# Concurrent calls of `respond_hsm_request`

The plugin merges the state of a signer's response into its own, writes the result to the state store and then
hands the response to the stage.  Any number of calls run at a time; a call holds the lock of the signer state
from the merge to its end and the lock of the store from the write to its end.  An event is one uninterrupted
piece of one call, and a run is an interleaving: the write may fail, and a call may be dropped wherever it
waits.  `step_outcome` lists what a step can do.
-/

namespace Greenlight.Plugin

open Greenlight.Lib Greenlight.Persist

/-- A response of a signer. -/
structure HsmResponse where
  requestId : UInt32
  raw : Bytes
  signerState : List SignerStateEntry
  error : String
  deriving DecidableEq, Repr

abbrev CallId := ℕ

/-- Where a call is: `new` is the state decoded from its response. -/
inductive Phase (Value : Type) where
  | received
  | decoded (new : State Value)
  | locked (new : State Value)
  | merged (new : State Value)
  | storing (new : State Value)
  | written (new : State Value)
  | finished (handed : Bool)

namespace Phase

variable {Value : Type}

/-- The phases in which a call holds the lock of the signer state. -/
def HoldsState : Phase Value → Prop
  | locked _ | merged _ | storing _ | written _ => True
  | _ => False

def HoldsStore : Phase Value → Prop
  | storing _ | written _ => True
  | _ => False

/-- The decoded state of a call that has decoded its response and not ended. -/
def decoded? : Phase Value → Option (State Value)
  | decoded new | locked new | merged new | storing new | written new => some new
  | _ => none

/-- The decoded state of a call that has merged and not ended. -/
def merged? : Phase Value → Option (State Value)
  | merged new | storing new | written new => some new
  | _ => none

/-- The decoded state of a call whose write has succeeded and that has not ended. -/
def written? : Phase Value → Option (State Value)
  | written new => some new
  | _ => none

def IsPending : Phase Value → Prop
  | received | decoded _ | locked _ => True
  | _ => False

def IsFinished : Phase Value → Prop
  | finished _ => True
  | _ => False

instance (ph : Phase Value) : Decidable ph.IsFinished := by
  cases ph <;> unfold IsFinished <;> infer_instance

theorem holdsState_of_merged? {ph : Phase Value} {new : State Value} (h : ph.merged? = some new) :
    ph.HoldsState := by
  cases ph <;> first | exact trivial | cases h

theorem merged?_of_written? {ph : Phase Value} {new : State Value} (h : ph.written? = some new) :
    ph.merged? = some new := by
  cases ph <;> first | exact h | cases h

theorem holdsStore_of_written? {ph : Phase Value} {new : State Value} (h : ph.written? = some new) :
    ph.HoldsStore := by
  cases ph <;> first | exact trivial | cases h

end Phase

structure Call (Value : Type) where
  response : HsmResponse
  phase : Phase Value

/-- The part of the server that the calls share: the signer state and the content of the store, each behind
its lock. -/
structure PluginNodeServer (Value : Type) where
  signerState : State Value
  stored : State Value
  stateLock : Option CallId
  storeLock : Option CallId
  calls : CallId → Option (Call Value)

inductive Event where
  /-- A response arrives. -/
  | call (id : CallId) (response : HsmResponse)
  /-- The check of `error` and the conversion of the entries. -/
  | decode (id : CallId)
  | lockState (id : CallId)
  | merge (id : CallId)
  | lockStore (id : CallId)
  /-- `store.write` with its result. -/
  | write (id : CallId) (ok : Bool)
  /-- `stage.respond` with the response of the call, and the end of the call. -/
  | respond (id : CallId)
  /-- The call is cancelled. -/
  | drop (id : CallId)

namespace PluginNodeServer

variable {Value : Type}

def setCall (p : PluginNodeServer Value) (id : CallId) (response : HsmResponse) (phase : Phase Value) :
    PluginNodeServer Value :=
  { p with calls := Function.update p.calls id (some ⟨response, phase⟩) }

/-- The end of a call: its guards are dropped. -/
def finish (p : PluginNodeServer Value) (id : CallId) (response : HsmResponse) (handed : Bool) :
    PluginNodeServer Value :=
  { p.setCall id response (.finished handed) with
    stateLock := if p.stateLock = some id then none else p.stateLock
    storeLock := if p.storeLock = some id then none else p.storeLock }

/-- One piece of a call of `respond_hsm_request`. -/
def step (json : SerdeJson Value) (p : PluginNodeServer Value) : Event → Option (PluginNodeServer Value)
  | .call id response =>
    match p.calls id with
    | none => some (p.setCall id response .received)
    | some _ => none
  | .decode id =>
    match p.calls id with
    | some ⟨response, .received⟩ =>
      if response.error ≠ "" then some (p.finish id response false)
      else
        match State.ofEntries json response.signerState with
        | none => some (p.finish id response false) -- the conversion panics
        | some new => some (p.setCall id response (.decoded new))
    | _ => none
  | .lockState id =>
    match p.calls id with
    | some ⟨response, .decoded new⟩ =>
      if p.stateLock = none then some { p.setCall id response (.locked new) with stateLock := some id }
      else none
    | _ => none
  | .merge id =>
    match p.calls id with
    | some ⟨response, .locked new⟩ =>
      some { p.setCall id response (.merged new) with signerState := (p.signerState.merge new).1 }
    | _ => none
  | .lockStore id =>
    match p.calls id with
    | some ⟨response, .merged new⟩ =>
      if p.storeLock = none then some { p.setCall id response (.storing new) with storeLock := some id }
      else none
    | _ => none
  | .write id ok =>
    match p.calls id with
    | some ⟨response, .storing new⟩ =>
      if ok then some { p.setCall id response (.written new) with stored := p.signerState }
      else some (p.finish id response false)
    | _ => none
  | .respond id =>
    match p.calls id with
    | some ⟨response, .written _⟩ => some (p.finish id response true)
    | _ => none
  | .drop id =>
    match p.calls id with
    | some ⟨response, phase⟩ => if phase.IsFinished then none else some (p.finish id response false)
    | none => none

/-- What a step does, one constructor for each outcome. -/
inductive Outcome (json : SerdeJson Value) (p : PluginNodeServer Value) :
    Event → PluginNodeServer Value → Prop
  | call {id response} : p.calls id = none →
      Outcome json p (.call id response) (p.setCall id response .received)
  | reject {id response} : p.calls id = some ⟨response, .received⟩ →
      Outcome json p (.decode id) (p.finish id response false)
  | decode {id response new} : p.calls id = some ⟨response, .received⟩ →
      State.ofEntries json response.signerState = some new →
      Outcome json p (.decode id) (p.setCall id response (.decoded new))
  | lockState {id response new} : p.calls id = some ⟨response, .decoded new⟩ → p.stateLock = none →
      Outcome json p (.lockState id) { p.setCall id response (.locked new) with stateLock := some id }
  | merge {id response new} : p.calls id = some ⟨response, .locked new⟩ →
      Outcome json p (.merge id)
        { p.setCall id response (.merged new) with signerState := (p.signerState.merge new).1 }
  | lockStore {id response new} : p.calls id = some ⟨response, .merged new⟩ → p.storeLock = none →
      Outcome json p (.lockStore id) { p.setCall id response (.storing new) with storeLock := some id }
  | write {id response new} : p.calls id = some ⟨response, .storing new⟩ →
      Outcome json p (.write id true) { p.setCall id response (.written new) with stored := p.signerState }
  | writeFailed {id response new} : p.calls id = some ⟨response, .storing new⟩ →
      Outcome json p (.write id false) (p.finish id response false)
  | respond {id response new} : p.calls id = some ⟨response, .written new⟩ →
      Outcome json p (.respond id) (p.finish id response true)
  | drop {id response phase} : p.calls id = some ⟨response, phase⟩ → ¬ phase.IsFinished →
      Outcome json p (.drop id) (p.finish id response false)

variable {json : SerdeJson Value} {p p' : PluginNodeServer Value} {e : Event}

theorem step_outcome (h : p.step json e = some p') : Outcome json p e p' := by
  cases e with
  | call id response =>
    simp only [step] at h
    split at h <;> cases h
    exact .call ‹_›
  | decode id =>
    simp only [step] at h
    split at h
    · rename_i response hid
      split at h
      · cases h
        exact .reject hid
      · split at h <;> cases h
        · exact .reject hid
        · exact .decode hid ‹_›
    · cases h
  | lockState id =>
    simp only [step] at h
    split at h
    · rename_i response new hid
      split at h <;> cases h
      exact .lockState hid ‹_›
    · cases h
  | merge id =>
    simp only [step] at h
    split at h <;> cases h
    exact .merge ‹_›
  | lockStore id =>
    simp only [step] at h
    split at h
    · rename_i response new hid
      split at h <;> cases h
      exact .lockStore hid ‹_›
    · cases h
  | write id ok =>
    simp only [step] at h
    split at h
    · rename_i response new hid
      cases ok <;> cases h
      · exact .writeFailed hid
      · exact .write hid
    · cases h
  | respond id =>
    simp only [step] at h
    split at h <;> cases h
    exact .respond ‹_›
  | drop id =>
    simp only [step] at h
    split at h
    · rename_i response phase hid
      split at h <;> cases h
      exact .drop hid ‹_›
    · cases h

theorem step_calls (h : p.step json e = some p') : ∃ id c, p'.calls = Function.update p.calls id (some c) ∧
    ∀ c₀, p.calls id = some c₀ → ¬ c₀.phase.IsFinished := by
  cases step_outcome h with
  | drop hid hph =>
    refine ⟨_, _, rfl, fun c₀ h₀ => ?_⟩
    obtain rfl := Option.some.inj (hid.symm.trans h₀)
    exact hph
  | call hid => exact ⟨_, _, rfl, fun c₀ h₀ => by rw [hid] at h₀; cases h₀⟩
  | reject hid | decode hid _ | lockState hid _ | merge hid | lockStore hid _ | write hid | writeFailed hid
  | respond hid =>
    refine ⟨_, _, rfl, fun c₀ h₀ => ?_⟩
    obtain rfl := Option.some.inj (hid.symm.trans h₀)
    exact not_false

/-- A call before its merge began in this step, or it was there with the same response. -/
theorem pending_step (h : p.step json e = some p') {id : CallId} {c' : Call Value}
    (hid : p'.calls id = some c') (hpend : c'.phase.IsPending) : e = .call id c'.response ∨
      ∃ c, p.calls id = some c ∧ c.phase.IsPending ∧ c.response = c'.response := by
  have hother : ∀ {i c}, p'.calls = Function.update p.calls i (some c) → id ≠ i → p.calls id = some c' := by
    intro i c hcalls hne
    rwa [hcalls, Function.update_of_ne hne] at hid
  cases step_outcome h with
  | @call i response hi =>
    by_cases hne : id = i
    · subst hne
      obtain rfl : _ = c' := by simpa [setCall] using hid
      exact Or.inl rfl
    · exact Or.inr ⟨c', hother rfl hne, hpend, rfl⟩
  | @decode i response _ hi _ | @lockState i response _ hi _ =>
    by_cases hne : id = i
    · subst hne
      obtain rfl : _ = c' := by simpa [setCall] using hid
      exact Or.inr ⟨_, hi, trivial, rfl⟩
    · exact Or.inr ⟨c', hother rfl hne, hpend, rfl⟩
  | @reject i _ hi | @merge i _ _ hi | @lockStore i _ _ hi _ | @write i _ _ hi | @writeFailed i _ _ hi
  | @respond i _ _ hi | @drop i _ _ hi _ =>
    by_cases hne : id = i
    · subst hne
      obtain rfl : _ = c' := by simpa [setCall, finish] using hid
      exact hpend.elim
    · exact Or.inr ⟨c', hother rfl hne, hpend, rfl⟩

theorem signerState_step (h : p.step json e = some p') : p'.signerState = p.signerState ∨
    ∃ id response new, p.calls id = some ⟨response, .locked new⟩ ∧
      p'.signerState = (p.signerState.merge new).1 := by
  cases step_outcome h with
  | merge hid => exact Or.inr ⟨_, _, _, hid, rfl⟩
  | _ => exact Or.inl rfl

end PluginNodeServer

end Greenlight.Plugin
