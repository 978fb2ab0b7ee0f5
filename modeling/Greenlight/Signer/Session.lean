import Greenlight.Persist.Memory
import Greenlight.Plugin.Respond
import Greenlight.Signer.Process

/-!
# A session of a signer

The rest of `process_request`, from the call of the handler on, and what `run_once` makes of its result: every request
that is processed is answered by a response with its id, and one that is not handed to VLS, or that VLS refuses, by a
response with an error and nothing else in it (`serve_spec`).
-/

namespace Greenlight

open Greenlight.Lib Greenlight.Persist Greenlight.Plugin

/-- What VLS does with a message that is handed to it: the operations that it runs on the persister, in order, and
the response or the error. -/
abbrev Handling (Value : Type) := Handler → Message → State Value → List (PersistOp Value) × Except String Bytes

/-- `{:?}` of an error: the name of its kind, with what is in it. -/
def SignerError.debug (inner : SignerError → String) (e : SignerError) : String :=
  match e with
  | .auth _ => "Auth(" ++ inner e ++ ")"
  | .resolver _ _ => "Resolver(" ++ inner e ++ ")"
  | .protocol _ => "Protocol(" ++ inner e ++ ")"
  | .other _ => "Other(" ++ inner e ++ ")"

theorem SignerError.debug_ne (inner : SignerError → String) (e : SignerError) : e.debug inner ≠ "" := by
  intro h
  have hlen := congrArg String.length h
  cases e <;> simp [SignerError.debug, String.length_append] at hlen

/-- What a signer runs on, apart from its own keys. -/
structure SignerEnv (Value : Type) where
  prost : Prost
  vls : Vls Value
  json : SerdeJson Value
  nodeChannelId : Bytes → Bytes → Bytes
  handle : Handling Value
  /-- `{:?}` of what is in an error. -/
  debug : SignerError → String

inductive Processed where
  | panic
  | error (e : SignerError)
  | ok (response : HsmResponse)
  deriving DecidableEq, Repr

namespace Signer

variable {Value : Type}

/-- `process_request`, all of it. -/
def processRequestToEnd (s : Signer) (env : SignerEnv Value) (now : ℤ) (state : State Value) (req : HsmRequest) :
    State Value × Processed :=
  match s.processRequest env.prost env.vls env.json now state req with
  | (state, .panic) => (state, .panic)
  | (state, .rejected e) => (state, .error e)
  | (state, .handed handler msg) =>
    let (ops, response) := env.handle handler msg state
    match ops.foldlM (PersistOp.apply env.nodeChannelId) state with
    | none => (state, .panic)
    | some state =>
      match response with
      | .error e => (state, .error (.other ("processing request: " ++ e)))
      | .ok raw => (state, .ok ⟨req.requestId, raw, state.toEntries env.json, ""⟩)

/-- The body of the loop in `run_once`: the response to a request, or none if the signer panics. -/
def serve (s : Signer) (env : SignerEnv Value) (now : ℤ) (state : State Value) (req : HsmRequest) :
    State Value × Option HsmResponse :=
  match s.processRequestToEnd env now state req with
  | (state, .panic) => (state, none)
  | (state, .error e) => (state, some ⟨req.requestId, [], [], e.debug env.debug⟩)
  | (state, .ok response) => (state, some response)

variable {s : Signer} {env : SignerEnv Value} {now : ℤ} {state state' : State Value} {req : HsmRequest}
  {response : HsmResponse}

/-- The message of the request was admitted, and VLS answered it with the response. -/
def Handled (s : Signer) (env : SignerEnv Value) (now : ℤ) (state : State Value) (req : HsmRequest)
    (response : HsmResponse) : Prop :=
  ∃ handler msg ctxrequests, s.Admitted env.prost env.vls now req msg ctxrequests ∧
    (s.processRequest env.prost env.vls env.json now state req).2 = .handed handler msg ∧
    (env.handle handler msg (s.processRequest env.prost env.vls env.json now state req).1).2 = .ok response.raw

theorem processRequestToEnd_eq_ok (h : s.processRequestToEnd env now state req = (state', .ok response)) :
    response = ⟨req.requestId, response.raw, state'.toEntries env.json, ""⟩ ∧
      s.Handled env now state req response := by
  unfold processRequestToEnd at h
  split at h
  · cases h
  · cases h
  · rename_i handed handler msg hprocess
    dsimp only at h
    split at h
    · cases h
    · split at h
      · cases h
      · rename_i raw hraw
        cases h
        have hhanded : (s.processRequest env.prost env.vls env.json now state req).2 = .handed handler msg := by
          rw [hprocess]
        obtain ⟨ctxrequests, hadm⟩ := admitted_of_handed hhanded
        refine ⟨rfl, handler, msg, ctxrequests, hadm, hhanded, ?_⟩
        rw [hprocess, hraw]

theorem serve_eq_none_iff (s : Signer) (env : SignerEnv Value) (now : ℤ) (state : State Value) (req : HsmRequest) :
    (s.serve env now state req).2 = none ↔ (s.processRequestToEnd env now state req).2 = .panic := by
  unfold serve
  rcases s.processRequestToEnd env now state req with ⟨state', processed⟩
  cases processed <;> simp

/-- **What a signer answers**: the id of the request, and either an error without anything else or, without an error,
its state and what VLS returned for a message that was admitted. -/
theorem serve_spec (h : s.serve env now state req = (state', some response)) :
    response.requestId = req.requestId ∧
      ((response.error ≠ "" ∧ response.raw = [] ∧ response.signerState = []) ∨
        (response.error = "" ∧ response.signerState = state'.toEntries env.json ∧
          s.Handled env now state req response)) := by
  unfold serve at h
  split at h
  · cases h
  · rename_i e _
    cases h
    exact ⟨rfl, Or.inl ⟨SignerError.debug_ne env.debug e, rfl, rfl⟩⟩
  · rename_i hprocess
    cases h
    obtain ⟨hresponse, hhandled⟩ := processRequestToEnd_eq_ok hprocess
    rw [hresponse]
    exact ⟨rfl, Or.inr ⟨rfl, rfl, hhandled⟩⟩

end Signer

end Greenlight
