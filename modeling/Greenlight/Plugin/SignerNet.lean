import Greenlight.Plugin.Respond

/-!
# The plugin and its signers

Every attached signer gets each request together with the state of the plugin and merges it into its own,
updates its own state while it handles requests, and answers with the whole of it.  A run is any interleaving
of these, with the calls of `respond_hsm_request` in pieces as before.
-/

namespace Greenlight.Plugin

open Greenlight.Lib Greenlight.Persist

abbrev SignerId := ℕ

/-- An update a handler makes in the state of its signer. -/
inductive Update (Value : Type) where
  | node (key : String) (nodeState : Value)
  | channel (key : String) (channelEntry : Value)

namespace Update

variable {Value : Type}

def apply (s : State Value) : Update Value → Option (State Value)
  | node key nodeState => s.updateNode key nodeState
  | channel key channelEntry => s.updateChannel key channelEntry

def stateKey : Update Value → String
  | node key _ => "nodestates/" ++ key
  | channel key _ => "channels/" ++ key

def value : Update Value → Value
  | node _ nodeState => nodeState
  | channel _ channelEntry => channelEntry

theorem apply_eq (s : State Value) (u : Update Value) : u.apply s = s.bump u.stateKey u.value := by
  cases u <;> rfl

end Update

/-- The plugin, the state of every signer, and for every signer the states in the requests on their way to it,
the oldest first. -/
structure Net (Value : Type) where
  plugin : PluginNodeServer Value
  signers : SignerId → State Value
  requests : SignerId → List (List SignerStateEntry)

inductive NetEvent (Value : Type) where
  /-- `stream_hsm_requests` sends the next request to a signer, with the state of the plugin. -/
  | send (i : SignerId)
  /-- `process_request` starts: the signer merges the state of the request. -/
  | deliver (i : SignerId)
  | update (i : SignerId) (u : Update Value)
  /-- `process_request` returns a response with the state of the signer, and the call `id` begins. -/
  | reply (i : SignerId) (id : CallId) (requestId : UInt32) (raw : Bytes)
  /-- `process_request` fails, and the signer reports the error. -/
  | report (i : SignerId) (id : CallId) (requestId : UInt32) (error : String)
  /-- A later piece of a call. -/
  | plugin (e : Event)

namespace Net

variable {Value : Type}

def step (json : SerdeJson Value) (net : Net Value) : NetEvent Value → Option (Net Value)
  | .send i =>
    if net.plugin.stateLock = none then
      some { net with
        requests := Function.update net.requests i
          (net.requests i ++ [net.plugin.signerState.toEntries json]) }
    else none
  | .deliver i =>
    match net.requests i with
    | [] => none
    | entries :: rest =>
      match State.ofEntries json entries with
      | none => none -- the conversion panics
      | some diff =>
        some { net with
          requests := Function.update net.requests i rest
          signers := Function.update net.signers i ((net.signers i).merge diff).1 }
  | .update i u => (u.apply (net.signers i)).map fun s => { net with signers := Function.update net.signers i s }
  | .reply i id requestId raw =>
    (net.plugin.step json (.call id ⟨requestId, raw, (net.signers i).toEntries json, ""⟩)).map
      fun p => { net with plugin := p }
  | .report _ id requestId error =>
    (net.plugin.step json (.call id ⟨requestId, [], [], error⟩)).map fun p => { net with plugin := p }
  | .plugin (.call _ _) => none
  | .plugin e => (net.plugin.step json e).map fun p => { net with plugin := p }

variable {json : SerdeJson Value} {net net' : Net Value} {e : NetEvent Value} {id : CallId}

/-- What a step does, one constructor for each outcome. -/
inductive Outcome (json : SerdeJson Value) (net : Net Value) : NetEvent Value → Net Value → Prop
  | send {i} : net.plugin.stateLock = none → Outcome json net (.send i) { net with
      requests := Function.update net.requests i
        (net.requests i ++ [net.plugin.signerState.toEntries json]) }
  | deliver {i entries rest diff} : net.requests i = entries :: rest → State.ofEntries json entries = some diff →
      Outcome json net (.deliver i) { net with
        requests := Function.update net.requests i rest
        signers := Function.update net.signers i ((net.signers i).merge diff).1 }
  | update {i u s} : u.apply (net.signers i) = some s →
      Outcome json net (.update i u) { net with signers := Function.update net.signers i s }
  | reply {i id requestId raw p} :
      net.plugin.step json (.call id ⟨requestId, raw, (net.signers i).toEntries json, ""⟩) = some p →
      Outcome json net (.reply i id requestId raw) { net with plugin := p }
  | report {i id requestId error p} :
      net.plugin.step json (.call id ⟨requestId, [], [], error⟩) = some p →
      Outcome json net (.report i id requestId error) { net with plugin := p }
  | plugin {e p} : (∀ id response, e ≠ .call id response) → net.plugin.step json e = some p →
      Outcome json net (.plugin e) { net with plugin := p }

theorem step_outcome (h : net.step json e = some net') : Outcome json net e net' := by
  cases e with
  | send i =>
    simp only [step] at h
    split at h <;> cases h
    exact .send ‹_›
  | deliver i =>
    simp only [step] at h
    split at h
    · cases h
    · split at h <;> cases h
      exact .deliver ‹_› ‹_›
  | update i u =>
    obtain ⟨s, hs, rfl⟩ := Option.map_eq_some_iff.1 h
    exact .update hs
  | reply i id requestId raw =>
    obtain ⟨p, hp, rfl⟩ := Option.map_eq_some_iff.1 h
    exact .reply hp
  | report i id requestId error =>
    obtain ⟨p, hp, rfl⟩ := Option.map_eq_some_iff.1 h
    exact .report hp
  | plugin e =>
    cases e with
    | call id response => cases h
    | _ =>
      obtain ⟨p, hp, rfl⟩ := Option.map_eq_some_iff.1 h
      exact .plugin nofun hp

end Net

end Greenlight.Plugin
