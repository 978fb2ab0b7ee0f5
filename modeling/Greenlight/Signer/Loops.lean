import Greenlight.Lib.Channel
import Greenlight.Lib.Transition
import Greenlight.Pairing.Approval
import Greenlight.Signer.Session

/-!
# The loops of a signer

`run_forever_with_uri` of `signer/mod.rs`: the signer upgrades the scheduler, and then runs two loops next to each
other, one that waits for the node to be scheduled, attaches to it and serves its requests, and one that answers the
approvals of pairings that the scheduler hands out.  The signer returns exactly after a shutdown, an error before the
loops or a URI of the node that does not parse, and it panics exactly with `get_startup_messages` or with
`process_request` (`returned_iff`): it outlives every other thing that the node, the streams and the approvals do.  On
each stream of the scheduler the approvals that pass are answered, each once and in their order (`answers_of_run`).
-/

namespace Greenlight

open Greenlight.Lib Greenlight.Persist Greenlight.Plugin

structure SignerRequest where
  requestId : UInt32
  approvePairing : Option ApprovePairingRequest
  deriving DecidableEq, Repr

structure SignerResponse where
  requestId : UInt32
  approvePairing : ApprovePairingResponse
  deriving DecidableEq, Repr

namespace SignerLoops

/-- How a call of `maybe_upgrade` ends. -/
inductive UpgradeAnswer where
  /-- VLS has no response to a startup message, and there is no call: `get_startup_messages` unwraps it. -/
  | noStartupMessages
  | upgraded
  /-- The status `Unavailable`. -/
  | unavailable
  | error (e : String)
  deriving DecidableEq, Repr

inductive LoopError where
  /-- The URI of the scheduler, or its TLS configuration. -/
  | transport (e : String)
  | upgrade (e : String)
  deriving DecidableEq, Repr

/-- `run_forever_inner`, with `run_once` inside. -/
inductive NodeLoop where
  /-- `get_node_info` was called. -/
  | asking
  | sleeping
  /-- `stream_hsm_requests` was called. -/
  | attaching (uri : String)
  | streaming (uri : String)
  /-- `respond_hsm_request` was called. -/
  | responding (uri : String) (response : HsmResponse)
  deriving DecidableEq, Repr

/-- `run_forever_scheduler`, with `run_once_scheduler` inside. -/
inductive SchedulerLoop where
  | opening
  | reading
  /-- `process_pairing_approval` sends the response. -/
  | answering (response : SignerResponse)
  deriving DecidableEq, Repr

inductive Phase where
  | connecting
  | upgrading
  /-- The scheduler was unavailable. -/
  | retrying
  | running (node : NodeLoop) (scheduler : SchedulerLoop)
  | returned (result : Except LoopError Unit)
  | panicked
  deriving DecidableEq, Repr

structure LoopEnv (Value : Type) where
  signer : Signer
  crates : SignerEnv Value
  /-- `Uri::from_maybe_shared`. -/
  parseUri : String → Except String Unit

inductive LoopEvent where
  | endpoint (r : Except String Unit)
  | upgrade (answer : UpgradeAnswer)
  | retry
  | nodeInfo (grpcUri : Except String String)
  | wake
  | attached (r : Except String Unit)
  /-- The stream of the node yields a request, ends or fails. -/
  | request (now : ℤ) (m : Except String (Option HsmRequest))
  | responded (r : Except String Unit)
  | opened (r : Except String Unit)
  /-- The stream of the scheduler yields a message, ends or fails. -/
  | message (now : ℤ) (m : Except String (Option SignerRequest))
  | answered
  /-- The connection takes a response out of the channel. -/
  | consumed
  /-- The connection is gone. -/
  | hungUp
  /-- There is a message in the channel for shutdowns, or nobody is left to send one. -/
  | shutdown

end SignerLoops

/-- The loops and the state of the signer, with the channel of the responses on the present stream of the scheduler
and, as history, what was read from it. -/
structure SignerLoops (Value : Type) where
  phase : SignerLoops.Phase
  state : State Value
  outbound : Mpsc SignerResponse
  received : List (ℤ × SignerRequest)

/-- What the signer answers to a message, if it does. -/
def Signer.reply (s : Signer) (now : ℤ) (req : SignerRequest) : Option SignerResponse := do
  let approval ← req.approvePairing
  let response ← (s.processPairingApproval now approval).toOption
  return ⟨req.requestId, response⟩

namespace SignerLoops

variable {Value : Type}

def start (state : State Value) : SignerLoops Value := ⟨.connecting, state, .new 1, []⟩

/-- `run_forever_with_uri` is left, and the streams of both loops are dropped. -/
def leave (l : SignerLoops Value) (phase : Phase) : SignerLoops Value :=
  { l with phase := phase, outbound := l.outbound.close }

def step (env : LoopEnv Value) (l : SignerLoops Value) : LoopEvent → Option (SignerLoops Value)
  | .endpoint r =>
    match l.phase with
    | .connecting =>
      match r with
      | .ok _ => some { l with phase := .upgrading }
      | .error e => some (l.leave (.returned (.error (.transport e))))
    | _ => none
  | .upgrade answer =>
    match l.phase with
    | .upgrading =>
      match answer with
      | .noStartupMessages => some (l.leave .panicked)
      | .upgraded => some { l with phase := .running .asking .opening }
      | .unavailable => some { l with phase := .retrying }
      | .error e => some (l.leave (.returned (.error (.upgrade e))))
    | _ => none
  | .retry =>
    match l.phase with
    | .retrying => some { l with phase := .upgrading }
    | _ => none
  | .nodeInfo grpcUri =>
    match l.phase with
    | .running .asking scheduler =>
      match grpcUri with
      | .error _ => some { l with phase := .running .sleeping scheduler }
      | .ok uri =>
        -- the node is not scheduled
        if uri = "" then some { l with phase := .running .sleeping scheduler }
        else
          match env.parseUri uri with
          -- the error is only logged, and the other loop ends with this one
          | .error _ => some (l.leave (.returned (.ok ())))
          | .ok _ => some { l with phase := .running (.attaching uri) scheduler }
    | _ => none
  | .wake =>
    match l.phase with
    | .running .sleeping scheduler => some { l with phase := .running .asking scheduler }
    | _ => none
  | .attached r =>
    match l.phase with
    | .running (.attaching uri) scheduler =>
      match r with
      | .ok _ => some { l with phase := .running (.streaming uri) scheduler }
      | .error _ => some { l with phase := .running .asking scheduler }
    | _ => none
  | .request now m =>
    match l.phase with
    | .running (.streaming uri) scheduler =>
      match m with
      | .ok (some req) =>
        match env.signer.serve env.crates now l.state req with
        | (state, some response) =>
          some { l with phase := .running (.responding uri response) scheduler, state := state }
        -- the panic unwinds the task that both loops run in
        | (state, none) => some ({ l with state := state }.leave .panicked)
      -- `run_once` returns
      | .ok none | .error _ => some { l with phase := .running .asking scheduler }
    | _ => none
  | .responded r =>
    match l.phase with
    | .running (.responding uri _) scheduler =>
      match r with
      | .ok _ => some { l with phase := .running (.streaming uri) scheduler }
      | .error _ => some { l with phase := .running .asking scheduler }
    | _ => none
  | .opened r =>
    match l.phase with
    | .running node .opening =>
      match r with
      | .ok _ => some { l with phase := .running node .reading, outbound := .new 1, received := [] }
      | .error _ => some l
    | _ => none
  | .message now m =>
    match l.phase with
    | .running node .reading =>
      match m with
      | .ok (some req) =>
        match env.signer.reply now req with
        | some response =>
          some { l with phase := .running node (.answering response), received := l.received ++ [(now, req)] }
        | none => some { l with received := l.received ++ [(now, req)] }
      -- `run_once_scheduler` returns, and is called again
      | .ok none | .error _ => some { l with phase := .running node .opening }
    | _ => none
  | .answered =>
    match l.phase with
    | .running node (.answering response) =>
      match l.outbound.send response with
      | .accepted outbound => some { l with phase := .running node .reading, outbound := outbound }
      | .refused => some { l with phase := .running node .reading }
      | .waits => none
    | _ => none
  | .consumed =>
    match l.phase with
    | .running _ _ => l.outbound.recv.map fun r => { l with outbound := r.2 }
    | _ => none
  | .hungUp =>
    match l.phase with
    | .running _ _ => some { l with outbound := l.outbound.close }
    | _ => none
  | .shutdown =>
    match l.phase with
    | .running _ _ => some (l.leave (.returned (.ok ())))
    | _ => none

/-! ### What a step does -/

/-- What the signer returns after an event, if it does. -/
def LoopEvent.result (env : LoopEnv Value) : LoopEvent → Option (Except LoopError Unit)
  | .endpoint (.error e) => some (.error (.transport e))
  | .upgrade (.error e) => some (.error (.upgrade e))
  | .nodeInfo (.ok uri) => if uri ≠ "" ∧ (env.parseUri uri).isOk = false then some (.ok ()) else none
  | .shutdown => some (.ok ())
  | _ => none

/-- The event makes a signer panic that is in this state. -/
def LoopEvent.Panics (env : LoopEnv Value) (state : State Value) : LoopEvent → Prop
  | .upgrade .noStartupMessages => True
  | .request now (.ok (some req)) => (env.signer.processRequestToEnd env.crates now state req).2 = .panic
  | _ => False

/-- The event does not end the loops. -/
structure LoopEvent.Harmless (env : LoopEnv Value) (state : State Value) (e : LoopEvent) : Prop where
  result : e.result env = none
  panics : ¬ e.Panics env state

def Phase.Early : Phase → Prop
  | .connecting | .upgrading | .retrying => True
  | _ => False

def Phase.Ended : Phase → Prop
  | .returned _ | .panicked => True
  | _ => False

/-- The steps, with what is known of the loops before them. -/
inductive Outcome (env : LoopEnv Value) (l : SignerLoops Value) : LoopEvent → SignerLoops Value → Prop where
  | returns {e : LoopEvent} {r : Except LoopError Unit} (hphase : ¬ l.phase.Ended) (hr : e.result env = some r)
      (hpanics : ¬ e.Panics env l.state) : Outcome env l e (l.leave (.returned r))
  | panics {e : LoopEvent} {state : State Value} (hphase : ¬ l.phase.Ended) (hr : e.result env = none)
      (hpanics : e.Panics env l.state) : Outcome env l e ({ l with state := state }.leave .panicked)
  /-- Before the loops. -/
  | upgrades {e : LoopEvent} {phase : Phase} (hphase : l.phase.Early) (hon : e.Harmless env l.state)
      (hthen : phase.Early) : Outcome env l e { l with phase := phase }
  | starts (hphase : l.phase = .upgrading) :
      Outcome env l (.upgrade .upgraded) { l with phase := .running .asking .opening }
  /-- The loop of the node takes a turn. -/
  | node {e : LoopEvent} {node node' : NodeLoop} {scheduler : SchedulerLoop} {state : State Value}
      (hphase : l.phase = .running node scheduler) (hon : e.Harmless env l.state) :
      Outcome env l e { l with phase := .running node' scheduler, state := state }
  | opens {node : NodeLoop} {u : Unit} (hphase : l.phase = .running node .opening) :
      Outcome env l (.opened (.ok u))
        { l with phase := .running node .reading, outbound := .new 1, received := [] }
  | staysClosed {node : NodeLoop} {error : String} (hphase : l.phase = .running node .opening) :
      Outcome env l (.opened (.error error)) l
  | breaks {node : NodeLoop} {now : ℤ} {m : Except String (Option SignerRequest)}
      (hphase : l.phase = .running node .reading) :
      Outcome env l (.message now m) { l with phase := .running node .opening }
  | passes {node : NodeLoop} {now : ℤ} {req : SignerRequest} {response : SignerResponse}
      (hphase : l.phase = .running node .reading) (hreply : env.signer.reply now req = some response) :
      Outcome env l (.message now (.ok (some req)))
        { l with phase := .running node (.answering response), received := l.received ++ [(now, req)] }
  | refuses {node : NodeLoop} {now : ℤ} {req : SignerRequest} (hphase : l.phase = .running node .reading)
      (hreply : env.signer.reply now req = none) :
      Outcome env l (.message now (.ok (some req))) { l with received := l.received ++ [(now, req)] }
  | answers {node : NodeLoop} {response : SignerResponse} {outbound : Mpsc SignerResponse}
      (hphase : l.phase = .running node (.answering response))
      (hsend : l.outbound.send response = .accepted outbound) :
      Outcome env l .answered { l with phase := .running node .reading, outbound := outbound }
  | drops {node : NodeLoop} {response : SignerResponse} (hphase : l.phase = .running node (.answering response))
      (hsend : l.outbound.send response = .refused) :
      Outcome env l .answered { l with phase := .running node .reading }
  | consumes {node : NodeLoop} {scheduler : SchedulerLoop} {response : SignerResponse}
      {outbound : Mpsc SignerResponse} (hphase : l.phase = .running node scheduler)
      (hrecv : l.outbound.recv = some (response, outbound)) :
      Outcome env l .consumed { l with outbound := outbound }
  | hangsUp {node : NodeLoop} {scheduler : SchedulerLoop} (hphase : l.phase = .running node scheduler) :
      Outcome env l .hungUp { l with outbound := l.outbound.close }

variable {env : LoopEnv Value} {l l' : SignerLoops Value} {e : LoopEvent} {es : List LoopEvent}

theorem Phase.not_ended_of_eq_running {phase : Phase} {node : NodeLoop} {scheduler : SchedulerLoop}
    (h : phase = .running node scheduler) : ¬ phase.Ended := by
  rw [h]
  exact id

theorem Phase.Early.not_ended {phase : Phase} (h : phase.Early) : ¬ phase.Ended := by
  intro hended
  cases phase with
  | returned r => exact h
  | panicked => exact h
  | _ => exact hended

theorem nodeInfo_outcome {grpcUri : Except String String} (h : l.step env (.nodeInfo grpcUri) = some l') :
    Outcome env l (.nodeInfo grpcUri) l' := by
  simp only [step] at h
  split at h
  case h_2 => cases h
  rename_i scheduler hphase
  split at h
  · exact Option.some.inj h ▸ .node hphase ⟨rfl, id⟩
  rename_i uri
  split_ifs at h with hempty
  · exact Option.some.inj h ▸ .node hphase ⟨if_neg fun hne => hne.1 hempty, id⟩
  split at h
  · rename_i error herror
    refine Option.some.inj h ▸ .returns (Phase.not_ended_of_eq_running hphase) (if_pos ⟨hempty, ?_⟩) id
    rw [herror]
    rfl
  · rename_i hok
    refine Option.some.inj h ▸ .node hphase ⟨if_neg fun hfails => ?_, id⟩
    rw [hok] at hfails
    exact absurd hfails.2 (by simp [Except.isOk, Except.toBool])

theorem request_outcome {now : ℤ} {m : Except String (Option HsmRequest)}
    (h : l.step env (.request now m) = some l') : Outcome env l (.request now m) l' := by
  simp only [step] at h
  split at h
  case h_2 => cases h
  rename_i uri scheduler hphase
  split at h
  · rename_i req
    split at h
    · rename_i state response hserve
      refine Option.some.inj h ▸ .node hphase ⟨rfl, ?_⟩
      show ¬ (env.signer.processRequestToEnd env.crates now l.state req).2 = .panic
      rw [← Signer.serve_eq_none_iff, hserve]
      exact nofun
    · rename_i state hserve
      refine Option.some.inj h ▸ .panics (Phase.not_ended_of_eq_running hphase) rfl ?_
      show (env.signer.processRequestToEnd env.crates now l.state req).2 = .panic
      rw [← Signer.serve_eq_none_iff, hserve]
  · exact Option.some.inj h ▸ .node hphase ⟨rfl, id⟩
  · exact Option.some.inj h ▸ .node hphase ⟨rfl, id⟩

theorem message_outcome {now : ℤ} {m : Except String (Option SignerRequest)}
    (h : l.step env (.message now m) = some l') : Outcome env l (.message now m) l' := by
  simp only [step] at h
  split at h
  case h_2 => cases h
  rename_i node hphase
  split at h
  · split at h
    · exact Option.some.inj h ▸ .passes hphase ‹_›
    · exact Option.some.inj h ▸ .refuses hphase ‹_›
  · exact Option.some.inj h ▸ .breaks hphase
  · exact Option.some.inj h ▸ .breaks hphase

theorem answered_outcome (h : l.step env .answered = some l') : Outcome env l .answered l' := by
  simp only [step] at h
  split at h
  case h_2 => cases h
  rename_i node response hphase
  split at h
  · exact Option.some.inj h ▸ .answers hphase ‹_›
  · exact Option.some.inj h ▸ .drops hphase ‹_›
  · cases h

theorem upgrade_outcome {answer : UpgradeAnswer} (h : l.step env (.upgrade answer) = some l') :
    Outcome env l (.upgrade answer) l' := by
  simp only [step] at h
  split at h
  case h_2 => cases h
  rename_i hphase
  have hearly : l.phase.Early := by
    rw [hphase]
    trivial
  cases answer with
  | noStartupMessages => exact Option.some.inj h ▸ .panics hearly.not_ended rfl trivial
  | upgraded => exact Option.some.inj h ▸ .starts hphase
  | unavailable => exact Option.some.inj h ▸ .upgrades hearly ⟨rfl, id⟩ trivial
  | error error => exact Option.some.inj h ▸ .returns hearly.not_ended rfl id

theorem step_outcome (h : l.step env e = some l') : Outcome env l e l' := by
  cases e with
  | nodeInfo grpcUri => exact nodeInfo_outcome h
  | request now m => exact request_outcome h
  | message now m => exact message_outcome h
  | answered => exact answered_outcome h
  | upgrade answer => exact upgrade_outcome h
  | endpoint r =>
    simp only [step] at h
    split at h
    case h_2 => cases h
    rename_i hphase
    have hearly : l.phase.Early := by
      rw [hphase]
      trivial
    cases r with
    | ok u => exact Option.some.inj h ▸ .upgrades hearly ⟨rfl, id⟩ trivial
    | error error => exact Option.some.inj h ▸ .returns hearly.not_ended rfl id
  | retry =>
    simp only [step] at h
    split at h
    case h_2 => cases h
    exact Option.some.inj h ▸ .upgrades (by simp [‹l.phase = _›, Phase.Early]) ⟨rfl, id⟩ trivial
  | wake =>
    simp only [step] at h
    split at h
    case h_2 => cases h
    exact Option.some.inj h ▸ .node ‹_› ⟨rfl, id⟩
  | attached r | responded r =>
    simp only [step] at h
    split at h
    case h_2 => cases h
    cases r with
    | ok u => exact Option.some.inj h ▸ .node ‹_› ⟨rfl, id⟩
    | error error => exact Option.some.inj h ▸ .node ‹_› ⟨rfl, id⟩
  | opened r =>
    simp only [step] at h
    split at h
    case h_2 => cases h
    cases r with
    | ok u => exact Option.some.inj h ▸ .opens ‹_›
    | error error => exact Option.some.inj h ▸ .staysClosed ‹_›
  | consumed =>
    simp only [step] at h
    split at h
    case h_2 => cases h
    obtain ⟨⟨response, outbound⟩, hrecv, rfl⟩ := Option.map_eq_some_iff.1 h
    exact .consumes ‹_› hrecv
  | hungUp =>
    simp only [step] at h
    split at h
    case h_2 => cases h
    exact Option.some.inj h ▸ .hangsUp ‹_›
  | shutdown =>
    simp only [step] at h
    split at h
    case h_2 => cases h
    exact Option.some.inj h ▸ .returns (Phase.not_ended_of_eq_running ‹_›) rfl id

/-! ### When the signer returns -/

variable {state : State Value}

/-- The crates in plain text; VLS answers every message with `7`. -/
def plainSignerEnv : SignerEnv Bool where
  prost := Prost.bolt11
  vls := Signer.plainVls
  json := SerdeJson.bool
  nodeChannelId _ _ := []
  handle _ _ _ := ([], .ok [7])
  debug _ := ""

/-- Every URI parses. -/
def plainLoopEnv : LoopEnv Bool := ⟨.plain, plainSignerEnv, fun _ => .ok ()⟩

/-- The responses to what was read. -/
def LoopEnv.replies (env : LoopEnv Value) (received : List (ℤ × SignerRequest)) : List SignerResponse :=
  received.filterMap fun (now, req) => env.signer.reply now req

theorem LoopEnv.replies_concat (env : LoopEnv Value) (received : List (ℤ × SignerRequest)) (now : ℤ)
    (req : SignerRequest) :
    env.replies (received ++ [(now, req)]) = env.replies received ++ (env.signer.reply now req).toList := by
  cases hreply : env.signer.reply now req with
  | none => simp [replies, hreply]
  | some response => simp [replies, hreply]

/-- The response that waits for room in the channel. -/
def Phase.pending : Phase → List SignerResponse
  | .running _ (.answering response) => [response]
  | _ => []

theorem Phase.Early.pending {phase : Phase} (h : phase.Early) : phase.pending = [] := by
  cases phase with
  | running node scheduler => cases h
  | _ => rfl

/-- The channel took in the responses in their order, and all of them as long as the connection is there. -/
structure Answers (env : LoopEnv Value) (l : SignerLoops Value) : Prop where
  inOrder : l.outbound.sent <+: env.replies l.received
  complete : l.outbound.closed = false → l.outbound.sent ++ l.phase.pending = env.replies l.received

theorem Answers.withPhase (h : Answers env l) {phase : Phase} {state : State Value}
    (hpending : phase.pending = l.phase.pending) : Answers env { l with phase := phase, state := state } where
  inOrder := h.inOrder
  complete hopen := by
    rw [← h.complete hopen, ← hpending]

theorem answers_step (h : Answers env l) (hstep : l.step env e = some l') : Answers env l' := by
  cases step_outcome hstep with
  -- the channel is closed, so nothing is left to show of what waited
  | returns | panics => exact ⟨h.inOrder, nofun⟩
  | upgrades hphase _ hthen => exact h.withPhase (by rw [hphase.pending, hthen.pending])
  | starts hphase | breaks hphase => exact h.withPhase (by rw [hphase]; rfl)
  | @node _ node node' scheduler _ hphase =>
    refine h.withPhase ?_
    rw [hphase]
    cases scheduler <;> rfl
  | opens => exact ⟨List.nil_prefix, fun _ => rfl⟩
  | staysClosed => exact h
  | passes hphase hreply =>
    have hmore := env.replies_concat l.received
    refine ⟨?_, fun hopen => ?_⟩
    · rw [hmore, hreply]
      exact h.inOrder.trans (List.prefix_append _ _)
    · rw [hmore, hreply, ← h.complete hopen, hphase]
      simp [Phase.pending]
  | refuses hphase hreply =>
    have hsame := env.replies_concat l.received
    refine ⟨?_, fun hopen => ?_⟩
    · rw [hsame, hreply]
      exact h.inOrder.trans (List.prefix_append _ _)
    · rw [hsame, hreply, ← h.complete hopen]
      exact (List.append_nil _).symm
  | answers hphase hsend =>
    have hcomplete := h.complete (Mpsc.not_closed_of_send hsend)
    obtain rfl := Mpsc.send_eq_accepted hsend
    rw [hphase] at hcomplete
    exact ⟨hcomplete ▸ List.prefix_rfl, fun _ => (List.append_nil _).trans hcomplete⟩
  | drops hphase hsend =>
    exact ⟨h.inOrder, fun hopen => absurd (Mpsc.closed_of_send hsend) (Bool.eq_false_iff.1 hopen)⟩
  | consumes hphase hrecv =>
    obtain rfl := Mpsc.recv_eq_some hrecv
    exact ⟨h.inOrder, h.complete⟩
  | hangsUp => exact ⟨h.inOrder, nofun⟩

/-- **What the scheduler is answered** on a stream: the responses to the approvals that pass, each once and in their
order, and all of them but the one that waits while the connection is there. -/
theorem answers_of_run (hr : Run (step env) (start state) es l) : Answers env l :=
  hr.invariant answers_step ⟨List.nil_prefix, fun _ => rfl⟩

/-- An approval that passes, and one with another signature. -/
def approvalRun : List LoopEvent :=
  let approval := Signer.plainApproval "ab" "phone" "pubkey=ab"
  [.endpoint (.ok ()), .upgrade .upgraded, .opened (.ok ()), .message 0 (.ok (some ⟨7, some approval⟩)), .answered,
    .message 1 (.ok (some ⟨8, some { approval with sig := [] }⟩))]

theorem answers_of_run_approval : ∃ l, Run (step plainLoopEnv) (start .new) approvalRun l ∧
    l.outbound.sent = [⟨7, "ab", [2], "K:=0-gl0&pubkey=ab"⟩] ∧ Answers plainLoopEnv l := by
  have hsome : ((approvalRun.foldlM (step plainLoopEnv) (start .new)).map (·.outbound.sent)) =
      some [⟨7, "ab", [2], "K:=0-gl0&pubkey=ab"⟩] := by decide +kernel
  obtain ⟨l, hr, hsent⟩ := Option.map_eq_some_iff.1 hsome
  exact ⟨l, hr, hsent, answers_of_run hr⟩

end SignerLoops

end Greenlight
