import Greenlight.Plugin.Durability
import Greenlight.Plugin.Hsm
import Greenlight.Plugin.SignerNet
import Greenlight.Signer.Session

/-!
# From lightningd to the signers and back

The whole way of a request in one life of the node: the proxy gives it an id, `Hsm::request` answers it or stages it,
the tasks of `stream_hsm_requests` fill in the state and the pending requests and send it to their signers, a session
of a signer answers its messages one after the other, and the calls of `respond_hsm_request` bring the answers to the
stage.  Every piece between two points where a task can wait is one event, and a run is an interleaving; connections
break, calls are cancelled and signers start anew at any time.  `step_outcome` lists what a step can do.
-/

namespace Greenlight.Plugin

open Greenlight.Lib Greenlight.Persist

/-- How a request of the proxy stands. -/
inductive HsmPhase where
  /-- It has its id and is on its way. -/
  | forwarded
  | answered (x : HsmResponse)
  /-- The call waits for the response in this channel. -/
  | waiting (channel : ℕ)
  | panicked
  /-- The proxy is gone. -/
  | cancelled

structure HsmCall where
  request : HsmRequest
  phase : HsmPhase

/-- Where the task of a call of `stream_hsm_requests` is. -/
inductive TaskPhase where
  | starting
  | polling
  /-- The stage has given it a request. -/
  | holding (req : HsmRequest)
  /-- It sends a message to the signer. -/
  | sending (m : HsmRequest) (heartbeat : Bool)
  | exited
  /-- It has ended without taking itself off `SIGNER_COUNT`. -/
  | panicked

/-- Where the loop of `run_once` is. -/
inductive SessionPhase where
  | ready
  /-- It waits for the end of a call of `respond_hsm_request`. -/
  | responding (id : CallId)
  | ended
  deriving DecidableEq

/-- A call of `stream_hsm_requests` and the session at its other end. -/
structure SignerLink where
  signer : SignerId
  task : TaskPhase
  /-- The channel to the signer. -/
  wire : Mpsc HsmRequest
  session : SessionPhase

/-- A message that a signer has answered, with the time and the state it had when it did. -/
structure Exchange (Value : Type) where
  signer : SignerId
  now : ℤ
  state : State Value
  message : HsmRequest
  response : HsmResponse

/-- The node and its signers; the link number `i` belongs to the stream number `i` of the stage. -/
structure Pipeline (Value : Type) where
  hsm : List HsmCall
  /-- The calls of `Hsm::request` that called `Stage::send`, in order. -/
  staged : List ℕ
  stage : Stager.World
  plugin : PluginNodeServer Value
  links : List SignerLink
  signers : SignerId → State Value
  /-- `SIGNER_COUNT`. -/
  signerCount : ℕ
  /-- What the stage has gone through and what the signers have answered; no step reads these. -/
  seen : List Stager.StageEvent
  log : List (Exchange Value)

structure PipelineEnv (Value : Type) extends SignerEnv Value where
  server : StagingHsmServer
  signer : SignerId → Signer
  /-- `GetHeartbeat`, as bytes. -/
  heartbeat : Bytes

inductive PipelineEvent where
  /-- A thread of the proxy takes the next id. -/
  | forward (context : Option HsmRequestContext) (raw : Bytes)
  /-- `Hsm::request` for the request number `k`. -/
  | request (k : ℕ)
  | receive (k : ℕ)
  | cancel (k : ℕ)
  /-- `stream_hsm_requests`; `order` as in `mystream`. -/
  | attach (i : SignerId) (order : List UInt32)
  /-- `stream_hsm_requests` is cancelled where it waits for the stage. -/
  | abandon
  | take (l : ℕ)
  /-- The state and the pending requests are filled in; `configured` is what the cached request of `configure` parses
  as. -/
  | fill (l : ℕ) (pending : List PendingRequest) (configured : Option (Except String PendingRequest))
  | push (l : ℕ)
  /-- The signer processes the next message, and the call `id` begins or the response is lost. -/
  | serve (l : ℕ) (now : ℤ) (call : Option CallId)
  | acknowledge (l : ℕ)
  | hangup (l : ℕ)
  /-- A signer starts with an empty state. -/
  | boot (i : SignerId)
  /-- A later piece of a call of `respond_hsm_request`. -/
  | plugin (e : Event)

namespace Pipeline

variable {Value : Type}

/-- The node when it has started with this state, and signers with these. -/
def start (capacity : ℕ) (state : State Value) (signers : SignerId → State Value) : Pipeline Value where
  hsm := []
  staged := []
  stage := .new capacity
  plugin := .idle state
  links := []
  signers := signers
  signerCount := 0
  seen := []
  log := []

def setHsm (p : Pipeline Value) (k : ℕ) (call : HsmCall) : Pipeline Value := { p with hsm := p.hsm.set k call }

def setLink (p : Pipeline Value) (l : ℕ) (link : SignerLink) : Pipeline Value :=
  { p with links := p.links.set l link }

def withStage (p : Pipeline Value) (e : Stager.StageEvent) (stage : Stager.World) : Pipeline Value :=
  { p with stage := stage, seen := p.seen ++ [e] }

/-- The end of the task: `SIGNER_COUNT` goes down. -/
def exit (p : Pipeline Value) (l : ℕ) (link : SignerLink) : Pipeline Value :=
  { p.setLink l { link with task := .exited } with signerCount := p.signerCount - 1 }

/-- No session of the signer runs. -/
def Detached (p : Pipeline Value) (i : SignerId) : Prop :=
  ∀ link ∈ p.links, link.signer = i → link.session = .ended

instance (p : Pipeline Value) (i : SignerId) : Decidable (p.Detached i) := by unfold Detached; infer_instance

/-- The message with which a task starts. -/
def heartbeatMessage (env : PipelineEnv Value) (p : Pipeline Value) : HsmRequest :=
  ⟨0, none, env.heartbeat, p.plugin.signerState.toEntries env.json, []⟩

/-- The pending requests and that of `configure`; an error is the panic of its `unwrap`. -/
def withConfigured (pending : List PendingRequest) :
    Option (Except String PendingRequest) → Except String (List PendingRequest)
  | none => .ok pending
  | some configured => configured.map fun configureRequest => pending ++ [configureRequest]

/-- What a signer gets of a request. -/
def filled (env : PipelineEnv Value) (p : Pipeline Value) (req : HsmRequest) (pending : List PendingRequest) :
    HsmRequest :=
  { req with signerState := p.plugin.signerState.toEntries env.json, requests := pending }

def step (env : PipelineEnv Value) (p : Pipeline Value) : PipelineEvent → Option (Pipeline Value)
  | .forward context raw =>
    -- the counter starts at 1000 and is cut to 32 bits
    some { p with hsm := p.hsm ++ [⟨⟨UInt32.ofNat (1000 + p.hsm.length), context, raw, [], []⟩, .forwarded⟩] }
  | .request k =>
    match p.hsm[k]? with
    | some ⟨req, .forwarded⟩ =>
      match env.server.request req with
      | .answered x => some (p.setHsm k ⟨req, .answered x⟩)
      | .panic => some (p.setHsm k ⟨req, .panicked⟩)
      | .staged => some { (p.setHsm k ⟨req, .waiting p.stage.made⟩).withStage (.send req) (p.stage.send req) with
          staged := p.staged ++ [k] }
    | _ => none
  | .receive k =>
    match p.hsm[k]? with
    | some ⟨req, .waiting c⟩ =>
      match (p.stage.channels c).recv with
      | some (x, channel) => some ((p.setHsm k ⟨req, .answered x⟩).withStage (.recv c)
          { p.stage with channels := Function.update p.stage.channels c channel })
      | none => none
    | _ => none
  | .cancel k =>
    match p.hsm[k]? with
    | some ⟨req, .waiting c⟩ => some ((p.setHsm k ⟨req, .cancelled⟩).withStage (.close c)
        { p.stage with channels := Function.update p.stage.channels c (p.stage.channels c).close })
    | _ => none
  | .attach i order =>
    if p.Detached i ∧ order.Perm p.stage.stage.requests.keys then
      some { p.withStage (.mystream order) (p.stage.mystream order) with
        links := p.links ++ [⟨i, .starting, .new 10, .ready⟩]
        signerCount := p.signerCount + 1 }
    else none
  | .abandon => some { p with signerCount := p.signerCount + 1 }
  | .take l =>
    match p.links[l]?, p.stage.streams[l]? with
    | some ⟨i, .polling, wire, session⟩, some a =>
      match a.stream.next p.stage.stage.notify with
      | .ready result stream =>
        let p := p.withStage (.next l)
          { p.stage with streams := p.stage.streams.set l ⟨stream, a.results ++ [result]⟩ }
        match result with
        | .ok q => some (p.setLink l ⟨i, .holding q.request, wire, session⟩)
        | .error _ => some (p.exit l ⟨i, .polling, wire, session⟩)
      | .waits => none
    | _, _ => none
  | .fill l pending configured =>
    if p.plugin.stateLock = none then
      match p.links[l]? with
      | some ⟨i, .starting, wire, session⟩ =>
        some (p.setLink l ⟨i, .sending (p.heartbeatMessage env) true, wire, session⟩)
      | some ⟨i, .holding req, wire, session⟩ =>
        match withConfigured pending configured with
        | .ok requests => some (p.setLink l ⟨i, .sending (p.filled env req requests) false, wire, session⟩)
        | .error _ => some (p.setLink l ⟨i, .panicked, wire, session⟩)
      | _ => none
    else none
  | .push l =>
    match p.links[l]? with
    | some ⟨i, .sending m heartbeat, wire, session⟩ =>
      match wire.send m with
      | .accepted wire => some (p.setLink l ⟨i, .polling, wire, session⟩)
      | .refused =>
        if heartbeat then some (p.setLink l ⟨i, .polling, wire, session⟩)
        else some (p.exit l ⟨i, .polling, wire, session⟩)
      | .waits => none
    | _ => none
  | .serve l now call =>
    match p.links[l]? with
    | some ⟨i, task, wire, .ready⟩ =>
      match wire.recv with
      | some (m, wire) =>
        match (env.signer i).serve env.toSignerEnv now (p.signers i) m with
        | (state, none) => some { p.setLink l ⟨i, task, wire.close, .ended⟩ with
            signers := Function.update p.signers i state }
        | (state, some response) =>
          let p' : Pipeline Value := { p with
            signers := Function.update p.signers i state
            log := p.log ++ [⟨i, now, p.signers i, m, response⟩] }
          match call with
          | none => some (p'.setLink l ⟨i, task, wire.close, .ended⟩)
          | some id => (p.plugin.step env.json (.call id response)).map fun plugin =>
              { p'.setLink l ⟨i, task, wire, .responding id⟩ with plugin := plugin }
      | none => none
    | _ => none
  | .acknowledge l =>
    match p.links[l]? with
    | some ⟨i, task, wire, .responding id⟩ =>
      match p.plugin.calls id with
      | some ⟨_, .finished _⟩ => some (p.setLink l ⟨i, task, wire, .ready⟩)
      | _ => none
    | _ => none
  | .hangup l => p.links[l]?.map fun link => p.setLink l { link with wire := link.wire.close, session := .ended }
  | .boot i => if p.Detached i then some { p with signers := Function.update p.signers i .new } else none
  | .plugin (.call _ _) => none
  | .plugin (.respond id) => do
    let c ← p.plugin.calls id
    let plugin ← p.plugin.step env.json (.respond id)
    let stage ← Stager.step p.stage (.respond c.response)
    return { p.withStage (.respond c.response) stage with plugin := plugin }
  | .plugin e => (p.plugin.step env.json e).map fun plugin => { p with plugin := plugin }

/-! ### What a step can do -/

/-- What a step does, one constructor for each outcome. -/
inductive Outcome (env : PipelineEnv Value) (p : Pipeline Value) : PipelineEvent → Pipeline Value → Prop
  | forwarded (context : Option HsmRequestContext) (raw : Bytes) : Outcome env p (.forward context raw)
      { p with hsm := p.hsm ++ [⟨⟨UInt32.ofNat (1000 + p.hsm.length), context, raw, [], []⟩, .forwarded⟩] }
  | canned {k : ℕ} {req : HsmRequest} {x : HsmResponse} (hcall : p.hsm[k]? = some ⟨req, .forwarded⟩)
      (hserver : env.server.request req = .answered x) :
      Outcome env p (.request k) (p.setHsm k ⟨req, .answered x⟩)
  | panicked {k : ℕ} {req : HsmRequest} (hcall : p.hsm[k]? = some ⟨req, .forwarded⟩) :
      Outcome env p (.request k) (p.setHsm k ⟨req, .panicked⟩)
  | staged {k : ℕ} {req : HsmRequest} (hcall : p.hsm[k]? = some ⟨req, .forwarded⟩)
      (hserver : env.server.request req = .staged) : Outcome env p (.request k)
      { (p.setHsm k ⟨req, .waiting p.stage.made⟩).withStage (.send req) (p.stage.send req) with
        staged := p.staged ++ [k] }
  | received {k c : ℕ} {req : HsmRequest} {x : HsmResponse} {stage : Stager.World}
      (hcall : p.hsm[k]? = some ⟨req, .waiting c⟩) (hx : x ∈ (p.stage.channels c).sent)
      (hstage : Stager.step p.stage (.recv c) = some stage) :
      Outcome env p (.receive k) ((p.setHsm k ⟨req, .answered x⟩).withStage (.recv c) stage)
  | cancelled {k c : ℕ} {req : HsmRequest} {stage : Stager.World}
      (hcall : p.hsm[k]? = some ⟨req, .waiting c⟩) (hstage : Stager.step p.stage (.close c) = some stage) :
      Outcome env p (.cancel k) ((p.setHsm k ⟨req, .cancelled⟩).withStage (.close c) stage)
  | attached {i : SignerId} {order : List UInt32} {stage : Stager.World} (hdetached : p.Detached i)
      (hstage : Stager.step p.stage (.mystream order) = some stage) : Outcome env p (.attach i order)
      { p.withStage (.mystream order) stage with
        links := p.links ++ [⟨i, .starting, .new 10, .ready⟩]
        signerCount := p.signerCount + 1 }
  | abandoned : Outcome env p .abandon { p with signerCount := p.signerCount + 1 }
  | took {l : ℕ} {i : SignerId} {wire : Mpsc HsmRequest} {session : SessionPhase} {a : Stager.Attached}
      {q : Stager.Request} {stream : Stager.StageStream} {stage : Stager.World}
      (hlink : p.links[l]? = some ⟨i, .polling, wire, session⟩) (ha : p.stage.streams[l]? = some a)
      (hnext : a.stream.next p.stage.stage.notify = .ready (.ok q) stream)
      (hstage : Stager.step p.stage (.next l) = some stage) :
      Outcome env p (.take l) ((p.withStage (.next l) stage).setLink l ⟨i, .holding q.request, wire, session⟩)
  | lagged {l : ℕ} {i : SignerId} {wire : Mpsc HsmRequest} {session : SessionPhase} {stage : Stager.World}
      (hlink : p.links[l]? = some ⟨i, .polling, wire, session⟩)
      (hstage : Stager.step p.stage (.next l) = some stage) :
      Outcome env p (.take l) ((p.withStage (.next l) stage).exit l ⟨i, .polling, wire, session⟩)
  | greets {l : ℕ} {pending : List PendingRequest} {configured : Option (Except String PendingRequest)} {i : SignerId}
      {wire : Mpsc HsmRequest} {session : SessionPhase} (hlock : p.plugin.stateLock = none)
      (hlink : p.links[l]? = some ⟨i, .starting, wire, session⟩) : Outcome env p (.fill l pending configured)
      (p.setLink l ⟨i, .sending (p.heartbeatMessage env) true, wire, session⟩)
  | fills {l : ℕ} {pending requests : List PendingRequest} {configured : Option (Except String PendingRequest)}
      {i : SignerId} {req : HsmRequest} {wire : Mpsc HsmRequest} {session : SessionPhase}
      (hlock : p.plugin.stateLock = none) (hlink : p.links[l]? = some ⟨i, .holding req, wire, session⟩)
      (hrequests : withConfigured pending configured = .ok requests) : Outcome env p (.fill l pending configured)
      (p.setLink l ⟨i, .sending (p.filled env req requests) false, wire, session⟩)
  | chokes {l : ℕ} {pending : List PendingRequest} {configured : Option (Except String PendingRequest)} {i : SignerId}
      {req : HsmRequest} {wire : Mpsc HsmRequest} {session : SessionPhase}
      (hlink : p.links[l]? = some ⟨i, .holding req, wire, session⟩) : Outcome env p (.fill l pending configured)
      (p.setLink l ⟨i, .panicked, wire, session⟩)
  | pushed {l : ℕ} {i : SignerId} {m : HsmRequest} {heartbeat : Bool} {wire wire' : Mpsc HsmRequest}
      {session : SessionPhase} (hlink : p.links[l]? = some ⟨i, .sending m heartbeat, wire, session⟩)
      (hsend : wire.send m = .accepted wire') :
      Outcome env p (.push l) (p.setLink l ⟨i, .polling, wire', session⟩)
  | greetsNobody {l : ℕ} {i : SignerId} {m : HsmRequest} {wire : Mpsc HsmRequest} {session : SessionPhase}
      (hlink : p.links[l]? = some ⟨i, .sending m true, wire, session⟩) (hsend : wire.send m = .refused) :
      Outcome env p (.push l) (p.setLink l ⟨i, .polling, wire, session⟩)
  | noticed {l : ℕ} {i : SignerId} {m : HsmRequest} {wire : Mpsc HsmRequest} {session : SessionPhase}
      (hlink : p.links[l]? = some ⟨i, .sending m false, wire, session⟩) (hsend : wire.send m = .refused) :
      Outcome env p (.push l) (p.exit l ⟨i, .polling, wire, session⟩)
  | died {l : ℕ} {now : ℤ} {call : Option CallId} {i : SignerId} {task : TaskPhase} {wire wire' : Mpsc HsmRequest}
      {m : HsmRequest} {state : State Value} (hlink : p.links[l]? = some ⟨i, task, wire, .ready⟩)
      (hrecv : wire.recv = some (m, wire'))
      (hserve : (env.signer i).serve env.toSignerEnv now (p.signers i) m = (state, none)) :
      Outcome env p (.serve l now call) { p.setLink l ⟨i, task, wire'.close, .ended⟩ with
        signers := Function.update p.signers i state }
  | lost {l : ℕ} {now : ℤ} {i : SignerId} {task : TaskPhase} {wire wire' : Mpsc HsmRequest} {m : HsmRequest}
      {state : State Value} {response : HsmResponse} (hlink : p.links[l]? = some ⟨i, task, wire, .ready⟩)
      (hrecv : wire.recv = some (m, wire'))
      (hserve : (env.signer i).serve env.toSignerEnv now (p.signers i) m = (state, some response)) :
      Outcome env p (.serve l now none) { p.setLink l ⟨i, task, wire'.close, .ended⟩ with
        signers := Function.update p.signers i state
        log := p.log ++ [⟨i, now, p.signers i, m, response⟩] }
  | served {l : ℕ} {now : ℤ} {id : CallId} {i : SignerId} {task : TaskPhase} {wire wire' : Mpsc HsmRequest}
      {m : HsmRequest} {state : State Value} {response : HsmResponse} {plugin : PluginNodeServer Value}
      (hlink : p.links[l]? = some ⟨i, task, wire, .ready⟩) (hrecv : wire.recv = some (m, wire'))
      (hserve : (env.signer i).serve env.toSignerEnv now (p.signers i) m = (state, some response))
      (hplugin : p.plugin.step env.json (.call id response) = some plugin) :
      Outcome env p (.serve l now (some id)) { p.setLink l ⟨i, task, wire', .responding id⟩ with
        signers := Function.update p.signers i state
        log := p.log ++ [⟨i, now, p.signers i, m, response⟩]
        plugin := plugin }
  | acknowledged {l : ℕ} {i : SignerId} {task : TaskPhase} {wire : Mpsc HsmRequest} {id : CallId}
      (hlink : p.links[l]? = some ⟨i, task, wire, .responding id⟩) :
      Outcome env p (.acknowledge l) (p.setLink l ⟨i, task, wire, .ready⟩)
  | hungUp {l : ℕ} {link : SignerLink} (hlink : p.links[l]? = some link) :
      Outcome env p (.hangup l) (p.setLink l { link with wire := link.wire.close, session := .ended })
  | booted {i : SignerId} (hdetached : p.Detached i) :
      Outcome env p (.boot i) { p with signers := Function.update p.signers i .new }
  | responded {id : CallId} {c : Call Value} {plugin : PluginNodeServer Value} {stage : Stager.World}
      (hcall : p.plugin.calls id = some c) (hplugin : p.plugin.step env.json (.respond id) = some plugin)
      (hstage : Stager.step p.stage (.respond c.response) = some stage) :
      Outcome env p (.plugin (.respond id)) { p.withStage (.respond c.response) stage with plugin := plugin }
  | plugin {e : Event} {plugin : PluginNodeServer Value} (hcall : ∀ id response, e ≠ .call id response)
      (hrespond : ∀ id, e ≠ .respond id) (hplugin : p.plugin.step env.json e = some plugin) :
      Outcome env p (.plugin e) { p with plugin := plugin }

variable {env : PipelineEnv Value} {p p' : Pipeline Value} {e : PipelineEvent}

theorem request_outcome {k : ℕ} (h : p.step env (.request k) = some p') : Outcome env p (.request k) p' := by
  simp only [step] at h
  split at h
  · rename_i req hcall
    split at h
    · rename_i x hserver
      exact Option.some.inj h ▸ .canned hcall hserver
    · exact Option.some.inj h ▸ .panicked hcall
    · rename_i hserver
      exact Option.some.inj h ▸ .staged hcall hserver
  · cases h

theorem receive_outcome {k : ℕ} (h : p.step env (.receive k) = some p') : Outcome env p (.receive k) p' := by
  simp only [step] at h
  split at h
  · rename_i req c hcall
    split at h
    · rename_i x channel hrecv
      refine Option.some.inj h ▸ .received hcall (Mpsc.mem_of_recv hrecv) ?_
      simp only [Stager.step, hrecv, Option.map_some]
    · cases h
  · cases h

theorem take_outcome {l : ℕ} (h : p.step env (.take l) = some p') : Outcome env p (.take l) p' := by
  simp only [step] at h
  split at h
  · rename_i i wire session a hlink ha
    split at h
    · rename_i result stream hnext
      have hstage : Stager.step p.stage (.next l) =
          some { p.stage with streams := p.stage.streams.set l ⟨stream, a.results ++ [result]⟩ } := by
        simp only [Stager.step, Stager.World.next, ha, Option.bind_eq_bind, Option.bind_some, hnext]
      cases result with
      | ok q => exact Option.some.inj h ▸ .took hlink ha hnext hstage
      | error e => exact Option.some.inj h ▸ .lagged hlink hstage
    · cases h
  · cases h

theorem fill_outcome {l : ℕ} {pending : List PendingRequest} {configured : Option (Except String PendingRequest)}
    (h : p.step env (.fill l pending configured) = some p') : Outcome env p (.fill l pending configured) p' := by
  simp only [step] at h
  split_ifs at h with hlock
  split at h
  · rename_i hlink
    exact Option.some.inj h ▸ .greets hlock hlink
  · rename_i hlink
    split at h
    · rename_i requests hrequests
      exact Option.some.inj h ▸ .fills hlock hlink hrequests
    · exact Option.some.inj h ▸ .chokes hlink
  · cases h

theorem push_outcome {l : ℕ} (h : p.step env (.push l) = some p') : Outcome env p (.push l) p' := by
  simp only [step] at h
  split at h
  · rename_i i m heartbeat wire session hlink
    split at h
    · rename_i hsend
      exact Option.some.inj h ▸ .pushed hlink hsend
    · rename_i hsend
      cases heartbeat with
      | true => exact Option.some.inj h ▸ .greetsNobody hlink hsend
      | false => exact Option.some.inj h ▸ .noticed hlink hsend
    · cases h
  · cases h

theorem serve_outcome {l : ℕ} {now : ℤ} {call : Option CallId} (h : p.step env (.serve l now call) = some p') :
    Outcome env p (.serve l now call) p' := by
  simp only [step] at h
  split at h
  · rename_i i task wire hlink
    split at h
    · rename_i m wire' hrecv
      split at h
      · rename_i state hserve
        exact Option.some.inj h ▸ .died hlink hrecv hserve
      · rename_i state response hserve
        cases call with
        | none => exact Option.some.inj h ▸ .lost hlink hrecv hserve
        | some id =>
          obtain ⟨plugin, hplugin, rfl⟩ := Option.map_eq_some_iff.1 h
          exact .served hlink hrecv hserve hplugin
    · cases h
  · cases h

theorem step_outcome (h : p.step env e = some p') : Outcome env p e p' := by
  -- no event is a `call` of the plugin: those come with the responses of signers
  cases e with
  | forward context raw => exact Option.some.inj h ▸ .forwarded context raw
  | request k => exact request_outcome h
  | receive k => exact receive_outcome h
  | cancel k =>
    simp only [step] at h
    split at h
    · rename_i req c hcall
      exact Option.some.inj h ▸ .cancelled hcall rfl
    · cases h
  | attach i order =>
    simp only [step] at h
    split_ifs at h with hguard
    refine Option.some.inj h ▸ .attached hguard.1 ?_
    simp only [Stager.step, if_pos hguard.2]
  | abandon => exact Option.some.inj h ▸ .abandoned
  | take l => exact take_outcome h
  | fill l pending configured => exact fill_outcome h
  | push l => exact push_outcome h
  | serve l now call => exact serve_outcome h
  | acknowledge l =>
    simp only [step] at h
    split at h
    · rename_i hlink
      split at h
      · exact Option.some.inj h ▸ .acknowledged hlink
      · cases h
    · cases h
  | hangup l =>
    obtain ⟨link, hlink, rfl⟩ := Option.map_eq_some_iff.1 h
    exact .hungUp hlink
  | boot i =>
    simp only [step] at h
    split_ifs at h with hdetached
    exact Option.some.inj h ▸ .booted hdetached
  | plugin e =>
    cases e with
    | call id response => cases h
    | respond id =>
      obtain ⟨c, hcall, h⟩ := Option.bind_eq_some_iff.1 h
      obtain ⟨plugin, hplugin, h⟩ := Option.bind_eq_some_iff.1 h
      obtain ⟨stage, hstage, h⟩ := Option.bind_eq_some_iff.1 h
      exact Option.some.inj h ▸ .responded hcall hplugin hstage
    | _ =>
      obtain ⟨plugin, hplugin, rfl⟩ := Option.map_eq_some_iff.1 h
      exact .plugin (fun _ _ h => by cases h) (fun _ h => by cases h) hplugin

end Pipeline

end Greenlight.Plugin
