import Greenlight.Lib.Channel
import Greenlight.Lib.Transition
import Greenlight.Plugin.Respond
import Greenlight.Signer.Process

/-!
# The stage

`stager.rs`: the requests of the node wait in a table until a signer responds.  A signer that attaches gets the
requests in the table as they are then, and every later one through a broadcast channel.  `send`, `mystream` and
`respond` hold the lock of the table from beginning to end, and `next` and the receivers of responses touch neither
the table nor what is sent, so each of them is one event and a run is an interleaving.  `table_iff` says what the
table holds in terms of the history alone.
-/

namespace Greenlight.Stager

open Greenlight.Lib Greenlight.Plugin

/-- A request and the channel its response goes to.  The time it was staged at is only logged. -/
structure Request where
  request : HsmRequest
  response : ℕ

/-- The table, by the id of the request, and the channel to the streams. -/
structure Stage where
  requests : Std.ExtTreeMap UInt32 Request
  notify : Broadcast Request

structure StageStream where
  backlog : List Request
  /-- The place of the receiver. -/
  bcast : ℕ

inductive StageError where
  /-- `error waiting for more requests: Lagged(missed)`. -/
  | lagged (missed : ℕ)
  /-- `Error sending request to requester`: the response that was not sent. -/
  | sending (response : HsmResponse)

/-! ### The streams -/

namespace StageStream

inductive Next where
  | ready (result : Except StageError Request) (self : StageStream)
  | waits

def next (self : StageStream) (notify : Broadcast Request) : Next :=
  match self.backlog with
  | req :: backlog => .ready (.ok req) { self with backlog := backlog }
  | [] =>
    match notify.recv self.bcast with
    | .value r bcast => .ready (.ok r) { self with bcast := bcast }
    | .lagged missed bcast => .ready (.error (.lagged missed)) { self with bcast := bcast }
    | .waits => .waits

end StageStream

/-- A stream and what its calls of `next` returned so far. -/
structure Attached where
  stream : StageStream
  results : List (Except StageError Request)

/-- What the stream has yielded before its first error. -/
def Attached.yielded (a : Attached) : List HsmRequest :=
  ((a.results.map Except.toOption).takeWhile Option.isSome).filterMap fun r => r.map (·.request)

/-! ### The system -/

/-- The stage with the channels made by `send`, numbered in the order of the calls, and the streams made by
`mystream`. -/
structure World where
  stage : Stage
  channels : ℕ → Mpsc HsmResponse
  /-- The number of the next channel. -/
  made : ℕ
  streams : List Attached

namespace World

/-- `Stage::new`.  A `broadcast::channel(1000)` keeps at least so many values. -/
def new (capacity : ℕ) : World where
  stage := ⟨∅, .new capacity⟩
  channels _ := .new 1
  made := 0
  streams := []

/-- `Stage::send`, which returns the receiver of the new channel.  Without streams the notification fails, which is
only logged. -/
def send (w : World) (request : HsmRequest) : World :=
  let r : Request := ⟨request, w.made⟩
  { w with
    stage := ⟨w.stage.requests.insert request.requestId r, w.stage.notify.send r⟩
    made := w.made + 1 }

/-- `Stage::mystream`; `order` is the order in which the ids come out of the table. -/
def mystream (w : World) (order : List UInt32) : World :=
  let backlog := order.filterMap fun id => w.stage.requests[id]?
  { w with streams := w.streams ++ [⟨⟨backlog, w.stage.notify.subscribe⟩, []⟩] }

inductive Responded where
  | returned (result : Except StageError Unit) (self : World)
  /-- There is no room in the channel, and the call waits for it with the lock in its hand. -/
  | waits

def respond (w : World) (response : HsmResponse) : Responded :=
  match w.stage.requests[response.requestId]? with
  | some req =>
    let w := { w with stage := ⟨w.stage.requests.erase response.requestId, w.stage.notify⟩ }
    match (w.channels req.response).send response with
    | .accepted channel =>
      .returned (.ok ()) { w with channels := Function.update w.channels req.response channel }
    | .refused => .returned (.error (.sending response)) w
    | .waits => .waits
  | none => .returned (.ok ()) w

/-- A call of `next` on a stream. -/
def next (w : World) (i : ℕ) : Option World := do
  let a ← w.streams[i]?
  match a.stream.next w.stage.notify with
  | .ready result stream => some { w with streams := w.streams.set i ⟨stream, a.results ++ [result]⟩ }
  | .waits => none

end World

inductive StageEvent where
  | send (request : HsmRequest)
  | mystream (order : List UInt32)
  | next (stream : ℕ)
  | respond (response : HsmResponse)
  /-- A requester takes a response out of its channel. -/
  | recv (channel : ℕ)
  /-- A requester drops its receiver. -/
  | close (channel : ℕ)

/-- One event; a call that has to wait is no step. -/
def step (w : World) : StageEvent → Option World
  | .send request => some (w.send request)
  | .mystream order => if order.Perm w.stage.requests.keys then some (w.mystream order) else none
  | .next i => w.next i
  | .respond response =>
    match w.respond response with
    | .returned _ w' => some w'
    | .waits => none
  | .recv c => (w.channels c).recv.map fun p => { w with channels := Function.update w.channels c p.2 }
  | .close c => some { w with channels := Function.update w.channels c (w.channels c).close }

/-! ### The history -/

/-- The request of a call of `send`. -/
def StageEvent.sent? : StageEvent → Option HsmRequest
  | .send request => some request
  | _ => none

def sentRequests (es : List StageEvent) : List HsmRequest := es.filterMap StageEvent.sent?

/-- The ids of the requests are pairwise distinct. -/
def DistinctIds (es : List StageEvent) : Prop := ((sentRequests es).map (·.requestId)).Nodup

/-- The request of the call number `c` of `send` was sent, and no response with its id was given since. -/
def OutstandingAt (es : List StageEvent) (c : ℕ) (r : HsmRequest) : Prop :=
  ∃ pre post, es = pre ++ .send r :: post ∧ (sentRequests pre).length = c ∧
    ∀ x, .respond x ∈ post → x.requestId ≠ r.requestId

/-- The request was sent and not responded to. -/
def Outstanding (es : List StageEvent) (r : HsmRequest) : Prop := ∃ c, OutstandingAt es c r

section

variable {es : List StageEvent} {e : StageEvent} {c : ℕ} {r : HsmRequest}

theorem sentRequests_append (es fs : List StageEvent) :
    sentRequests (es ++ fs) = sentRequests es ++ sentRequests fs := List.filterMap_append

theorem sentRequests_concat (es : List StageEvent) (e : StageEvent) :
    sentRequests (es ++ [e]) = sentRequests es ++ e.sent?.toList := by
  rw [sentRequests_append]
  cases e <;> rfl

theorem DistinctIds.of_append {fs : List StageEvent} (h : DistinctIds (es ++ fs)) : DistinctIds es := by
  unfold DistinctIds at h ⊢
  rw [sentRequests_append, List.map_append] at h
  exact (List.nodup_append.1 h).1

theorem outstandingAt_concat : OutstandingAt (es ++ [e]) c r ↔
    (e = .send r ∧ c = (sentRequests es).length) ∨
      (OutstandingAt es c r ∧ ∀ x, e = .respond x → x.requestId ≠ r.requestId) := by
  constructor
  · rintro ⟨pre, post, heq, hc, hpost⟩
    rcases List.eq_nil_or_concat post with rfl | ⟨post, e', rfl⟩
    · obtain ⟨rfl, he⟩ := List.append_inj' heq rfl
      exact Or.inl ⟨List.head_eq_of_cons_eq he, hc.symm⟩
    · rw [← List.concat_cons, List.concat_eq_append, ← List.append_assoc] at heq
      obtain ⟨rfl, he⟩ := List.append_inj' heq rfl
      obtain rfl := List.head_eq_of_cons_eq he
      refine Or.inr ⟨⟨pre, post, rfl, hc, fun x hx => hpost x ?_⟩, fun x hx => hpost x ?_⟩
      · simp [hx]
      · simp [hx]
  · rintro (⟨rfl, rfl⟩ | ⟨⟨pre, post, rfl, hc, hpost⟩, he⟩)
    · exact ⟨es, [], rfl, rfl, fun x hx => by cases hx⟩
    · refine ⟨pre, post ++ [e], by simp, hc, fun x hx => ?_⟩
      rcases List.mem_append.1 hx with hx | hx
      · exact hpost x hx
      · exact he x (List.mem_singleton.1 hx).symm

theorem OutstandingAt.getElem? (h : OutstandingAt es c r) : (sentRequests es)[c]? = some r := by
  obtain ⟨pre, post, rfl, rfl, -⟩ := h
  simp [sentRequests, StageEvent.sent?]

theorem OutstandingAt.mem (h : OutstandingAt es c r) : r ∈ sentRequests es := List.mem_of_getElem? h.getElem?

theorem DistinctIds.eq_of_requestId_eq (h : DistinctIds es) {c' : ℕ} {r' : HsmRequest}
    (hr : OutstandingAt es c r) (hr' : OutstandingAt es c' r') (hid : r.requestId = r'.requestId) :
    c = c' ∧ r = r' := by
  have hlt : c < ((sentRequests es).map (·.requestId)).length := by
    rw [List.length_map]
    exact (List.getElem?_eq_some_iff.1 hr.getElem?).1
  have hcc : c = c' := (List.getElem?_inj hlt h).1 (by simp [hr.getElem?, hr'.getElem?, hid])
  subst hcc
  exact ⟨rfl, Option.some.inj (hr.getElem?.symm.trans hr'.getElem?)⟩

end

/-! ### What a step can do -/

inductive Outcome (w : World) : StageEvent → World → Prop
  | sent (request : HsmRequest) : Outcome w (.send request) (w.send request)
  | attached (order : List UInt32) (hperm : order.Perm w.stage.requests.keys) :
      Outcome w (.mystream order) (w.mystream order)
  | ready (i : ℕ) (a : Attached) (result : Except StageError Request) (stream : StageStream)
      (ha : w.streams[i]? = some a) (hnext : a.stream.next w.stage.notify = .ready result stream) :
      Outcome w (.next i) { w with streams := w.streams.set i ⟨stream, a.results ++ [result]⟩ }
  | unknown (x : HsmResponse) (hnone : w.stage.requests[x.requestId]? = none) : Outcome w (.respond x) w
  | responded (x : HsmResponse) (req : Request) (hreq : w.stage.requests[x.requestId]? = some req)
      (channel : Mpsc HsmResponse) (hsend : (w.channels req.response).send x = .accepted channel) :
      Outcome w (.respond x)
        { w with
          stage := ⟨w.stage.requests.erase x.requestId, w.stage.notify⟩
          channels := Function.update w.channels req.response channel }
  | refused (x : HsmResponse) (req : Request) (hreq : w.stage.requests[x.requestId]? = some req)
      (hsend : (w.channels req.response).send x = .refused) :
      Outcome w (.respond x) { w with stage := ⟨w.stage.requests.erase x.requestId, w.stage.notify⟩ }
  | received (c : ℕ) (x : HsmResponse) (channel : Mpsc HsmResponse)
      (hrecv : (w.channels c).recv = some (x, channel)) :
      Outcome w (.recv c) { w with channels := Function.update w.channels c channel }
  | closed (c : ℕ) :
      Outcome w (.close c) { w with channels := Function.update w.channels c (w.channels c).close }

theorem step_outcome {w w' : World} {e : StageEvent} (h : step w e = some w') : Outcome w e w' := by
  cases e with
  | send request => exact Option.some.inj h ▸ .sent request
  | mystream order =>
    simp only [step] at h
    split_ifs at h with hperm
    exact Option.some.inj h ▸ .attached order hperm
  | next i =>
    obtain ⟨a, ha, h⟩ := Option.bind_eq_some_iff.1 h
    cases hnext : a.stream.next w.stage.notify with
    | ready result stream =>
      rw [hnext] at h
      exact Option.some.inj h ▸ .ready i a result stream ha hnext
    | waits =>
      rw [hnext] at h
      cases h
  | respond x =>
    cases hreq : w.stage.requests[x.requestId]? with
    | none =>
      simp only [step, World.respond, hreq] at h
      exact Option.some.inj h ▸ .unknown x hreq
    | some req =>
      cases hsend : (w.channels req.response).send x with
      | accepted channel =>
        simp only [step, World.respond, hreq, hsend] at h
        exact Option.some.inj h ▸ .responded x req hreq channel hsend
      | refused =>
        simp only [step, World.respond, hreq, hsend] at h
        exact Option.some.inj h ▸ .refused x req hreq hsend
      | waits =>
        simp only [step, World.respond, hreq, hsend] at h
        cases h
  | recv c =>
    obtain ⟨⟨x, channel⟩, hrecv, rfl⟩ := Option.map_eq_some_iff.1 h
    exact .received c x channel hrecv
  | close c => exact Option.some.inj h ▸ .closed c

/-! ### The table and the history -/

/-- **The invariant**: the channel to the streams got every request sent, every call of `send` made a channel, and
the table holds the outstanding requests. -/
structure Inv (es : List StageEvent) (w : World) : Prop where
  log : w.stage.notify.sent.map (·.request) = sentRequests es
  made : w.made = (sentRequests es).length
  table : ∀ (id : UInt32) (q : Request), w.stage.requests[id]? = some q ↔
    q.request.requestId = id ∧ OutstandingAt es q.response q.request

variable {capacity : ℕ} {es : List StageEvent} {e : StageEvent} {w w' : World}

theorem inv_new (capacity : ℕ) : Inv [] (World.new capacity) where
  log := rfl
  made := rfl
  table id q := by
    constructor
    · intro h
      simp [World.new] at h
    · rintro ⟨-, pre, post, h, -⟩
      simp at h

theorem Inv.of_eq (hinv : Inv es w) (hsend : e.sent? = none) (hrespond : ∀ x, e ≠ .respond x)
    (hstage : w'.stage = w.stage) (hmade : w'.made = w.made) : Inv (es ++ [e]) w' where
  log := by rw [hstage, hinv.log, sentRequests_concat, hsend, Option.toList_none, List.append_nil]
  made := by rw [hmade, hinv.made, sentRequests_concat, hsend, Option.toList_none, List.append_nil]
  table id q := by
    have he : ∀ r, e ≠ .send r := by
      rintro r rfl
      cases hsend
    rw [hstage, hinv.table, outstandingAt_concat]
    simp [he, hrespond]

theorem Inv.respond {x : HsmResponse} (hinv : Inv es w)
    (hstage : w'.stage = ⟨w.stage.requests.erase x.requestId, w.stage.notify⟩) (hmade : w'.made = w.made) :
    Inv (es ++ [.respond x]) w' where
  log := by
    rw [hstage, hinv.log, sentRequests_concat]
    simp [StageEvent.sent?]
  made := by
    rw [hmade, hinv.made, sentRequests_concat]
    simp [StageEvent.sent?]
  table id q := by
    rw [hstage, Std.ExtTreeMap.getElem?_erase, outstandingAt_concat]
    split_ifs with hid
    · obtain rfl : x.requestId = id := by simpa using hid
      constructor
      · intro h
        cases h
      · rintro ⟨hq, ⟨he, -⟩ | ⟨-, hx⟩⟩
        · cases he
        · exact absurd hq.symm (hx x rfl)
    · have hne : x.requestId ≠ id := by simpa using hid
      rw [hinv.table]
      constructor
      · rintro ⟨rfl, hout⟩
        refine ⟨rfl, Or.inr ⟨hout, fun y hy => ?_⟩⟩
        cases hy
        exact hne
      · rintro ⟨rfl, ⟨he, -⟩ | ⟨hout, -⟩⟩
        · cases he
        · exact ⟨rfl, hout⟩

theorem Inv.send {request : HsmRequest} (hinv : Inv es w) (hids : DistinctIds (es ++ [.send request])) :
    Inv (es ++ [.send request]) (w.send request) where
  log := by
    rw [sentRequests_concat, ← hinv.log]
    simp [World.send, Broadcast.send, StageEvent.sent?]
  made := by
    rw [sentRequests_concat]
    simp [World.send, StageEvent.sent?, hinv.made]
  table id q := by
    have hnew : OutstandingAt (es ++ [.send request]) w.made request :=
      outstandingAt_concat.2 (Or.inl ⟨rfl, hinv.made⟩)
    simp only [World.send, Std.ExtTreeMap.getElem?_insert]
    split_ifs with hid
    · obtain rfl : request.requestId = id := by simpa using hid
      constructor
      · intro h
        obtain rfl := Option.some.inj h
        exact ⟨rfl, hnew⟩
      · rintro ⟨hq, hout⟩
        -- no other request has the id
        obtain ⟨hc, hr⟩ := hids.eq_of_requestId_eq hnew hout hq.symm
        rw [hc, hr]
    · have hne : request.requestId ≠ id := by simpa using hid
      rw [hinv.table, outstandingAt_concat]
      constructor
      · rintro ⟨rfl, hout⟩
        exact ⟨rfl, Or.inr ⟨hout, fun y hy => by cases hy⟩⟩
      · rintro ⟨rfl, ⟨he, -⟩ | ⟨hout, -⟩⟩
        · cases he
          exact absurd rfl hne
        · exact ⟨rfl, hout⟩

theorem inv_step (hinv : Inv es w) (hids : DistinctIds (es ++ [e])) (h : step w e = some w') :
    Inv (es ++ [e]) w' := by
  cases step_outcome h with
  | sent request => exact hinv.send hids
  | unknown x hnone =>
    -- the table has no such id, and erasing it changes nothing
    have herase : w.stage.requests.erase x.requestId = w.stage.requests := by
      refine Std.ExtTreeMap.ext_getElem? fun {id} => ?_
      rw [Std.ExtTreeMap.getElem?_erase]
      split_ifs with hid
      · obtain rfl : x.requestId = id := by simpa using hid
        exact hnone.symm
      · rfl
    exact hinv.respond (by rw [herase]) rfl
  | responded x req hreq channel hsend => exact hinv.respond rfl rfl
  | refused x req hreq hsend => exact hinv.respond rfl rfl
  | attached | ready | received | closed => exact hinv.of_eq rfl nofun rfl rfl

theorem inv_of_run (hids : DistinctIds es) (hr : Run step (World.new capacity) es w) : Inv es w := by
  refine Run.induction (motive := fun es w => DistinctIds es → Inv es w) hr ?_ ?_ hids
  · exact fun _ => inv_new capacity
  · exact fun es t e u _ ih hstep hids => inv_step (ih hids.of_append) hids hstep

/-- **The table is the outstanding requests**: it has a request for an id exactly if that request was sent and no
response with the id was given since. -/
theorem table_iff (hids : DistinctIds es) (hr : Run step (World.new capacity) es w) (r : HsmRequest) :
    Outstanding es r ↔ ∃ q, w.stage.requests[r.requestId]? = some q ∧ q.request = r := by
  have hinv := inv_of_run hids hr
  constructor
  · rintro ⟨c, hout⟩
    exact ⟨⟨r, c⟩, (hinv.table _ _).2 ⟨rfl, hout⟩, rfl⟩
  · rintro ⟨q, hq, rfl⟩
    exact ⟨q.response, ((hinv.table _ _).1 hq).2⟩

end Greenlight.Stager
