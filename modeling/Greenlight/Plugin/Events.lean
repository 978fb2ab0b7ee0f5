import Greenlight.Lib.Channel
import Greenlight.Lib.Transition
import Greenlight.Plugin.Amounts

/-!
# Streams of events

The hooks of `lib.rs` and the calls of the grpc interface report to one broadcast channel, which keeps sixteen
events.  Each stream of custom messages or of incoming payments has a task that reads the channel, picks what is of
its kind and passes it on to its client through a channel with one place, for which it waits.  All events count for
how far a task is behind, those that it does not pick too.

Whatever else the node does, a client is handed what was reported since it asked for the stream, in order and without
gaps, until its stream ends (`stream_delivery`).  A stream ends when the client falls more than sixteen events behind.
The task of a custom message stream also ends when its client is gone; that of a payment stream goes on then.
-/

namespace Greenlight.Plugin

open Greenlight.Lib

/-! ### What is reported -/

/-- `pb::Custommsg`. -/
structure Custommsg where
  peerId : Bytes
  payload : Bytes
  deriving DecidableEq, Repr

/-- `pb::TlvField`. -/
structure TlvField where
  type : UInt64
  value : Bytes
  deriving DecidableEq, Repr

/-- `pb::OffChainPayment`; the units of its amount are those of `requests.rs`. -/
structure OffChainPayment where
  label : String
  preimage : Bytes
  amount : Option Amount
  extratlvs : List TlvField
  paymentHash : Bytes
  bolt11 : String
  deriving DecidableEq, Repr

/-- `pb::IncomingPayment`. -/
structure IncomingPayment where
  details : Option OffChainPayment
  deriving DecidableEq, Repr

/-- `Event` of `lib.rs`, without the one for the end of the plugin, which nobody sends. -/
inductive PluginEvent where
  | rpcCall (uri : String)
  | incomingPayment (p : IncomingPayment)
  | customMsg (m : Custommsg)
  deriving DecidableEq, Repr

def PluginEvent.uri? : PluginEvent → Option String
  | .rpcCall uri => some uri
  | .incomingPayment _ | .customMsg _ => none

/-! ### The hooks -/

/-- `messages::Custommsg`. -/
structure CustommsgCall where
  peerId : String
  payload : String

/-- `messages::TlvField`. -/
structure TlvFieldCall where
  typ : UInt64
  value : String

/-- `InvoicePaymentCallPayment`. -/
structure InvoicePaymentCall where
  label : String
  preimage : String
  amount : UInt64
  extratlvs : Option (List TlvFieldCall)

/-- What is used of an invoice that `listinvoices` returns; the hash is shown in hex. -/
structure ListinvoicesInvoices where
  label : String
  bolt11 : Option String
  paymentHash : Bytes

/-- The answer to `listinvoices` with the label of a payment. -/
inductive ListinvoicesResponse where
  /-- The socket of lightningd could not be opened. -/
  | unconnected
  | error
  | invoices (invoices : List ListinvoicesInvoices)

/-- How a call of a hook ends; the last way is `continue`, maybe after an event. -/
inductive HookResult where
  | panic
  | error
  | proceed (event : Option PluginEvent)

/-- `on_custommsg`, of a call that may not be one. -/
def onCustommsg (call : Option CustommsgCall) : HookResult :=
  match call with
  | none => .panic
  | some call =>
    match hexDecode call.peerId, hexDecode call.payload with
    | some peerId, some payload => .proceed (some (.customMsg ⟨peerId, payload⟩))
    | _, _ => .panic

/-- `TlvField::from`. -/
def TlvField.ofCall (f : TlvFieldCall) : Option TlvField := (hexDecode f.value).map fun value => ⟨f.typ, value⟩

/-- The payment that a call and its invoice make; `none` is a panic. -/
def offChainPayment (call : InvoicePaymentCall) (invoice : ListinvoicesInvoices) : Option OffChainPayment := do
  let tlvs ← (call.extratlvs.getD []).mapM TlvField.ofCall
  let preimage ← hexDecode call.preimage
  let bolt11 ← invoice.bolt11
  let paymentHash ← hexDecode (hexEncode invoice.paymentHash)
  return {
    label := invoice.label
    preimage := preimage
    amount := some (.millisatoshi call.amount)
    extratlvs := tlvs
    paymentHash := paymentHash
    bolt11 := bolt11 }

def onInvoicePayment (call : Option InvoicePaymentCall) (res : ListinvoicesResponse) : HookResult :=
  match call with
  | none => .proceed none
  | some call =>
    match res with
    | .unconnected => .error
    | .error => .panic
    | .invoices invoices =>
      match invoices.getLast? with
      | none => .proceed none
      | some invoice =>
        match offChainPayment call invoice with
        | none => .panic
        | some details => .proceed (some (.incomingPayment ⟨some details⟩))

def HookResult.sent : HookResult → List PluginEvent
  | .proceed (some event) => [event]
  | .panic | .error | .proceed none => []

/-! ### The streams -/

/-- The two kinds of streams, `stream_custommsg` and `stream_incoming`. -/
inductive StreamKind where
  | custommsg
  | incoming
  deriving DecidableEq, Repr

/-- What a stream is one of. -/
def StreamKind.Item : StreamKind → Type
  | .custommsg => Custommsg
  | .incoming => IncomingPayment

/-- What a stream takes of the events. -/
def StreamKind.pick : (k : StreamKind) → PluginEvent → Option k.Item
  | .custommsg, .customMsg m => some m
  | .incoming, .incomingPayment p => some p
  | .custommsg, .rpcCall _ | .custommsg, .incomingPayment _ => none
  | .incoming, .rpcCall _ | .incoming, .customMsg _ => none

/-- A task of `stream_custommsg` breaks when nobody is there to get its message. -/
def StreamKind.breaksAlone : StreamKind → Bool
  | .custommsg => true
  | .incoming => false

inductive StreamPhase (k : StreamKind) where
  | receiving
  /-- It has a message that has to be sent. -/
  | sending (m : k.Item)
  /-- It has returned or panicked; its client gets what is in the channel, and then the end of the stream. -/
  | ended

/-- The task of a stream, with its place in the events and the channel to its client. -/
structure StreamTask (k : StreamKind) where
  bcast : ℕ
  outbound : Mpsc k.Item
  phase : StreamPhase k

inductive TaskEvent where
  /-- The task gets an event. -/
  | receive
  /-- It has its message sent. -/
  | send
  /-- The client takes a message. -/
  | take
  /-- The client goes. -/
  | hangUp
  deriving DecidableEq, Repr

namespace StreamTask

variable {k : StreamKind}

/-- A new stream, after the events so far. -/
def new (k : StreamKind) (events : Broadcast PluginEvent) : StreamTask k := ⟨events.subscribe, .new 1, .receiving⟩

def pending (t : StreamTask k) : List k.Item :=
  match t.phase with
  | .sending m => [m]
  | .receiving | .ended => []

/-- The loop of the task; `none` is a wait. -/
def step (events : Broadcast PluginEvent) (t : StreamTask k) : TaskEvent → Option (StreamTask k)
  | .receive =>
    match t.phase with
    | .receiving =>
      match events.recv t.bcast with
      | .value e next =>
        match k.pick e with
        | some m => some { t with bcast := next, phase := .sending m }
        | none => some { t with bcast := next }
      | .lagged _ _ => some { t with phase := .ended }
      | .waits => none
    | _ => none
  | .send =>
    match t.phase with
    | .sending m =>
      match t.outbound.send m with
      | .accepted c => some { t with outbound := c, phase := .receiving }
      | .refused => some { t with phase := if k.breaksAlone then .ended else .receiving }
      | .waits => none
    | _ => none
  | .take => t.outbound.recv.map fun r => { t with outbound := r.2 }
  | .hangUp => some { t with outbound := t.outbound.close }

end StreamTask

/-! ### The node -/

/-- What the node has for its events: the channel of them, that of the calls of the grpc interface (`RPC_BCAST`) with
the place of the task that brings them over, and the streams. -/
structure EventNode where
  events : Broadcast PluginEvent
  rpcBcast : Broadcast String
  bridge : ℕ
  tasks : List (Σ k, StreamTask k)

inductive NodeEvent where
  /-- lightningd calls a hook. -/
  | custommsg (call : Option CustommsgCall)
  | invoicePayment (call : Option InvoicePaymentCall) (res : ListinvoicesResponse)
  /-- A call of the grpc interface. -/
  | rpcCall (uri : String)
  /-- The task between the two channels gets a call. -/
  | bridge
  /-- A client asks for a stream. -/
  | stream (k : StreamKind)
  | task (i : ℕ) (e : TaskEvent)

namespace EventNode

/-- The channels of `bin/plugin.rs` and `node/mod.rs`. -/
def start : EventNode := ⟨.new 16, .new 4, 0, []⟩

def send (n : EventNode) (es : List PluginEvent) : EventNode := { n with events := es.foldl .send n.events }

def step (n : EventNode) : NodeEvent → Option EventNode
  | .custommsg call => some (n.send (onCustommsg call).sent)
  | .invoicePayment call res => some (n.send (onInvoicePayment call res).sent)
  | .rpcCall uri => some { n with rpcBcast := n.rpcBcast.send uri }
  | .bridge =>
    match n.rpcBcast.recv n.bridge with
    | .value uri next => some { n.send [.rpcCall uri] with bridge := next }
    | .lagged _ next => some { n with bridge := next }
    | .waits => none
  | .stream k => some { n with tasks := n.tasks ++ [⟨k, .new k n.events⟩] }
  | .task i e =>
    match n.tasks[i]? with
    | some ⟨k, t⟩ => (t.step n.events e).map fun t' => { n with tasks := n.tasks.set i ⟨k, t'⟩ }
    | none => none

end EventNode

/-! ### One stream -/

section

variable {k : StreamKind} {events : Broadcast PluginEvent} {start : ℕ} {t t' : StreamTask k} {e : TaskEvent}

inductive StreamTask.Outcome (events : Broadcast PluginEvent) (t : StreamTask k) : TaskEvent → StreamTask k → Prop
  | picked (a : PluginEvent) (m : k.Item) (next : ℕ) (hphase : t.phase = .receiving)
      (hrecv : events.recv t.bcast = .value a next) (hpick : k.pick a = some m) :
      Outcome events t .receive { t with bcast := next, phase := .sending m }
  | passed (a : PluginEvent) (next : ℕ) (hphase : t.phase = .receiving)
      (hrecv : events.recv t.bcast = .value a next) (hpick : k.pick a = none) :
      Outcome events t .receive { t with bcast := next }
  | lagged (hphase : t.phase = .receiving) (hlag : events.capacity < events.sent.length - t.bcast) :
      Outcome events t .receive { t with phase := .ended }
  | sent (m : k.Item) (hphase : t.phase = .sending m) (hopen : t.outbound.closed = false) :
      Outcome events t .send
        { t with outbound := { t.outbound with sent := t.outbound.sent ++ [m] }, phase := .receiving }
  | refused (m : k.Item) (hphase : t.phase = .sending m) (hclosed : t.outbound.closed = true) :
      Outcome events t .send { t with phase := if k.breaksAlone then .ended else .receiving }
  | took (m : k.Item) :
      Outcome events t .take { t with outbound := { t.outbound with taken := t.outbound.taken + 1 } }
  | hungUp : Outcome events t .hangUp { t with outbound := t.outbound.close }

theorem StreamTask.step_outcome (h : t.step events e = some t') : t.Outcome events e t' := by
  cases e with
  | receive =>
    simp only [StreamTask.step] at h
    split at h
    · rename_i hphase
      split at h
      · rename_i a next hrecv
        split at h
        · rename_i m hpick
          obtain rfl := Option.some.inj h
          exact .picked a m next hphase hrecv hpick
        · rename_i hpick
          obtain rfl := Option.some.inj h
          exact .passed a next hphase hrecv hpick
      · rename_i missed next hrecv
        obtain rfl := Option.some.inj h
        exact .lagged hphase ((Broadcast.recv_eq_lagged hrecv).1)
      · cases h
    · cases h
  | send =>
    simp only [StreamTask.step] at h
    split at h
    · rename_i m hphase
      split at h
      · rename_i c hsend
        obtain rfl := Option.some.inj h
        obtain rfl := Mpsc.send_eq_accepted hsend
        exact .sent m hphase (Mpsc.not_closed_of_send hsend)
      · rename_i hsend
        obtain rfl := Option.some.inj h
        exact .refused m hphase (Mpsc.closed_of_send hsend)
      · cases h
    · cases h
  | take =>
    obtain ⟨⟨m, c⟩, hrecv, rfl⟩ := Option.map_eq_some_iff.1 h
    obtain rfl := Mpsc.recv_eq_some hrecv
    exact .took m
  | hangUp =>
    obtain rfl := Option.some.inj h
    exact .hungUp

/-- A task that was started when the channel had got `start` events has read the events up to its place, and its
client was handed what it picked of them; only what it picks after the client is gone is not handed on. -/
structure StreamTask.Served (events : Broadcast PluginEvent) (start : ℕ) (t : StreamTask k) : Prop where
  handed : ∃ given, events.Follows [] start given [] t.bcast ∧ t.outbound.sent <+: given.filterMap k.pick ∧
    (t.phase ≠ .ended → t.outbound.closed = false → t.outbound.sent ++ t.pending = given.filterMap k.pick)
  /-- Why it has ended. -/
  ended : t.phase = .ended →
    k.breaksAlone ∧ t.outbound.closed = true ∨ events.capacity < events.sent.length - t.bcast

namespace StreamTask

theorem served_new (k : StreamKind) (events : Broadcast PluginEvent) :
    (StreamTask.new k events).Served events events.subscribe where
  handed := ⟨[], events.follows_subscribe [], List.nil_prefix, fun _ _ => rfl⟩
  ended h := by cases h

theorem Served.send (h : t.Served events start) (a : PluginEvent) : t.Served (events.send a) start where
  handed := by
    obtain ⟨given, hfollows, hrest⟩ := h.handed
    exact ⟨given, hfollows.send a, hrest⟩
  ended hended := by
    refine (h.ended hended).imp_right fun hlag => ?_
    show events.capacity < (events.sent ++ [a]).length - t.bcast
    rw [List.length_append, List.length_singleton]
    omega

theorem Served.step (h : t.Served events start) (hstep : t.step events e = some t') : t'.Served events start := by
  obtain ⟨given, hfollows, hbefore, hall⟩ := h.handed
  cases step_outcome hstep with
  | picked a m next hphase hrecv hpick =>
    have hgiven : (given ++ [a]).filterMap k.pick = given.filterMap k.pick ++ [m] := by
      rw [List.filterMap_append, List.filterMap_cons_some hpick, List.filterMap_nil]
    refine ⟨⟨given ++ [a], hfollows.recv hrecv, ?_, fun _ hopen => ?_⟩, by simp⟩
    · rw [hgiven]
      exact hbefore.trans (List.prefix_append _ _)
    · rw [hgiven, ← hall (by simp [hphase]) hopen]
      simp [pending, hphase]
  | passed a next hphase hrecv hpick =>
    have hgiven : (given ++ [a]).filterMap k.pick = given.filterMap k.pick := by
      rw [List.filterMap_append, List.filterMap_cons_none hpick, List.filterMap_nil, List.append_nil]
    refine ⟨⟨given ++ [a], hfollows.recv hrecv, hgiven ▸ hbefore, fun hne hopen => ?_⟩, by simp [hphase]⟩
    rw [hgiven, ← hall hne hopen]
    rfl
  | lagged hphase hlag => exact ⟨⟨given, hfollows, hbefore, fun hne => absurd rfl hne⟩, fun _ => .inr hlag⟩
  | sent m hphase hopen =>
    have heq : t.outbound.sent ++ [m] = given.filterMap k.pick := by
      rw [← hall (by simp [hphase]) hopen]
      simp [pending, hphase]
    refine ⟨⟨given, hfollows, ?_, fun _ _ => ?_⟩, by simp⟩
    · exact heq ▸ List.prefix_refl _
    · simpa [pending] using heq
  | refused m hphase hclosed =>
    refine ⟨⟨given, hfollows, hbefore, fun _ hopen => absurd hopen (by simp [hclosed])⟩,
      fun hended => .inl ⟨?_, hclosed⟩⟩
    -- a task that does not break goes on after a client that is gone
    by_contra hno
    simp [hno] at hended
  | took m => exact ⟨⟨given, hfollows, hbefore, hall⟩, h.ended⟩
  | hungUp =>
    exact ⟨⟨given, hfollows, hbefore, fun _ hopen => absurd hopen (by simp [Mpsc.close])⟩,
      fun hended => (h.ended hended).imp_left fun ⟨hbreaks, _⟩ => ⟨hbreaks, rfl⟩⟩

end StreamTask

end

/-! ### All streams -/

def NodeEvent.reports : NodeEvent → List PluginEvent
  | .custommsg call => (onCustommsg call).sent
  | .invoicePayment call res => (onInvoicePayment call res).sent
  | .rpcCall _ | .bridge | .stream _ | .task _ _ => []

def NodeEvent.uri? : NodeEvent → Option String
  | .rpcCall uri => some uri
  | .custommsg _ | .invoicePayment _ _ | .bridge | .stream _ | .task _ _ => none

/-- What is reported for the streams of a kind. -/
def StreamKind.reported (k : StreamKind) (es : List NodeEvent) : List k.Item :=
  (es.flatMap NodeEvent.reports).filterMap k.pick

namespace EventNode

variable {k : StreamKind} {n₀ n n' : EventNode} {e : NodeEvent} {post : List NodeEvent} {i start : ℕ}

/-- The stream `i` is of the kind `k` and served since the event `start`. -/
def Serves (k : StreamKind) (i start : ℕ) (n : EventNode) : Prop :=
  ∃ t : StreamTask k, n.tasks[i]? = some ⟨k, t⟩ ∧ t.Served n.events start

theorem serves_send (h : n.Serves k i start) (es : List PluginEvent) : (n.send es).Serves k i start := by
  obtain ⟨t, ht, hserved⟩ := h
  refine ⟨t, ht, ?_⟩
  show t.Served (es.foldl Broadcast.send n.events) start
  generalize n.events = events at hserved
  induction es generalizing events with
  | nil => exact hserved
  | cons a es ih => exact ih _ (hserved.send a)

theorem serves_task {k' : StreamKind} {t t' : StreamTask k'} {j : ℕ} {e : TaskEvent} (h : n.Serves k i start)
    (hj : n.tasks[j]? = some ⟨k', t⟩) (hstep : t.step n.events e = some t') :
    Serves k i start { n with tasks := n.tasks.set j ⟨k', t'⟩ } := by
  obtain ⟨u, hu, hserved⟩ := h
  by_cases hji : j = i
  · subst hji
    cases hu.symm.trans hj
    exact ⟨t', List.getElem?_set_self (List.getElem?_eq_some_iff.1 hu).1, hserved.step hstep⟩
  · exact ⟨u, (List.getElem?_set_ne hji).trans hu, hserved⟩

theorem serves_step (h : n.Serves k i start) (hstep : n.step e = some n') : n'.Serves k i start := by
  cases e with
  | custommsg call =>
    obtain rfl := Option.some.inj hstep
    exact serves_send h _
  | invoicePayment call res =>
    obtain rfl := Option.some.inj hstep
    exact serves_send h _
  | rpcCall uri =>
    obtain rfl := Option.some.inj hstep
    exact h
  | bridge =>
    simp only [step] at hstep
    split at hstep
    · obtain rfl := Option.some.inj hstep
      exact serves_send h _
    · obtain rfl := Option.some.inj hstep
      exact h
    · cases hstep
  | stream k' =>
    obtain rfl := Option.some.inj hstep
    obtain ⟨t, ht, hserved⟩ := h
    exact ⟨t, (List.getElem?_append_left (List.getElem?_eq_some_iff.1 ht).1).trans ht, hserved⟩
  | task j e =>
    simp only [step] at hstep
    split at hstep
    · rename_i k' t hj
      obtain ⟨t', ht', rfl⟩ := Option.map_eq_some_iff.1 hstep
      exact serves_task h hj ht'
    · cases hstep

theorem sent_send (n : EventNode) (es : List PluginEvent) : (n.send es).events.sent = n.events.sent ++ es := by
  show (es.foldl Broadcast.send n.events).sent = _
  generalize n.events = events
  induction es generalizing events with
  | nil => simp
  | cons a es ih =>
    rw [List.foldl_cons, ih]
    simp [Broadcast.send]

theorem capacity_send (n : EventNode) (es : List PluginEvent) : (n.send es).events.capacity = n.events.capacity := by
  show (es.foldl Broadcast.send n.events).capacity = _
  generalize n.events = events
  induction es generalizing events with
  | nil => rfl
  | cons a es ih => exact ih _

/-- A step adds what it reports, and calls of the grpc interface. -/
theorem sent_step (k : StreamKind) (hstep : n.step e = some n') : n'.events.capacity = n.events.capacity ∧
    ∃ added, n'.events.sent = n.events.sent ++ added ∧ added.filterMap k.pick = e.reports.filterMap k.pick := by
  cases e with
  | custommsg call =>
    obtain rfl := Option.some.inj hstep
    exact ⟨capacity_send _ _, _, sent_send _ _, rfl⟩
  | invoicePayment call res =>
    obtain rfl := Option.some.inj hstep
    exact ⟨capacity_send _ _, _, sent_send _ _, rfl⟩
  | rpcCall uri =>
    obtain rfl := Option.some.inj hstep
    exact ⟨rfl, [], (List.append_nil _).symm, rfl⟩
  | bridge =>
    simp only [step] at hstep
    split at hstep
    · rename_i uri next hrecv
      obtain rfl := Option.some.inj hstep
      exact ⟨capacity_send _ _, [.rpcCall uri], sent_send _ _, by cases k <;> rfl⟩
    · obtain rfl := Option.some.inj hstep
      exact ⟨rfl, [], (List.append_nil _).symm, rfl⟩
    · cases hstep
  | stream k' =>
    obtain rfl := Option.some.inj hstep
    exact ⟨rfl, [], (List.append_nil _).symm, rfl⟩
  | task j e =>
    simp only [step] at hstep
    split at hstep
    · obtain ⟨t', ht', rfl⟩ := Option.map_eq_some_iff.1 hstep
      exact ⟨rfl, [], (List.append_nil _).symm, rfl⟩
    · cases hstep

theorem sent_of_run (k : StreamKind) (hr : Run step n₀ post n) : n.events.capacity = n₀.events.capacity ∧
    ∃ added, n.events.sent = n₀.events.sent ++ added ∧ added.filterMap k.pick = k.reported post := by
  refine Run.induction (motive := fun es n => n.events.capacity = n₀.events.capacity ∧
    ∃ added, n.events.sent = n₀.events.sent ++ added ∧ added.filterMap k.pick = k.reported es) hr
    ⟨rfl, [], (List.append_nil _).symm, rfl⟩ fun es n e n' _ ih hstep => ?_
  obtain ⟨hcap, added, hsent, hadded⟩ := ih
  obtain ⟨hcap', new, hsent', hnew⟩ := sent_step k hstep
  refine ⟨hcap'.trans hcap, added ++ new, by rw [hsent', hsent, List.append_assoc], ?_⟩
  rw [List.filterMap_append, hadded, hnew]
  simp [StreamKind.reported]

theorem serves_of_run (hr : Run step n₀ (.stream k :: post) n) :
    n.Serves k n₀.tasks.length n₀.events.sent.length := by
  obtain ⟨n₁, hstream, hr⟩ := run_cons.1 hr
  obtain rfl := Option.some.inj hstream
  exact hr.invariant serves_step ⟨_, List.getElem?_concat_length, StreamTask.served_new k n₀.events⟩

/-- **Delivery**, to a client that asks for a stream before the events `post`: it is handed the beginning of what is
reported then for its stream, each item once and in order; if it is there, all of it but what waits, once its task has
nothing to read.  The task ends only if it is too far behind, in a run from the start by more than sixteen events, or,
on a custom message stream, if the client is gone. -/
theorem stream_delivery (hr : Run step n₀ (.stream k :: post) n) :
    (∃ t : StreamTask k, n.tasks[n₀.tasks.length]? = some ⟨k, t⟩ ∧
      t.outbound.sent <+: k.reported post ∧
      (t.phase ≠ .ended → t.outbound.closed = false → n.events.recv t.bcast = .waits →
        t.outbound.sent ++ t.pending = k.reported post) ∧
      (t.phase = .ended → k.breaksAlone ∧ t.outbound.closed = true ∨
        n₀.events.capacity < n.events.sent.length - t.bcast)) ∧
      ∀ pre, Run step EventNode.start pre n₀ → n₀.events.capacity = 16 := by
  refine ⟨?_, fun pre hpre => (sent_of_run k hpre).1⟩
  obtain ⟨t, ht, ⟨given, hfollows, hbefore, hall⟩, hended⟩ := serves_of_run hr
  obtain ⟨hcap, added, hsent, hadded⟩ := sent_of_run k hr
  have hdrop : n.events.sent.drop n₀.events.sent.length = added := by rw [hsent, List.drop_left]
  have hreported : k.reported (.stream k :: post) = k.reported post := rfl
  have hgiven : given <+: added := by simpa [hdrop] using hfollows.isPrefix
  refine ⟨t, ht, ?_, fun hne hopen hwaits => ?_, hcap ▸ hended⟩
  · rw [← hreported, ← hadded]
    exact hbefore.trans (hgiven.filterMap _)
  · have heq : given = added := by simpa [hdrop] using hfollows.eq_of_waits hwaits
    rw [hall hne hopen, heq, hadded, hreported]

def plainPayment : NodeEvent :=
  .invoicePayment (some ⟨"a", "00", 5, none⟩) (.invoices [⟨"a", some "lnbc1", [1]⟩])

/-- A message and a payment come in, and a call of the grpc interface; the task reads all of it. -/
def paymentRun : List NodeEvent :=
  [.custommsg (some ⟨"02", "ff"⟩), plainPayment, .rpcCall "/cln.Node/Getinfo", .bridge, .task 0 .receive,
    .task 0 .receive, .task 0 .send, .task 0 .receive]

theorem stream_delivery_payment : ∃ n, Run step EventNode.start (.stream .incoming :: paymentRun) n ∧
    ∃ t : StreamTask .incoming, n.tasks[0]? = some ⟨.incoming, t⟩ ∧
      t.outbound.sent ++ t.pending = [⟨some ⟨"a", [0], some (.millisatoshi 5), [], [1], "lnbc1"⟩⟩] := by
  obtain ⟨n, hr, t, ht, hne, hopen, hwaits⟩ : ∃ n, Run step EventNode.start (.stream .incoming :: paymentRun) n ∧
      ∃ t : StreamTask .incoming, n.tasks[0]? = some ⟨.incoming, t⟩ ∧ t.phase ≠ .ended ∧ t.outbound.closed = false ∧
        n.events.recv t.bcast = .waits := ⟨_, rfl, _, rfl, by simp, rfl, rfl⟩
  obtain ⟨⟨t', ht', -, hall, -⟩, -⟩ := stream_delivery hr
  cases ht.symm.trans ht'
  exact ⟨n, hr, t, ht, hall hne hopen hwaits⟩

/-- A client that is not served before seventeen calls were made. -/
def busyRun : List NodeEvent :=
  .stream .incoming :: (List.replicate 17 [.rpcCall "/cln.Node/Getinfo", .bridge]).flatten ++ [.task 0 .receive]

/-- Calls alone end its stream. -/
example : ∃ n, Run step EventNode.start busyRun n ∧
    ∃ t : StreamTask .incoming, n.tasks[0]? = some ⟨.incoming, t⟩ ∧ t.phase = .ended := ⟨_, rfl, _, rfl, rfl⟩

/-! ### The calls of the grpc interface -/

def calls (es : List NodeEvent) : List String := es.filterMap NodeEvent.uri?

def announced (n : EventNode) : List String := n.events.sent.filterMap PluginEvent.uri?

theorem announced_send (n : EventNode) (es : List PluginEvent) :
    announced (n.send es) = announced n ++ es.filterMap PluginEvent.uri? := by
  rw [announced, sent_send, List.filterMap_append]
  rfl

/-- What was brought over is among the calls up to the place of the bridge. -/
structure Bridged (es : List NodeEvent) (n : EventNode) : Prop where
  sent : n.rpcBcast.sent = calls es
  le : n.bridge ≤ n.rpcBcast.sent.length
  sublist : (announced n).Sublist (n.rpcBcast.sent.take n.bridge)

theorem uri?_reports (e : NodeEvent) : e.reports.filterMap PluginEvent.uri? = [] := by
  have hproceed : ∀ event : Option PluginEvent, (∀ a ∈ event, a.uri? = none) →
      (HookResult.proceed event).sent.filterMap PluginEvent.uri? = [] := by
    rintro (_ | a) ha
    · rfl
    · exact List.filterMap_cons_none (ha a rfl)
  cases e with
  | custommsg call =>
    simp only [NodeEvent.reports, onCustommsg]
    split
    · rfl
    · split
      · exact hproceed _ (by simp [PluginEvent.uri?])
      · rfl
  | invoicePayment call res =>
    simp only [NodeEvent.reports, onInvoicePayment]
    repeat' split
    · exact hproceed _ (by simp)
    · rfl
    · rfl
    · exact hproceed _ (by simp)
    · rfl
    · exact hproceed _ (by simp [PluginEvent.uri?])
  | rpcCall | bridge | stream | task => rfl

theorem bridged_step {es : List NodeEvent} (h : Bridged es n) (hstep : n.step e = some n') :
    Bridged (es ++ [e]) n' := by
  obtain ⟨hsent, hle, hsub⟩ := h
  -- a step that is no call and moves no receiver adds nothing to what is announced
  have hhook : ∀ e : NodeEvent, e.uri? = none → ∀ m : EventNode, m.rpcBcast = n.rpcBcast → m.bridge = n.bridge →
      announced m = announced n → Bridged (es ++ [e]) m := by
    intro e he m hbcast hbridge hannounced
    refine ⟨?_, by rwa [hbcast, hbridge], by rwa [hbcast, hbridge, hannounced]⟩
    rw [hbcast, hsent, calls, calls, List.filterMap_append, List.filterMap_cons_none he, List.filterMap_nil,
      List.append_nil]
  have hreport : ∀ e : NodeEvent, announced (n.send e.reports) = announced n := fun e => by
    rw [announced_send, uri?_reports, List.append_nil]
  cases e with
  | custommsg call =>
    obtain rfl := Option.some.inj hstep
    exact hhook _ rfl _ rfl rfl (hreport (.custommsg call))
  | invoicePayment call res =>
    obtain rfl := Option.some.inj hstep
    exact hhook _ rfl _ rfl rfl (hreport (.invoicePayment call res))
  | rpcCall uri =>
    obtain rfl := Option.some.inj hstep
    refine ⟨?_, ?_, ?_⟩
    · show n.rpcBcast.sent ++ [uri] = _
      rw [hsent, calls, calls, List.filterMap_append]
      rfl
    · show n.bridge ≤ (n.rpcBcast.sent ++ [uri]).length
      rw [List.length_append]
      omega
    · show (announced n).Sublist ((n.rpcBcast.sent ++ [uri]).take n.bridge)
      rwa [List.take_append_of_le_length hle]
  | bridge =>
    have hcalls : calls (es ++ [.bridge]) = calls es := by
      rw [calls, calls, List.filterMap_append]
      exact List.append_nil _
    simp only [step] at hstep
    split at hstep
    · rename_i uri next hrecv
      obtain ⟨huri, rfl⟩ := Broadcast.recv_eq_value hrecv
      obtain rfl := Option.some.inj hstep
      refine ⟨hsent.trans hcalls.symm, (List.getElem?_eq_some_iff.1 huri).1, ?_⟩
      show (announced (n.send [.rpcCall uri])).Sublist (n.rpcBcast.sent.take (n.bridge + 1))
      rw [announced_send, List.take_add_one, huri]
      exact hsub.append_right _
    · rename_i missed next hrecv
      obtain ⟨hlag, rfl⟩ := Broadcast.recv_eq_lagged hrecv
      obtain rfl := Option.some.inj hstep
      refine ⟨hsent.trans hcalls.symm, Nat.sub_le _ _, hsub.trans ?_⟩
      -- the bridge goes on from the oldest call that is kept
      have hnext : n.bridge ≤ n.rpcBcast.sent.length - n.rpcBcast.capacity := by omega
      exact (List.take_prefix_take_left hnext).sublist
    · cases hstep
  | stream k =>
    obtain rfl := Option.some.inj hstep
    exact hhook _ rfl _ rfl rfl rfl
  | task i e =>
    simp only [step] at hstep
    split at hstep
    · obtain ⟨t', ht', rfl⟩ := Option.map_eq_some_iff.1 hstep
      exact hhook _ rfl _ rfl rfl rfl
    · cases hstep

/-- The events hold each call at most once and in the order in which the calls were made; calls that come faster than
they are brought over are left out. -/
theorem announced_sublist (hr : Run step EventNode.start post n) : (announced n).Sublist (calls post) := by
  have h : Bridged post n := Run.induction (motive := Bridged) hr ⟨rfl, le_rfl, List.Sublist.slnil⟩
    fun _ _ _ _ _ ih hstep => bridged_step ih hstep
  rw [← h.sent]
  exact h.sublist.trans (List.take_sublist _ _)

end EventNode

end Greenlight.Plugin
