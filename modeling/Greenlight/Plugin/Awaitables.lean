import Greenlight.Lib.Text
import Greenlight.Lib.Future
import Greenlight.Lib.Staged
import Greenlight.Util.Error

/-!
# Waiting for a peer and a channel

`awaitables.rs`.  `AwaitableChannel` is a future written by hand: a poll goes through its stages (version, peer
connection, billboard, route, spendable amount), starts the call of a stage, and returns as soon as a call is
pending.  A billboard that does not report the channel as ready, and a route that is not found, set it back by
`RPC_CALL_DELAY_MSEC`.  What the world answers to the polls of the calls is an input of the poll, and what the poll
does to the calls is told with its result.
-/

namespace Greenlight.Plugin

open Greenlight.Lib Greenlight.Util

/-- Compressed form of a public key. -/
abbrev PublicKey := Bytes

/-- A peer of `listpeers`; the features are hex. -/
structure Peer where
  connected : Bool
  features : Option String
  deriving DecidableEq, Repr

/-- A channel of `listpeerchannels`; amounts are millisatoshi. -/
structure PeerChannel where
  shortChannelId : Option String
  aliasLocal : Option String
  status : Option (List String)
  spendableMsat : Option ℕ
  minimumHtlcOutMsat : Option ℕ
  deriving DecidableEq, Repr

inductive AwaitableError where
  | peerUnknown (peer : String)
  | peerConnectionFailure (peer : String)
  | channel (reason : String)
  | rpc (e : RpcError)
  | service (reason : String)
  deriving DecidableEq, Repr

/-- What the calls of one future of a stage were answered: the connection to the socket and the methods. -/
structure Replies where
  connect : Except String Unit
  getinfo : Except RpcError String
  listpeers : Except RpcError (List Peer)
  connectPeer : Except RpcError Unit
  listpeerchannels : Except RpcError (List PeerChannel)
  getroute : Except RpcError Unit

namespace Awaitables

def connect (r : Replies) : Except AwaitableError Unit :=
  r.connect.mapError fun e => .service ("cant connect to rpc " ++ e)

def ensurePeerConnection (peerId : PublicKey) (r : Replies) : Except AwaitableError Unit := do
  connect r
  match (← r.listpeers.mapError .rpc).head? with
  | none => throw (.peerUnknown (hexEncode peerId))
  | some peer =>
    if peer.connected then return ()
    else r.connectPeer.mapError fun _ => .peerConnectionFailure (hexEncode peerId)

def getVersion (r : Replies) : Except AwaitableError String := do
  connect r
  r.getinfo.mapError .rpc

/-- The channel of the id in `listpeerchannels`, from the version that has the method on. -/
def findChannel (version scid : String) (r : Replies) : Except AwaitableError PeerChannel := do
  connect r
  if "v23.05gl1" ≤ version then
    let channels ← r.listpeerchannels.mapError .rpc
    match channels.find? fun c => c.shortChannelId == some scid || c.aliasLocal == some scid with
    | none => throw (.channel "Could not find the channel in listpeerchannels")
    | some c => return c
  else
    throw (.service ("Not supported in this version of core-lightning: " ++ version ++
      ", need at least v23.05gl1"))

def billboard (version scid : String) (r : Replies) : Except AwaitableError (List String) := do
  match (← findChannel version scid r).status with
  | none => throw (.channel "Status not found")
  | some status => return status

def getRoute (r : Replies) : Except AwaitableError Unit := do
  connect r
  r.getroute.mapError .rpc

def spendableMsat (version scid : String) (r : Replies) : Except AwaitableError ℕ := do
  match (← findChannel version scid r).spendableMsat with
  | none => throw (.channel "No amount found")
  | some amount => return amount

end Awaitables

/-- The delay between consecutive calls of the same type, in milliseconds. -/
def rpcCallDelayMsec : ℕ := 250

/-- A poll meets the world: the clock when it starts and when it backs off, and the poll of the call of each
stage. -/
structure ChannelWorld where
  now : ℕ
  backOff : ℕ
  getVersion : Poll Replies
  ensurePeerConnection : Poll Replies
  billboard : Poll Replies
  getRoute : Poll Replies
  spendableMsat : Poll Replies

/-- `AwaitableChannel`; of a field that holds a future it matters whether one is there. -/
structure AwaitableChannel where
  scid : String
  peerId : PublicKey
  version : Option String
  peerConnected : Bool
  channelReady : Bool
  routeFound : Bool
  lastCheck : Option ℕ
  rpcCallDelay : ℕ
  getVersion : Bool
  ensurePeerConnection : Bool
  billboard : Bool
  getRoute : Bool
  spendableMsat : Bool
  deriving DecidableEq, Repr

namespace AwaitableChannel

/-- The struct that `AwaitableChannel::new` makes. -/
def init (peerId : PublicKey) (scid : String) : AwaitableChannel where
  scid := scid
  peerId := peerId
  version := none
  peerConnected := false
  channelReady := false
  routeFound := false
  lastCheck := none
  rpcCallDelay := rpcCallDelayMsec
  getVersion := false
  ensurePeerConnection := false
  billboard := false
  getRoute := false
  spendableMsat := false

/-- `AwaitableChannel::new` is an `async` function: what it returns is a future of the struct, which awaits
nothing. -/
def new {W : Type} (peerId : PublicKey) (scid : String) : Future W Unit AwaitableChannel :=
  fun _ s => (.ready (init peerId scid), s)

/-- A status line that reports the channel as usable. -/
def reportsReady (line : String) : Bool :=
  containsStr line "Channel ready" || containsStr line "Reconnected, and reestablished"

/-! ### The poll with what it does to the calls -/

inductive Call where
  | getVersion | ensurePeerConnection | billboard | getRoute | spendableMsat
  deriving DecidableEq, Repr

/-- The result of the call of a stage. -/
inductive Outcome where
  | getVersion (r : Except AwaitableError String)
  | ensurePeerConnection (r : Except AwaitableError Unit)
  | billboard (r : Except AwaitableError (List String))
  | getRoute (r : Except AwaitableError Unit)
  | spendableMsat (r : Except AwaitableError ℕ)

abbrev Event := CallEvent Call Outcome

/-- What a poll returns, what it leaves of the future, and what it has done to the calls. -/
structure Polled where
  result : Poll (Except AwaitableError ℕ)
  self : AwaitableChannel
  events : List Event

/-- The rest of a poll that has done `es` before. -/
def Polled.after (es : List Event) (p : Polled) : Polled := { p with events := es ++ p.events }

/-- A call is started unless its future is stored. -/
def begun (stored : Bool) (c : Call) (now : ℕ) : List Event := if stored then [] else [.started c now]

/-- The last stage: the amount that can be sent. -/
def pollSpendable (version : String) (w : ChannelWorld) (self : AwaitableChannel) : Polled :=
  let start := begun self.spendableMsat .spendableMsat w.now
  let self := { self with spendableMsat := true }
  match w.spendableMsat with
  | .pending => ⟨.pending, self, start ++ [.waits .spendableMsat]⟩
  | .ready r =>
    let amount := Awaitables.spendableMsat version self.scid r
    ⟨.ready amount, self, start ++ [.completed (.spendableMsat amount) w.backOff]⟩

def pollRoute (version : String) (w : ChannelWorld) (self : AwaitableChannel) : Polled :=
  if self.routeFound then pollSpendable version w self
  else
    let start := begun self.getRoute .getRoute w.now
    let self := { self with getRoute := true }
    match w.getRoute with
    | .pending => ⟨.pending, self, start ++ [.waits .getRoute]⟩
    | .ready r =>
      match Awaitables.getRoute r with
      | .ok route =>
        (pollSpendable version w { self with routeFound := true }).after
          (start ++ [.completed (.getRoute (.ok route)) w.backOff])
      | .error e =>
        ⟨.pending, { self with lastCheck := some w.backOff, getRoute := false },
          start ++ [.completed (.getRoute (.error e)) w.backOff]⟩

def pollBillboard (version : String) (w : ChannelWorld) (self : AwaitableChannel) : Polled :=
  if self.channelReady then pollRoute version w self
  else
    let start := begun self.billboard .billboard w.now
    let self := { self with billboard := true }
    match w.billboard with
    | .pending => ⟨.pending, self, start ++ [.waits .billboard]⟩
    | .ready r =>
      match Awaitables.billboard version self.scid r with
      | .error e => ⟨.ready (.error e), self, start ++ [.completed (.billboard (.error e)) w.backOff]⟩
      | .ok status =>
        if status.any reportsReady then
          (pollRoute version w { self with channelReady := true }).after
            (start ++ [.completed (.billboard (.ok status)) w.backOff])
        else
          ⟨.pending, { self with lastCheck := some w.backOff, billboard := false },
            start ++ [.completed (.billboard (.ok status)) w.backOff]⟩

def pollPeer (version : String) (w : ChannelWorld) (self : AwaitableChannel) : Polled :=
  if self.peerConnected then pollBillboard version w self
  else
    let start := begun self.ensurePeerConnection .ensurePeerConnection w.now
    let self := { self with ensurePeerConnection := true }
    match w.ensurePeerConnection with
    | .pending => ⟨.pending, self, start ++ [.waits .ensurePeerConnection]⟩
    | .ready r =>
      match Awaitables.ensurePeerConnection self.peerId r with
      | .error e => ⟨.ready (.error e), self, start ++ [.completed (.ensurePeerConnection (.error e)) w.backOff]⟩
      | .ok connected =>
        (pollBillboard version w { self with peerConnected := true }).after
          (start ++ [.completed (.ensurePeerConnection (.ok connected)) w.backOff])

/-- The first stage; the later ones unwrap the version that it leaves. -/
def pollVersion (w : ChannelWorld) (self : AwaitableChannel) : Polled :=
  match self.version with
  | some version => pollPeer version w self
  | none =>
    let start := begun self.getVersion .getVersion w.now
    let self := { self with getVersion := true }
    match w.getVersion with
    | .pending => ⟨.pending, self, start ++ [.waits .getVersion]⟩
    | .ready r =>
      match Awaitables.getVersion r with
      | .error e => ⟨.ready (.error e), self, start ++ [.completed (.getVersion (.error e)) w.backOff]⟩
      | .ok version =>
        (pollPeer version w { self with version := some version }).after
          (start ++ [.completed (.getVersion (.ok version)) w.backOff])

/-- `poll`, told in full: nothing happens until the delay after the last check has passed. -/
def tracedPoll (w : ChannelWorld) (self : AwaitableChannel) : Polled :=
  match self.lastCheck with
  | none => pollVersion w self
  | some lastCheck =>
    if w.now - lastCheck < self.rpcCallDelay then ⟨.pending, self, []⟩ else pollVersion w self

def poll : Future ChannelWorld AwaitableChannel (Except AwaitableError ℕ) := fun w self =>
  ((tracedPoll w self).result, (tracedPoll w self).self)

end AwaitableChannel

end Greenlight.Plugin
