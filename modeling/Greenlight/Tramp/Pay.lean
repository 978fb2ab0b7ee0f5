import Greenlight.Plugin.Tlv
import Greenlight.Tramp.ErrorCode
import Greenlight.Tramp.Reestablish
import Mathlib.Data.List.Enum

/-!
# Trampoline payments

`trampolinepay` and `do_pay` of `tramp.rs`.  A call looks up the parts that lightningd has for the payment hash;
if one of them has not failed it waits for that payment, otherwise it splits the amount over the channels to the
trampoline node and sends one part over each.  lightningd is its list of parts and three functions; what its
other answers are in the course of one call is an input.  The sums of amounts and the number of the next group are
word arithmetic, which panics or wraps when it overflows.  The time stamp of a response, which is zero throughout,
is left out.
-/

namespace Greenlight.Tramp

open Greenlight.Lib Greenlight.Plugin Greenlight.Util TrampolineErrorCode

/-! ### lightningd -/

inductive SendPayStatus where
  | pending
  | failed
  | complete
  deriving DecidableEq, Repr

/-- A part of a payment, as `listsendpays` reports it. -/
structure SendPay where
  paymentHash : Bytes
  groupid : UInt64
  partid : ℕ
  status : SendPayStatus
  deriving DecidableEq, Repr

structure Decodepay where
  paymentHash : Bytes
  amountMsat : Option UInt64
  description : Option String
  payee : PublicKey
  paymentSecret : Option Bytes

structure WaitsendpayRequest where
  paymentHash : Bytes
  groupid : Option UInt64
  partid : Option ℕ

structure WaitsendpayResponse where
  amountMsat : Option UInt64
  amountSentMsat : UInt64
  destination : Option PublicKey
  partid : Option ℕ
  paymentHash : Bytes
  paymentPreimage : Option Bytes
  deriving DecidableEq, Repr

structure SendpayRoute where
  amountMsat : ℕ
  id : PublicKey
  delay : ℕ
  channel : ShortChannelId

structure SendpayRequest where
  route : List SendpayRoute
  paymentHash : Bytes
  label : Option String
  amountMsat : Option UInt64
  bolt11 : Option String
  paymentSecret : Option Bytes
  partid : Option ℕ
  groupid : Option UInt64
  description : Option String
  paymentMetadata : Option String

/-- Reading a node id, decoding an invoice, and waiting for a part in a list of parts. -/
structure Lightningd where
  fromSlice : Bytes → Except String PublicKey
  decodepay : String → Except RpcError Decodepay
  waitsendpay : List SendPay → WaitsendpayRequest → Except RpcError WaitsendpayResponse

/-- The parts of a payment hash: the answer of `listsendpays`. -/
def listsendpays (payments : List SendPay) (paymentHash : Bytes) : List SendPay :=
  payments.filter (·.paymentHash = paymentHash)

/-- The largest group of a payment hash, or zero. -/
def maxGroupId (payments : List SendPay) (paymentHash : Bytes) : UInt64 :=
  ((listsendpays payments paymentHash).map (·.groupid)).max?.getD 0

/-- What `waitsendpay` promises: without a group and a part it waits for part zero of the latest group, and it
succeeds only for a part of the payment that is complete. -/
structure Lightningd.Documented (ld : Lightningd) : Prop where
  default : ∀ payments hash, ld.waitsendpay payments ⟨hash, none, none⟩ =
    ld.waitsendpay payments ⟨hash, some (maxGroupId payments hash), some 0⟩
  complete : ∀ payments hash group part resp, ld.waitsendpay payments ⟨hash, some group, some part⟩ = .ok resp →
    resp.paymentHash = hash ∧ ⟨hash, group, part, .complete⟩ ∈ payments

/-- The other answers that one call gets; a part is refused, or comes to the status. -/
structure CallAnswers where
  connect : Except String Unit
  listsendpays : Except RpcError Unit
  peer : Replies
  listpeers : Except RpcError (List Peer)
  listpeerchannels : Except RpcError (List PeerChannel)
  deadline : ℕ
  channelWorld : JoinWorld
  preapproveinvoice : Except RpcError Unit
  partConnect : ℕ → Except String Unit
  sendpay : SendpayRequest → Except RpcError SendPayStatus

/-! ### The call -/

structure TrampolinePayRequest where
  bolt11 : String
  trampolineNodeId : Bytes
  amountMsat : UInt64
  label : String
  maxfeepercent : Float32
  maxdelay : ℕ

structure PayResponse where
  amountMsat : UInt64
  amountSentMsat : UInt64
  destination : Option PublicKey
  parts : ℕ
  paymentHash : Bytes
  paymentPreimage : Bytes
  deriving DecidableEq, Repr

def trampolineFeatureBit : ℕ := 427

def maxDelayDefault : ℕ := 2016

def defaultOverpayPercent : Float32 := 0.5

def tlvBolt11 : UInt64 := 33001

def tlvAmtMsat : UInt64 := 33003

/-- `as_option`. -/
def asOption {T : Type} [Inhabited T] [BEq T] (v : T) : Option T := if v == default then none else some v

/-- How a call ends without a response; a panic is that of an overflow. -/
inductive PayFailure where
  | error (e : TrampolineError)
  | panic

def featureGuard (features : Bytes) (featureBit : ℕ) : Except TrampolineError Unit :=
  let features := features.reverse
  let bytePos := featureBit / 8
  let bitPos := featureBit % 8
  if features.length ≤ bytePos ∨ features.getD bytePos 0 &&& 1 <<< UInt8.ofNat bitPos = 0 then
    .error (((Error.new featureNotSupported "Peer doesn't support trampoline payments").withHint
      "Use a peer node that supports trampoline pay (feat 427)").withContext
      ("\x7b\"features\":\"" ++ hexEncode features ++ "\"\x7d"))
  else .ok ()

/-- The errors of waiting for the peer. -/
def peerError : AwaitableError → TrampolineError
  | .peerUnknown s => (Error.new unknownPeer ("Unknown peer " ++ s)).withHint
      "You need to be connected and share a channel with the trampoline node"
  | .peerConnectionFailure s => .new peerConnectionFailure ("Can't connect to peer " ++ s)
  | .rpc e => .fromRpc e
  | .channel s => unexpected ("Channel error: " ++ s)
  | .service s => unexpected ("Error talking to a GL service: " ++ s)
where
  unexpected (text : String) : TrampolineError :=
    (Error.new internal ("Got an unexpected error while awaiting peer connection: " ++ text)).withSource text

def peerFeatures (hexNodeId : String) (peers : List Peer) : Except TrampolineError Bytes :=
  match peers.head? with
  | none => .error ((Error.new unknownPeer ("Unknown peer node " ++ hexNodeId)).withHint
      ("You need to have an active channel with the trampoline node before you can execute a trampoline " ++
        "payment"))
  | some peer =>
    match peer.features with
    | none => .error (.new internal "missing feature bits on listpeers response")
    | some features =>
      match hexDecode features with
      | none => .error ((Error.new internal "could not parse feature bits from hex").withSource "FromHexError")
      | some bytes => .ok bytes

/-- The amount to deliver, from the request and the invoice. -/
def payAmount (amountMsat invoiceMsat : Option UInt64) : Except TrampolineError UInt64 :=
  match amountMsat, invoiceMsat with
  | none, none => .error ((Error.new missingAmount "Missing amount").withHint
      "If the invoice does not have a fixed amount you need to set the amount parameter")
  | none, some amt => .ok amt
  | some amt, none => .ok amt
  | some setAmt, some bolt11Amt =>
    if setAmt ≠ bolt11Amt then
      .error ((Error.new ambigousAmount "Invoice amount and the given amount don't match").withHint
        "If the invoice has the amount set you don't need to set it as a parameter")
    else .ok bolt11Amt

/-- What is sent on top of the amount, for the fees of the trampoline node. -/
def overpay (amountMsat : UInt64) (maxfeepercent : Float32) : UInt64 :=
  (amountMsat.toFloat * (asF64 ((asOption maxfeepercent).getD defaultOverpayPercent) / 100)).toUInt64

/-- A channel with all that the allocation needs. -/
def toChannel (ch : PeerChannel) : Option Channel := do
  let shortChannelId ← ch.shortChannelId.or ch.aliasLocal
  let spendableMsat ← ch.spendableMsat
  let minHtlcOutMsat ← ch.minimumHtlcOutMsat
  return ⟨shortChannelId, spendableMsat, minHtlcOutMsat⟩

/-- The channels of the peer that could carry a part. -/
def payChannels (channels : List PeerChannel) : List Channel :=
  ((channels.filterMap toChannel).filter (0 < ·.spendableMsat)).filter fun ch =>
    ch.minHtlcOutMsat < ch.spendableMsat

/-- The two attempts at an allocation; the second one sorts what the first one has sorted.  Neither panics. -/
def allocate (channels : List Channel) (amountMsat : ℕ) : Option (List ChannelContribution) :=
  match (findAllocationAscendingOrder channels amountMsat).join.filter (!·.isEmpty) with
  | some alloc => some alloc
  | none =>
    (findAllocationDescendingOrder (channels.mergeSort ascendingLe) amountMsat).join.filter (!·.isEmpty)

/-- The numbers of the parts: a payment in one part has number zero, several parts count from one. -/
def partIds (n : ℕ) : List ℕ := if n = 1 then [0] else List.range' 1 n

section Call

variable (build : Build) (ld : Lightningd) (env : CallAnswers) (req : TrampolinePayRequest)

/-- The start of the call, up to `listsendpays`. -/
def lookUp (payments : List SendPay) : Except TrampolineError (PublicKey × Decodepay × List SendPay) := do
  let nodeId ← (ld.fromSlice req.trampolineNodeId).mapError fun e =>
    ((Error.new invalidNodeId ("Got an invalid node id: " ++ e)).withHint
      "A node id must be exactly 33 bytes (66 hex characters)").withSource e
  env.connect.mapError fun e => Error.new networkError ("Couldn't connect to core-lightning node: " ++ e)
  let decoded ← (ld.decodepay req.bolt11).mapError Error.fromRpc
  env.listsendpays.mapError Error.fromRpc
  return (nodeId, decoded, Tramp.listsendpays payments decoded.paymentHash)

/-- The answer for a payment that is already there. -/
def waitForExisting (payments : List SendPay) (paymentHash : Bytes) : Except TrampolineError PayResponse := do
  let resp ← (ld.waitsendpay payments ⟨paymentHash, none, none⟩).mapError Error.fromRpc
  match resp.paymentPreimage with
  | none => throw (.new missingPreimage "Got completed payment part without preimage")
  | some preimage =>
    return {
      amountMsat := resp.amountMsat.getD 0
      amountSentMsat := resp.amountSentMsat
      destination := resp.destination
      parts := match resp.partid with
        | some 0 => 1
        | some partid => partid % 2 ^ 32
        | none => 1
      paymentHash := resp.paymentHash
      paymentPreimage := preimage }

/-- What a call has when it comes to send. -/
structure Prepared where
  tlvAmountMsat : UInt64
  amountMsat : UInt64
  alloc : List ChannelContribution
  groupId : UInt64

/-- The value of a sum, or the panic. -/
def orPanic {T : Type} (r : Option T) : Except PayFailure T := r.elim (.error .panic) .ok

/-- The allocation, or that the funds are insufficient. -/
def splitAmount (channels : List Channel) (amountMsat : UInt64) : Except PayFailure (List ChannelContribution) :=
  match allocate channels amountMsat.toNat with
  | some alloc => .ok alloc
  | none => do
    let available ← orPanic (sumU64 build (channels.map fun ch => UInt64.ofNat ch.spendableMsat))
    throw (.error (.new insufficientFunds ("Insufficient funds, " ++ toString amountMsat ++
      "msat are required, current maximal available " ++ toString available ++ "msat")))

/-- From the wait for the peer to the number of the new group. -/
def prepare (nodeId : PublicKey) (decoded : Decodepay) (maxGroupId : UInt64) : Except PayFailure Prepared := do
  (Awaitables.ensurePeerConnection nodeId env.peer).mapError (.error ∘ peerError)
  let peers ← env.listpeers.mapError (.error ∘ Error.fromRpc)
  let features ← (peerFeatures (hexEncode nodeId) peers).mapError .error
  (featureGuard features trampolineFeatureBit).mapError .error
  let tlvAmountMsat ← (payAmount (asOption req.amountMsat) decoded.amountMsat).mapError .error
  let amountMsat ← orPanic (addU64 build tlvAmountMsat (overpay tlvAmountMsat req.maxfeepercent))
  let channels := payChannels (← env.listpeerchannels.mapError (.error ∘ Error.fromRpc))
  if channels.isEmpty then
    throw (.error ((Error.new missingChannel "No active and usable channelt to trampoline node found").withHint
      ("In order to execute a trampoline payment, you heed to share a channel with the trampoline node that " ++
        "has a usable outgoing balance")))
  -- the join is ready at its first poll
  let channels := match (reestablishedChannels nodeId env.deadline channels env.channelWorld
      (unpolled channels)).1 with
    | .ready channels => channels
    | .pending => []
  let alloc ← splitAmount build channels amountMsat
  env.preapproveinvoice.mapError (.error ∘ Error.fromRpc)
  return ⟨tlvAmountMsat, amountMsat, alloc, ← orPanic (addU64 build maxGroupId 1)⟩

/-- The onion payload for the trampoline node: the invoice and the amount. -/
def payPayload (tlvAmountMsat : UInt64) : Fallible SerializedTlvStream := do
  let payload ← SerializedTlvStream.new.setBytes tlvBolt11 (utf8 req.bolt11)
  payload.setTu64 tlvAmtMsat tlvAmountMsat

/-- The task of one part up to its `sendpay`. -/
def sendPart (nodeId : PublicKey) (decoded : Decodepay) (plan : Prepared) (part : ChannelContribution × ℕ) :
    Except TrampolineError SendPay := do
  match decoded.paymentSecret with
  | none => throw (.new invalidInvoice "The invoice is invalid, missing payment secret")
  | some paymentSecret =>
    let status ← (env.sendpay {
      route := [⟨part.1.contribMsat, nodeId, (asOption req.maxdelay).getD maxDelayDefault,
        part.1.channel.shortChannelId⟩]
      paymentHash := decoded.paymentHash
      label := asOption req.label
      amountMsat := some plan.amountMsat
      bolt11 := some req.bolt11
      paymentSecret := some paymentSecret
      partid := some part.2
      groupid := some plan.groupId
      description := decoded.description
      paymentMetadata := (payPayload req plan.tlvAmountMsat).toOption.map fun s => hexEncode s.toBytes }).mapError
      Error.fromRpc
    return ⟨decoded.paymentHash, plan.groupId, part.2, status⟩

/-- The errors of `waitsendpay` in `do_pay`. -/
def doPayError (e : RpcError) : TrampolineError :=
  let unparsable := .new peerNodeFailure "Got unparsable onion code from peer"
  match e.code with
  | some code => if code = 202 then unparsable else .fromRpc e
  | none => if e.message = "Malformed error reply" then unparsable else .fromRpc e

/-- The rest of the task: it waits for its part. -/
def waitPart (payments : List SendPay) (part : Except TrampolineError SendPay) :
    Except TrampolineError WaitsendpayResponse := do
  let p ← part
  (ld.waitsendpay payments ⟨p.paymentHash, some p.groupid, some p.partid⟩).mapError doPayError

/-- The loop over the results: the first error, or the last preimage. -/
def joinParts : List (Except TrampolineError WaitsendpayResponse) → Option Bytes →
    Except TrampolineError (Option Bytes)
  | [], preimage => .ok preimage
  | result :: results, preimage => do
    let response ← result
    joinParts results (response.paymentPreimage.or preimage)

def connectError : Except String Unit → Option String
  | .error e => some e
  | .ok _ => none

/-- The parts of an allocation: a connection for each, then its task.  A connection that fails ends the call;
the tasks before it go on. -/
def sendParts (payments : List SendPay) (nodeId : PublicKey) (decoded : Decodepay) (plan : Prepared) :
    Except TrampolineError PayResponse × List SendPay :=
  let parts := plan.alloc.zip (partIds plan.alloc.length)
  let started := parts.takeWhile fun part => (env.partConnect part.2).toOption.isSome
  let tasks := started.map (sendPart env req nodeId decoded plan)
  let sent := tasks.filterMap Except.toOption
  match parts.findSome? fun part => connectError (env.partConnect part.2) with
  | some e => (.error (.new networkError ("Couldn't connect to core-lightning node: " ++ e)), sent)
  | none =>
    (do match ← joinParts (tasks.map (waitPart ld (payments ++ sent))) none with
      | some paymentPreimage =>
        return {
          amountMsat := plan.amountMsat
          amountSentMsat := plan.amountMsat
          destination := some decoded.payee
          parts := plan.alloc.length % 2 ^ 32
          paymentHash := decoded.paymentHash
          paymentPreimage := paymentPreimage }
      | none => throw (.new paymentFailure "Payment failed, missing payment preimage"), sent)

/-- `trampolinepay`, on the parts that lightningd has: the result and the parts that are sent. -/
def trampolinepay (payments : List SendPay) : Except PayFailure PayResponse × List SendPay :=
  match lookUp ld env req payments with
  | .error e => (.error (.error e), [])
  | .ok (nodeId, decoded, sendPays) =>
    if sendPays.any (·.status ≠ .failed) then
      ((waitForExisting ld payments decoded.paymentHash).mapError .error, [])
    else
      match prepare build env req nodeId decoded (maxGroupId payments decoded.paymentHash) with
      | .error e => (.error e, [])
      | .ok plan =>
        let outcome := sendParts ld env req payments nodeId decoded plan
        (outcome.1.mapError .error, outcome.2)

end Call

end Greenlight.Tramp
