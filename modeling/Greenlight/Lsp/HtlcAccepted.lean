import Mathlib.Algebra.Ring.Int.Defs
import Greenlight.Plugin.Tlv
import Greenlight.Util.Error

/-!
# The HTLC hook of the LSP plugin

`on_htlc_accepted` of `lsp.rs`: the request is deserialized, and if the HTLC carries less than its onion says,
the payload is amended to the amount of the HTLC and the amount of the invoice.  The `unwrap_or_continue` of
the source turns errors into the answer `continue`; the texts that it logs are left out.  The derived
deserializers visit an object field by field in the order of its map, and an array by position; the types of
`cln_rpc` in them are parameters.
-/

namespace Greenlight.Lsp

open Greenlight.Lib Greenlight.Plugin Greenlight.Util

/-- A JSON value; the fields of an object are in the order in which its map is visited. -/
inductive Json where
  | null
  | bool (b : Bool)
  | int (n : ℤ)
  | float (text : String)
  | str (s : String)
  | arr (values : List Json)
  | obj (fields : List (String × Json))

/-- How `Amount` and `ShortChannelId` are deserialized; amounts are millisatoshi. -/
structure ClnPrimitives where
  amount : Json → Option UInt64
  shortChannelId : Json → Option String

/-! ### Deserialization -/

def orError {α : Type} : Option α → Fallible α
  | none => .error .error
  | some a => .ok a

/-- `Option<T>`. -/
def optional {α : Type} (de : Json → Option α) : Json → Fallible (Option α)
  | .null => .ok none
  | v => orError ((de v).map some)

def u32 : Json → Option ℕ
  | .int n => if 0 ≤ n ∧ n < 2 ^ 32 then some n.toNat else none
  | _ => none

def fromHex : Json → Fallible Bytes
  | .str s => orError (hexDecode s)
  | _ => .error .error

def payloadOfJson : Json → Fallible SerializedTlvStream
  | .str s => SerializedTlvStream.ofHex s
  | _ => .error .error

/-- A field of a struct is set once. -/
def fill {α : Type} (slot : Option α) (v : Fallible α) : Fallible (Option α) :=
  if slot.isSome then .error .error else do return some (← v)

def next {α : Type} (de : Json → Fallible α) : List Json → Fallible (α × List Json)
  | [] => .error .error
  | v :: l => do return (← de v, l)

structure Onion where
  payload : SerializedTlvStream
  shortChannelId : Option String
  forwardMsat : Option UInt64
  outgoingCltvValue : Option ℕ
  sharedSecret : Bytes
  nextOnion : Bytes
  totalMsat : Option UInt64

/-- The fields of an onion that have been visited. -/
structure OnionFields where
  payload : Option SerializedTlvStream
  shortChannelId : Option (Option String)
  forwardMsat : Option (Option UInt64)
  outgoingCltvValue : Option (Option ℕ)
  sharedSecret : Option Bytes
  nextOnion : Option Bytes
  totalMsat : Option (Option UInt64)

structure Htlc where
  shortChannelId : String
  amountMsat : UInt64
  paymentHash : Bytes

structure HtlcFields where
  shortChannelId : Option String
  amountMsat : Option UInt64
  paymentHash : Option Bytes

structure HtlcAcceptedRequest where
  onion : Onion
  htlc : Htlc

structure RequestFields where
  onion : Option Onion
  htlc : Option Htlc

section Deserialize

variable (cln : ClnPrimitives)

def OnionFields.empty : OnionFields := ⟨none, none, none, none, none, none, none⟩

/-- One field of the object; an unknown one is ignored. -/
def OnionFields.visit (f : OnionFields) (field : String × Json) : Fallible OnionFields :=
  if field.1 = "payload" then
    return { f with payload := ← fill f.payload (payloadOfJson field.2) }
  else if field.1 = "short_channel_id" then
    return { f with shortChannelId := ← fill f.shortChannelId (optional cln.shortChannelId field.2) }
  else if field.1 = "forward_msat" then
    return { f with forwardMsat := ← fill f.forwardMsat (optional cln.amount field.2) }
  else if field.1 = "outgoing_cltv_value" then
    return { f with outgoingCltvValue := ← fill f.outgoingCltvValue (optional u32 field.2) }
  else if field.1 = "shared_secret" then
    return { f with sharedSecret := ← fill f.sharedSecret (fromHex field.2) }
  else if field.1 = "next_onion" then
    return { f with nextOnion := ← fill f.nextOnion (fromHex field.2) }
  else if field.1 = "total_msat" then
    return { f with totalMsat := ← fill f.totalMsat (optional cln.amount field.2) }
  else return f

/-- The struct, once the object has been visited; a missing `Option` is `None`. -/
def OnionFields.finish (f : OnionFields) : Fallible Onion := do
  return {
    payload := ← orError f.payload
    shortChannelId := f.shortChannelId.getD none
    forwardMsat := f.forwardMsat.getD none
    outgoingCltvValue := f.outgoingCltvValue.getD none
    sharedSecret := ← orError f.sharedSecret
    nextOnion := ← orError f.nextOnion
    totalMsat := f.totalMsat.getD none }

/-- The fields by position, after the payload. -/
def Onion.ofTail (payload : SerializedTlvStream) (l : List Json) : Fallible Onion := do
  let (shortChannelId, l) ← next (optional cln.shortChannelId) l
  let (forwardMsat, l) ← next (optional cln.amount) l
  let (outgoingCltvValue, l) ← next (optional u32) l
  let (sharedSecret, l) ← next fromHex l
  let (nextOnion, l) ← next fromHex l
  let (totalMsat, l) ← next (optional cln.amount) l
  if l.isEmpty then
    return ⟨payload, shortChannelId, forwardMsat, outgoingCltvValue, sharedSecret, nextOnion, totalMsat⟩
  else throw .error

def Onion.ofJson : Json → Fallible Onion
  | .obj fields => do (← fields.foldlM (OnionFields.visit cln) OnionFields.empty).finish
  | .arr l => do
    let (payload, l) ← next payloadOfJson l
    Onion.ofTail cln payload l
  | _ => .error .error

def HtlcFields.visit (f : HtlcFields) (field : String × Json) : Fallible HtlcFields :=
  if field.1 = "short_channel_id" then
    return { f with shortChannelId := ← fill f.shortChannelId (orError (cln.shortChannelId field.2)) }
  else if field.1 = "amount_msat" then
    return { f with amountMsat := ← fill f.amountMsat (orError (cln.amount field.2)) }
  else if field.1 = "payment_hash" then
    return { f with paymentHash := ← fill f.paymentHash (fromHex field.2) }
  else return f

def HtlcFields.finish (f : HtlcFields) : Fallible Htlc := do
  return {
    shortChannelId := ← orError f.shortChannelId
    amountMsat := ← orError f.amountMsat
    paymentHash := ← orError f.paymentHash }

def Htlc.ofJson : Json → Fallible Htlc
  | .obj fields => do (← fields.foldlM (HtlcFields.visit cln) ⟨none, none, none⟩).finish
  | .arr l => do
    let (shortChannelId, l) ← next (fun v => orError (cln.shortChannelId v)) l
    let (amountMsat, l) ← next (fun v => orError (cln.amount v)) l
    let (paymentHash, l) ← next fromHex l
    if l.isEmpty then return ⟨shortChannelId, amountMsat, paymentHash⟩ else throw .error
  | _ => .error .error

def RequestFields.visit (f : RequestFields) (field : String × Json) : Fallible RequestFields :=
  if field.1 = "onion" then return { f with onion := ← fill f.onion (Onion.ofJson cln field.2) }
  else if field.1 = "htlc" then return { f with htlc := ← fill f.htlc (Htlc.ofJson cln field.2) }
  else return f

def RequestFields.finish (f : RequestFields) : Fallible HtlcAcceptedRequest := do
  return { onion := ← orError f.onion, htlc := ← orError f.htlc }

/-- `serde_json::from_value`. -/
def HtlcAcceptedRequest.ofJson : Json → Fallible HtlcAcceptedRequest
  | .obj fields => do (← fields.foldlM (RequestFields.visit cln) ⟨none, none⟩).finish
  | .arr l => do
    let (onion, l) ← next (Onion.ofJson cln) l
    let (htlc, l) ← next (Htlc.ofJson cln) l
    if l.isEmpty then return ⟨onion, htlc⟩ else throw .error
  | _ => .error .error

end Deserialize

/-! ### The hook -/

structure HtlcAcceptedResponse where
  result : String
  payload : Option Bytes
  deriving DecidableEq, Repr

/-- `serde_json::to_value`; the payload is left out if there is none. -/
def HtlcAcceptedResponse.toValue (r : HtlcAcceptedResponse) : Json :=
  .obj ((match r.payload with
    | none => []
    | some payload => [("payload", .str (hexEncode payload))]) ++ [("result", .str r.result)])

/-- What the node answers: the connection to its socket, and `listinvoices` for a payment hash in hex with the
amounts of the invoices. -/
structure LspNode where
  connect : Except String Unit
  listinvoices : String → Except RpcError (List (Option UInt64))

/-- An error of the connection or of a call. -/
inductive RpcFailure where
  | connect (reason : String)
  | call (e : RpcError)

inductive HookOutcome where
  | ok (v : Json)
  | err (e : RpcFailure)
  | panic

def tlvForwardAmt : UInt64 := 2

def tlvPaymentSecret : UInt64 := 8

/-- The answer without a payload. -/
def HookOutcome.continued : HookOutcome := .ok (HtlcAcceptedResponse.toValue ⟨"continue", none⟩)

/-- The amended payload: the first 32 bytes of the payment secret record with the amount of the invoice. -/
def amendSecret (payload : SerializedTlvStream) (paymentSecret : TlvEntry) (totalMsat : UInt64) : HookOutcome :=
  if paymentSecret.value.length < 32 then .panic
  else
    match payload.setBytes tlvPaymentSecret (paymentSecret.value.take 32 ++ putTu64 totalMsat) with
    | .error _ => .panic
    | .ok payload => .ok (HtlcAcceptedResponse.toValue ⟨"continue", some payload.toBytes⟩)

/-- The part of the hook that asks the node for the invoice. -/
def amendFromInvoice (node : LspNode) (paymentHash : Bytes) (payload : SerializedTlvStream)
    (paymentSecret : TlvEntry) : HookOutcome :=
  match node.connect with
  | .error e => .err (.connect e)
  | .ok _ =>
    match node.listinvoices (hexEncode paymentHash) with
    | .error e => .err (.call e)
    | .ok invoices =>
      match invoices.head? with
      | none => .continued
      | some none => .continued
      | some (some totalMsat) => amendSecret payload paymentSecret totalMsat

/-- The hook on a deserialized request. -/
def handleRequest (node : LspNode) (req : HtlcAcceptedRequest) : HookOutcome :=
  match req.onion.forwardMsat with
  | none => .continued
  | some onionAmt =>
    if req.htlc.amountMsat < onionAmt then
      match req.onion.payload.setTu64 tlvForwardAmt req.htlc.amountMsat with
      | .error _ => .panic
      | .ok payload =>
        match payload.get tlvPaymentSecret with
        | none => .continued
        | some paymentSecret => amendFromInvoice node req.htlc.paymentHash payload paymentSecret
    else .continued

def onHtlcAccepted (cln : ClnPrimitives) (node : LspNode) (v : Json) : HookOutcome :=
  match HtlcAcceptedRequest.ofJson cln v with
  | .error .error => .continued
  | .error .panic => .panic
  | .ok req => handleRequest node req

/-! ### Calls of the hook -/

/-- Amounts as numbers, and channel ids as they are. -/
def plainPrimitives : ClnPrimitives where
  amount
    | .int n => if 0 ≤ n ∧ n < 2 ^ 64 then some (UInt64.ofNat n.toNat) else none
    | _ => none
  shortChannelId
    | .str s => some s
    | _ => none

/-- A hook call for an onion with the payload in hex. -/
def hookCall (payload : String) (amountMsat forwardMsat : ℤ) : Json :=
  .obj [("htlc", .obj [("amount_msat", .int amountMsat), ("payment_hash", .str "11"),
      ("short_channel_id", .str "1x1x1")]),
    ("onion", .obj [("forward_msat", .int forwardMsat), ("next_onion", .str "00"), ("payload", .str payload),
      ("shared_secret", .str "22")])]

end Greenlight.Lsp
