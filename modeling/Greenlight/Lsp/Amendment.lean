import Greenlight.Lsp.Totals
import Greenlight.Plugin.TlvMap
import Greenlight.Plugin.TlvStreams

/-!
# The amended payload

What the hook does to the bytes of a payload, from the text in its request to the text in its answer.  The
payload that is read is found in the request by its field or its position (`payload_of_requestOfJson`); the two
updates and the encoding give a canonical stream again, whose records other than the forwarded amount and the
payment secret are those of the payload (`amendment_preserves`).
-/

namespace Greenlight.Lsp

open Greenlight.Lib Greenlight.Plugin Greenlight.Plugin.SerializedTlvStream

/-- The number in big-endian bytes, the first of them not zero. -/
def Truncated (b : Bytes) (n : UInt64) : Prop := beNat b = n.toNat ∧ b.head? ≠ some 0

/-- The records of a payload, but for the forwarded amount and the payment secret. -/
def others (es : List TlvEntry) : List TlvEntry :=
  es.filter fun e => e.typ != tlvForwardAmt && e.typ != tlvPaymentSecret

/-- The records `es'` are those of `es` with the two amounts put in; the payment secret was `secret`. -/
structure Amended (es es' : List TlvEntry) (secret : Bytes) (htlcAmt totalMsat : UInt64) : Prop where
  forward : ∃ amt, Truncated amt htlcAmt ∧ TlvEntry.mk tlvForwardAmt amt ∈ es'
  secret : ∃ total, Truncated total totalMsat ∧ TlvEntry.mk tlvPaymentSecret (secret.take 32 ++ total) ∈ es'
  others : others es' = others es

theorem truncated_putTu64 (n : UInt64) : Truncated (putTu64 n) n := ⟨beNat_putTu64 n, head?_putTu64_ne n⟩

/-! ### The payload in the answer -/

theorem others_filter_ne (es : List TlvEntry) {typ : UInt64} (h : typ = tlvForwardAmt ∨ typ = tlvPaymentSecret) :
    others (es.filter (·.typ != typ)) = others es := by
  rw [others, others, List.filter_filter]
  refine List.filter_congr fun e _ => ?_
  rcases h with rfl | rfl <;> cases e.typ != tlvForwardAmt <;> cases e.typ != tlvPaymentSecret <;> rfl

theorem others_setBytes {s s' : SerializedTlvStream} {typ : UInt64} {val : Bytes} (hs : Increasing s.entries)
    (h : s.setBytes typ val = .ok s') (htyp : typ = tlvForwardAmt ∨ typ = tlvPaymentSecret) :
    others s'.entries = others s.entries := by
  have hstep : s.step (.setBytes typ val) = some s' := toOption_eq_some.2 h
  have hframe := (represents_of_increasing hs).step_frame hstep
  rw [← others_filter_ne s'.entries htyp, ← others_filter_ne s.entries htyp]
  exact congrArg others hframe

/-- **The amended payload keeps all other records**, for a request whose payload is in hex the length of a canonical
stream in order and the stream, and whose HTLC carries less than its onion says. -/
theorem amendment_preserves {cln : ClnPrimitives} {node : LspNode} {v : Json} {req : HtlcAcceptedRequest}
    {text : String} {body secret : Bytes} {es : List TlvEntry} {onionAmt totalMsat : UInt64}
    {invoices : List (Option UInt64)}
    (hreq : HtlcAcceptedRequest.ofJson cln v = .ok req)
    (hpayload : requestPayload v = some (.str text))
    (htext : hexDecode text = some (putCompactSize (UInt64.ofNat body.length) ++ body))
    (hbody : Canonical body es) (hincr : Increasing es)
    (hsecret : TlvEntry.mk tlvPaymentSecret secret ∈ es) (hlong : 32 ≤ secret.length)
    (hforward : req.onion.forwardMsat = some onionAmt) (hlt : req.htlc.amountMsat < onionAmt)
    (hconnect : node.connect = .ok ())
    (hinvoices : node.listinvoices (hexEncode req.htlc.paymentHash) = .ok invoices)
    (hhead : invoices.head? = some (some totalMsat)) :
    ∃ bytes es', onHtlcAccepted cln node v = .ok (HtlcAcceptedResponse.toValue ⟨"continue", some bytes⟩) ∧
      Canonical bytes es' ∧ Increasing es' ∧ fromBytes bytes = .ok ⟨es'⟩ ∧
      Amended es es' secret req.htlc.amountMsat totalMsat := by
  -- the payload that is read is the stream
  obtain ⟨payloadText, hat, hread⟩ := payload_of_requestOfJson hreq
  cases hpayload.symm.trans hat
  rw [payloadOfJson, ofHex_of_hexDecode htext, fromBytes_of_canonical hbody] at hread
  have hs : req.onion.payload.entries = es := (congrArg entries (Except.ok.inj hread)).symm
  rw [← hs] at hincr hsecret
  have hget : req.onion.payload.get tlvPaymentSecret = some ⟨tlvPaymentSecret, secret⟩ :=
    (mem_iff_get hincr).1 hsecret
  obtain ⟨payload, payload', hset, hamend, hanswer⟩ :=
    onHtlcAccepted_of_withheld hreq hforward hlt hget hlong hconnect hinvoices hhead
  -- what is written fits, and is in order
  have htu := length_putTu64_le req.htlc.amountMsat
  have htu' := length_putTu64_le totalMsat
  have hfits : payload.Fits := (fits_of_requestOfJson hreq).setBytes (by omega) hset
  have hfits' : payload'.Fits := hfits.setBytes (by simp only [List.length_append, List.length_take]; omega) hamend
  have hincr' : Increasing payload.entries := increasing_setBytes hincr hset
  have hincr'' : Increasing payload'.entries := increasing_setBytes hincr' hamend
  have hcanonical : Canonical payload'.toBytes payload'.entries := canonical_toBytes hfits'
  refine ⟨payload'.toBytes, payload'.entries, hanswer, hcanonical, hincr'', fromBytes_toBytes hfits', ?_⟩
  have hforward' : payload'.get tlvForwardAmt = some ⟨tlvForwardAmt, putTu64 req.htlc.amountMsat⟩ :=
    (get_setBytes_of_ne hamend (by decide)).trans (get_setBytes_self hset)
  refine ⟨⟨_, truncated_putTu64 _, (mem_iff_get hincr'').2 hforward'⟩,
    ⟨_, truncated_putTu64 _, (mem_iff_get hincr'').2 (get_setBytes_self hamend)⟩, ?_⟩
  calc others payload'.entries = others payload.entries := others_setBytes hincr' hamend (Or.inr rfl)
    _ = others req.onion.payload.entries := others_setBytes hincr hset (Or.inl rfl)
    _ = others es := by rw [hs]

/-- A payload without a forwarded amount, and with a record of its own behind the payment secret. -/
def customPayload : List TlvEntry := [⟨4, [1]⟩, ⟨8, List.replicate 34 0x11⟩, ⟨33001, [7]⟩]

theorem amendment_preserves_custom : ∃ bytes es',
    onHtlcAccepted plainPrimitives invoiceNode (hookCall (delimited (toBytes ⟨customPayload⟩) []) 900 1000) =
      .ok (HtlcAcceptedResponse.toValue ⟨"continue", some bytes⟩) ∧
    Canonical bytes es' ∧ Increasing es' ∧ fromBytes bytes = .ok ⟨es'⟩ ∧
    Amended customPayload es' (List.replicate 34 0x11) 900 2900 := by
  have hreq : HtlcAcceptedRequest.ofJson plainPrimitives (hookCall (delimited (toBytes ⟨customPayload⟩) []) 900 1000)
      = .ok ⟨⟨⟨customPayload⟩, none, some 1000, none, [0x22], [0x00], none⟩, ⟨"1x1x1", 900, [0x11]⟩⟩ := rfl
  have htext := hexDecode_hexEncode
    (putCompactSize (UInt64.ofNat (toBytes ⟨customPayload⟩).length) ++ (toBytes ⟨customPayload⟩ ++ []))
  rw [List.append_nil] at htext
  exact amendment_preserves hreq rfl htext (canonical_toBytes (by decide)) (by decide) (by decide) (by decide) rfl
    (by decide) rfl rfl rfl

end Greenlight.Lsp
