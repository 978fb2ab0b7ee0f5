import Greenlight.Lsp.Payload
import Greenlight.Plugin.Tu64

/-!
# The total that the parts of a JIT payment declare

Each HTLC of a payment goes through the hook by itself.  One that carries less than its onion says, because the
LSP has withheld a fee from it, gets the amount of the invoice as its total; the others keep the total of
their sender.  So after the hook all parts agree if none of them or every one of them was withheld from, or if
the sender declared the amount of the invoice in the first place, and in no other case (`totalsAgree_iff`).
-/

namespace Greenlight.Lsp

open Greenlight.Lib Greenlight.Plugin Greenlight.Plugin.SerializedTlvStream

/-- The `total_msat` of a payload: the truncated integer behind the 32 bytes of the payment secret. -/
def declaredTotal (payload : SerializedTlvStream) : Option ℕ :=
  match payload.get tlvPaymentSecret with
  | none => none
  | some e =>
    if 32 ≤ e.value.length ∧ e.value.length ≤ 40 then some (beNat (e.value.drop 32)) else none

def answeredPayload : Json → Option SerializedTlvStream
  | .obj (("payload", .str s) :: _) => (hexDecode s).bind fun b => (fromBytes b).toOption
  | _ => none

/-- The payload lightningd ends up with for a call: the one of the answer, or that of the onion. -/
def finalPayload (cln : ClnPrimitives) (node : LspNode) (v : Json) : Option SerializedTlvStream :=
  match onHtlcAccepted cln node v with
  | .ok answer =>
    match answeredPayload answer with
    | some payload => some payload
    | none => (HtlcAcceptedRequest.ofJson cln v).toOption.map (·.onion.payload)
  | _ => none

def finalTotal (cln : ClnPrimitives) (node : LspNode) (v : Json) : Option ℕ :=
  (finalPayload cln node v).bind declaredTotal

/-- The LSP has withheld a fee: the HTLC carries less than its onion says. -/
def Withheld (cln : ClnPrimitives) (v : Json) : Prop :=
  ∃ req onionAmt, HtlcAcceptedRequest.ofJson cln v = .ok req ∧ req.onion.forwardMsat = some onionAmt ∧
    req.htlc.amountMsat < onionAmt

/-- The calls of the hook for the HTLCs of one payment, whose onions declare one total, and for which the node
has an invoice with an amount. -/
structure JitPayment (cln : ClnPrimitives) (node : LspNode) (hash : Bytes) (declared : ℕ) (invoiceAmt : UInt64)
    (calls : List Json) : Prop where
  nonempty : calls ≠ []
  parts : ∀ v ∈ calls, ∃ req, HtlcAcceptedRequest.ofJson cln v = .ok req ∧ req.htlc.paymentHash = hash ∧
    declaredTotal req.onion.payload = some declared
  connected : node.connect = .ok ()
  invoice : ∃ invoices, node.listinvoices (hexEncode hash) = .ok invoices ∧
    invoices.head? = some (some invoiceAmt)

/-- All parts carry one total, and that of the invoice if a fee was withheld from one of them. -/
def TotalsAgree (cln : ClnPrimitives) (node : LspNode) (invoiceAmt : UInt64) (calls : List Json) : Prop :=
  (∃ total, ∀ v ∈ calls, finalTotal cln node v = some total) ∧
    ((∃ v ∈ calls, Withheld cln v) → ∀ v ∈ calls, finalTotal cln node v = some invoiceAmt.toNat)

/-! ### The total of one part -/

theorem length_le_of_declaredTotal {payload : SerializedTlvStream} {total : ℕ}
    (h : declaredTotal payload = some total) :
    ∃ e, payload.get tlvPaymentSecret = some e ∧ 32 ≤ e.value.length ∧ e.value.length ≤ 40 := by
  unfold declaredTotal at h
  cases he : payload.get tlvPaymentSecret with
  | none =>
    rw [he] at h
    cases h
  | some e =>
    rw [he] at h
    simp only [Option.ite_none_right_eq_some] at h
    exact ⟨e, rfl, h.1⟩

/-- A stream whose payment secret record has been amended declares the amount of the invoice. -/
theorem declaredTotal_setBytes {payload payload' : SerializedTlvStream} {secret : Bytes} {amt : UInt64}
    (hs : secret.length = 32) (h : payload.setBytes tlvPaymentSecret (secret ++ putTu64 amt) = .ok payload') :
    declaredTotal payload' = some amt.toNat := by
  have hlen := length_putTu64_le amt
  have hget := get_setBytes_self h
  have hdrop : (secret ++ putTu64 amt).drop 32 = putTu64 amt := by rw [← hs, List.drop_left]
  simp only [declaredTotal, hget, List.length_append, hs]
  rw [if_pos (by omega), hdrop, beNat_putTu64]

theorem answeredPayload_some {payload : SerializedTlvStream} (hf : payload.Fits) :
    answeredPayload (HtlcAcceptedResponse.toValue ⟨"continue", some payload.toBytes⟩) = some payload := by
  have hback : (fromBytes payload.toBytes).toOption = some payload := by
    rw [fromBytes_toBytes hf]
    rfl
  simp only [answeredPayload, HtlcAcceptedResponse.toValue, List.cons_append, hexDecode_hexEncode,
    Option.bind_some, hback]

theorem answeredPayload_none : answeredPayload (HtlcAcceptedResponse.toValue ⟨"continue", none⟩) = none := rfl

/-- The hook on a call for an HTLC that carries less than its onion says, and for which there is an invoice. -/
theorem onHtlcAccepted_of_withheld {cln : ClnPrimitives} {node : LspNode} {v : Json} {req : HtlcAcceptedRequest}
    {onionAmt totalMsat : UInt64} {secret : TlvEntry} {invoices : List (Option UInt64)}
    (hreq : HtlcAcceptedRequest.ofJson cln v = .ok req) (hforward : req.onion.forwardMsat = some onionAmt)
    (hlt : req.htlc.amountMsat < onionAmt) (hsecret : req.onion.payload.get tlvPaymentSecret = some secret)
    (hlong : 32 ≤ secret.value.length) (hconnect : node.connect = .ok ())
    (hinvoices : node.listinvoices (hexEncode req.htlc.paymentHash) = .ok invoices)
    (hhead : invoices.head? = some (some totalMsat)) :
    ∃ payload payload', req.onion.payload.setTu64 tlvForwardAmt req.htlc.amountMsat = .ok payload ∧
      payload.setBytes tlvPaymentSecret (secret.value.take 32 ++ putTu64 totalMsat) = .ok payload' ∧
      onHtlcAccepted cln node v = .ok (HtlcAcceptedResponse.toValue ⟨"continue", some payload'.toBytes⟩) := by
  obtain ⟨payload, hset⟩ := setBytes_eq_ok req.onion.payload tlvForwardAmt (putTu64 req.htlc.amountMsat)
  have hset' : req.onion.payload.setTu64 tlvForwardAmt req.htlc.amountMsat = .ok payload := hset
  have hget : payload.get tlvPaymentSecret = some secret :=
    (get_setBytes_of_ne hset (by decide)).trans hsecret
  obtain ⟨payload', hamend⟩ := setBytes_eq_ok payload tlvPaymentSecret (secret.value.take 32 ++ putTu64 totalMsat)
  refine ⟨payload, payload', hset', hamend, ?_⟩
  simp only [onHtlcAccepted, hreq, handleRequest, hforward, hlt, if_true, hset', hget, amendFromInvoice, hconnect,
    hinvoices, hhead, amendSecret, hlong.not_gt, if_false, hamend]

section Payment

variable {cln : ClnPrimitives} {node : LspNode} {hash : Bytes} {declared : ℕ} {invoiceAmt : UInt64}
  {calls : List Json} {v : Json}

theorem finalTotal_of_not_withheld (h : JitPayment cln node hash declared invoiceAmt calls) (hv : v ∈ calls)
    (hw : ¬ Withheld cln v) : finalTotal cln node v = some declared := by
  obtain ⟨req, hreq, -, hdecl⟩ := h.parts v hv
  have hcont : onHtlcAccepted cln node v = .continued := by
    simp only [onHtlcAccepted, hreq, handleRequest]
    cases hf : req.onion.forwardMsat with
    | none => rfl
    | some onionAmt =>
      have hlt : ¬ req.htlc.amountMsat < onionAmt := fun hlt => hw ⟨req, onionAmt, hreq, hf, hlt⟩
      simp only [hlt, if_false]
  simp only [finalTotal, finalPayload, hcont, HookOutcome.continued, answeredPayload_none, hreq]
  exact hdecl

theorem finalTotal_of_withheld (h : JitPayment cln node hash declared invoiceAmt calls) (hv : v ∈ calls)
    (hw : Withheld cln v) : finalTotal cln node v = some invoiceAmt.toNat := by
  obtain ⟨req, hreq, rfl, hdecl⟩ := h.parts v hv
  obtain ⟨req', onionAmt, hreq', hf, hlt⟩ := hw
  cases hreq.symm.trans hreq'
  obtain ⟨secret, hsecret, hlong, -⟩ := length_le_of_declaredTotal hdecl
  obtain ⟨invoices, hinv, hhead⟩ := h.invoice
  obtain ⟨payload, payload', hset, hamend, hanswer⟩ :=
    onHtlcAccepted_of_withheld hreq hf hlt hsecret hlong h.connected hinv hhead
  -- what was read fits, and so does what the hook writes
  have htu := length_putTu64_le req.htlc.amountMsat
  have htu' := length_putTu64_le invoiceAmt
  have hfits : payload.Fits := (fits_of_requestOfJson hreq).setBytes (by omega) hset
  have hfits' : payload'.Fits := hfits.setBytes (by simp only [List.length_append, List.length_take]; omega) hamend
  have htake : (secret.value.take 32).length = 32 := by
    rw [List.length_take]
    omega
  simp only [finalTotal, finalPayload, hanswer, answeredPayload_some hfits', Option.bind_some]
  exact declaredTotal_setBytes htake hamend

/-- **When the parts agree.**  The law holds exactly if no part was withheld from, or every part was, or the
sender declared the amount of the invoice. -/
theorem totalsAgree_iff (h : JitPayment cln node hash declared invoiceAmt calls) :
    TotalsAgree cln node invoiceAmt calls ↔
      (∀ v ∈ calls, ¬ Withheld cln v) ∨ (∀ v ∈ calls, Withheld cln v) ∨ declared = invoiceAmt.toNat := by
  constructor
  · intro hagree
    by_cases hnone : ∀ v ∈ calls, ¬ Withheld cln v
    · exact Or.inl hnone
    by_cases hall : ∀ v ∈ calls, Withheld cln v
    · exact Or.inr (Or.inl hall)
    · refine Or.inr (Or.inr ?_)
      -- a part that keeps its total meets one that gets the amount of the invoice
      simp only [not_forall, not_not, exists_prop] at hnone hall
      obtain ⟨v, hv, hw⟩ := hall
      have hkept := finalTotal_of_not_withheld h hv hw
      have hinvoice := hagree.2 hnone v hv
      exact Option.some.inj (hkept.symm.trans hinvoice)
  · rintro (hnone | hall | heq)
    · refine ⟨⟨declared, fun v hv => finalTotal_of_not_withheld h hv (hnone v hv)⟩, ?_⟩
      rintro ⟨v, hv, hw⟩
      exact absurd hw (hnone v hv)
    · have htotal : ∀ v ∈ calls, finalTotal cln node v = some invoiceAmt.toNat := fun v hv =>
        finalTotal_of_withheld h hv (hall v hv)
      exact ⟨⟨_, htotal⟩, fun _ => htotal⟩
    · have htotal : ∀ v ∈ calls, finalTotal cln node v = some invoiceAmt.toNat := by
        intro v hv
        by_cases hw : Withheld cln v
        · exact finalTotal_of_withheld h hv hw
        · exact heq ▸ finalTotal_of_not_withheld h hv hw
      exact ⟨⟨_, htotal⟩, fun _ => htotal⟩

end Payment

/-! ### Two parts, one of them withheld from -/

def invoiceNode : LspNode := ⟨.ok (), fun _ => .ok [some 2900]⟩

/-- Both senders declare 3000 millisatoshi; the LSP has kept 100 of the first part. -/
def splitCalls : List Json :=
  [hookCall "28020203e8082211111111111111111111111111111111111111111111111111111111111111110bb8" 900 1000,
    hookCall "28020207d0082211111111111111111111111111111111111111111111111111111111111111110bb8" 2000 2000]

theorem splitCalls_payment : JitPayment plainPrimitives invoiceNode [0x11] 3000 2900 splitCalls where
  nonempty := nofun
  parts := by
    intro v hv
    simp only [splitCalls, List.mem_cons, List.not_mem_nil, or_false] at hv
    rcases hv with rfl | rfl
    · exact ⟨_, rfl, rfl, rfl⟩
    · exact ⟨_, rfl, rfl, rfl⟩
  connected := rfl
  invoice := ⟨_, rfl, rfl⟩

theorem splitCalls_totalsAgree_iff : TotalsAgree plainPrimitives invoiceNode 2900 splitCalls ↔
    (∀ v ∈ splitCalls, ¬ Withheld plainPrimitives v) ∨ (∀ v ∈ splitCalls, Withheld plainPrimitives v) ∨
      3000 = (2900 : UInt64).toNat :=
  totalsAgree_iff splitCalls_payment

/-- After the hook one part says 2900 and the other 3000. -/
theorem totals_disagree : ¬ ∀ (cln : ClnPrimitives) (node : LspNode) (hash : Bytes) (declared : ℕ)
    (invoiceAmt : UInt64) (calls : List Json), JitPayment cln node hash declared invoiceAmt calls →
      TotalsAgree cln node invoiceAmt calls := by
  intro h
  obtain ⟨⟨total, htotal⟩, -⟩ := h _ _ _ _ _ _ splitCalls_payment
  have hfirst : finalTotal plainPrimitives invoiceNode (splitCalls.get ⟨0, by decide⟩) = some 2900 := by
    decide +kernel
  have hsecond : finalTotal plainPrimitives invoiceNode (splitCalls.get ⟨1, by decide⟩) = some 3000 := by
    decide +kernel
  have h₁ := hfirst.symm.trans (htotal _ (List.get_mem ..))
  have h₂ := hsecond.symm.trans (htotal _ (List.get_mem ..))
  cases h₁.trans h₂.symm

end Greenlight.Lsp
