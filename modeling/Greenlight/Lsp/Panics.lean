import Greenlight.Lsp.HtlcAccepted

/-!
# When the HTLC hook panics

The hook answers `continue` or passes on an error of the connection, unless it panics.  It panics in two
places.  The deserializer of the payload does on bytes that are not a length prefix and complete records
(`Framed`), if it comes to the payload at all: an error in a field that is visited before it ends the request
first (`RequestReaches`).  And the amendment slices 32 bytes from a payment secret record that may be shorter
(`SecretFits`).  `onHtlcAccepted_letsGoOn_iff` says that these are all.
-/

namespace Greenlight.Lsp

open Greenlight.Lib Greenlight.Plugin Greenlight.Plugin.SerializedTlvStream

/-- lightningd goes on with the HTLC, or the error is one of the connection to it. -/
def LetsGoOn (o : HookOutcome) : Prop :=
  (∃ payload, o = .ok (HtlcAcceptedResponse.toValue ⟨"continue", payload⟩)) ∨ ∃ e, o = .err e

/-- A length prefix, which counts for nothing, and a stream. -/
def Framed (b : Bytes) : Prop := ∃ p n rest es, CompactSize p n ∧ b = p ++ rest ∧ Stream rest es

/-- The deserializer of an onion comes to a payload that is the string `s`. -/
inductive OnionReaches (cln : ClnPrimitives) : Json → String → Prop
  | field {pre post : List (String × Json)} {s : String} {f : OnionFields} :
      pre.foldlM (OnionFields.visit cln) OnionFields.empty = .ok f → f.payload = none →
      OnionReaches cln (.obj (pre ++ ("payload", .str s) :: post)) s
  | first {s : String} {l : List Json} : OnionReaches cln (.arr (.str s :: l)) s

/-- The deserializer of a request comes to a payload that is the string `s`. -/
inductive RequestReaches (cln : ClnPrimitives) : Json → String → Prop
  | field {pre post : List (String × Json)} {onion : Json} {s : String} {f : RequestFields} :
      pre.foldlM (RequestFields.visit cln) ⟨none, none⟩ = .ok f → f.onion = none → OnionReaches cln onion s →
      RequestReaches cln (.obj (pre ++ ("onion", onion) :: post)) s
  | first {onion : Json} {s : String} {l : List Json} : OnionReaches cln onion s →
      RequestReaches cln (.arr (onion :: l)) s

/-- If the payload is to be amended, its payment secret record has the 32 bytes of a secret. -/
def SecretFits (node : LspNode) (req : HtlcAcceptedRequest) : Prop :=
  ∀ onionAmt secret invoices totalMsat, req.onion.forwardMsat = some onionAmt →
    req.htlc.amountMsat < onionAmt → req.onion.payload.get tlvPaymentSecret = some secret →
    node.connect = .ok () → node.listinvoices (hexEncode req.htlc.paymentHash) = .ok invoices →
    invoices.head? = some (some totalMsat) → 32 ≤ secret.value.length

/-! ### Deserialization of a payload -/

theorem ofHex_eq_panic_iff {s : String} : SerializedTlvStream.ofHex s = .error .panic ↔
    ∃ b, hexDecode s = some b ∧ ¬ Framed b := by
  unfold SerializedTlvStream.ofHex
  cases hs : hexDecode s with
  | none => exact ⟨nofun, nofun⟩
  | some b =>
    have hframed : (∃ s, (getCompactSize b >>= fun lb => fromBytes lb.2) = .ok s) ↔ Framed b := by
      constructor
      · rintro ⟨s, h⟩
        obtain ⟨⟨n, rest⟩, hn, hrest⟩ := bind_eq_ok.1 h
        obtain ⟨p, hp, hb⟩ := getCompactSize_eq_ok_iff.1 hn
        exact ⟨p, n, rest, s.entries, hp, hb, fromBytes_eq_ok_iff.1 hrest⟩
      · rintro ⟨p, n, rest, es, hp, rfl, hes⟩
        have hn : getCompactSize (p ++ rest) = .ok (n, rest) := getCompactSize_eq_ok_iff.2 ⟨p, hp, rfl⟩
        have hs : fromBytes rest = .ok ⟨es⟩ := fromBytes_eq_ok_iff.2 hes
        exact ⟨⟨es⟩, bind_eq_ok.2 ⟨(n, rest), hn, hs⟩⟩
    have hne : (getCompactSize b >>= fun lb => fromBytes lb.2) ≠ .error .error :=
      bind_ne_error (getCompactSize_ne_error b) fun _ _ => fromBytes_ne_error _
    have hpanic : (getCompactSize b >>= fun lb => fromBytes lb.2) = .error .panic ↔ ¬ Framed b := by
      rw [← hframed]
      cases hr : (getCompactSize b >>= fun lb => fromBytes lb.2) with
      | ok s => exact ⟨nofun, fun h => absurd ⟨s, rfl⟩ h⟩
      | error e =>
        cases e with
        | error => exact absurd hr hne
        | panic => exact ⟨fun _ => nofun, fun _ => rfl⟩
    constructor
    · intro h
      exact ⟨b, rfl, hpanic.1 h⟩
    · rintro ⟨b', hb', h⟩
      cases hb'
      exact hpanic.2 h

theorem payloadOfJson_eq_panic_iff {v : Json} : payloadOfJson v = .error .panic ↔
    ∃ s, v = .str s ∧ SerializedTlvStream.ofHex s = .error .panic := by
  cases v with
  | str s => exact ⟨fun h => ⟨s, rfl, h⟩, fun ⟨_, hs, h⟩ => by cases hs; exact h⟩
  | _ => exact ⟨nofun, nofun⟩

/-! ### The other fields -/

section NoPanic

variable {α β : Type} {x : Fallible α}

theorem bind_ne_panic {f : α → Fallible β} (hx : x ≠ .error .panic) (hf : ∀ a, f a ≠ .error .panic) :
    (x >>= f) ≠ .error .panic :=
  bind_ne_error hx fun a _ => hf a

theorem orError_ne_panic (a : Option α) : orError a ≠ .error .panic := by
  cases a <;> exact nofun

theorem optional_ne_panic (de : Json → Option α) (v : Json) : optional de v ≠ .error .panic := by
  cases v with
  | null => exact nofun
  | _ => exact orError_ne_panic _

theorem fromHex_ne_panic (v : Json) : fromHex v ≠ .error .panic := by
  cases v with
  | str s => exact orError_ne_panic _
  | _ => exact nofun

theorem fill_eq_panic_iff {slot : Option α} : fill slot x = .error .panic ↔ slot = none ∧ x = .error .panic := by
  cases slot with
  | some a => exact ⟨nofun, nofun⟩
  | none =>
    constructor
    · intro h
      rcases bind_eq_error.1 h with h | ⟨a, -, h⟩
      · exact ⟨rfl, h⟩
      · cases h
    · rintro ⟨-, rfl⟩
      rfl

theorem fill_ne_panic (slot : Option α) (hx : x ≠ .error .panic) : fill slot x ≠ .error .panic := fun h =>
  hx (fill_eq_panic_iff.1 h).2

theorem next_eq_panic_iff {de : Json → Fallible α} {l : List Json} : next de l = .error .panic ↔
    ∃ v l', l = v :: l' ∧ de v = .error .panic := by
  cases l with
  | nil => exact ⟨nofun, nofun⟩
  | cons v l =>
    constructor
    · intro h
      rcases bind_eq_error.1 h with h | ⟨a, -, h⟩
      · exact ⟨v, l, rfl, h⟩
      · cases h
    · rintro ⟨v', l', hl, h⟩
      cases hl
      exact bind_eq_error.2 (Or.inl h)

theorem next_ne_panic {de : Json → Fallible α} (hde : ∀ v, de v ≠ .error .panic) (l : List Json) :
    next de l ≠ .error .panic := by
  intro h
  obtain ⟨v, l', -, hv⟩ := next_eq_panic_iff.1 h
  exact hde v hv

theorem last_ne_panic (b : Bool) (a : α) :
    (if b then return a else throw .error : Fallible α) ≠ .error .panic := by
  cases b <;> exact nofun

end NoPanic

section Deserialize

variable {cln : ClnPrimitives}

theorem onionVisit_eq_panic_iff {f : OnionFields} {field : String × Json} :
    f.visit cln field = .error .panic ↔
      field.1 = "payload" ∧ f.payload = none ∧ payloadOfJson field.2 = .error .panic := by
  unfold OnionFields.visit
  by_cases hpayload : field.1 = "payload"
  · rw [if_pos hpayload]
    constructor
    · intro h
      rcases bind_eq_error.1 h with h | ⟨a, -, h⟩
      · exact ⟨hpayload, fill_eq_panic_iff.1 h⟩
      · cases h
    · rintro ⟨-, hf⟩
      exact bind_eq_error.2 (Or.inl (fill_eq_panic_iff.2 hf))
  · rw [if_neg hpayload]
    refine ⟨fun h => absurd h ?_, fun h => absurd h.1 hpayload⟩
    split
    · exact bind_ne_panic (fill_ne_panic _ (optional_ne_panic _ _)) nofun
    split
    · exact bind_ne_panic (fill_ne_panic _ (optional_ne_panic _ _)) nofun
    split
    · exact bind_ne_panic (fill_ne_panic _ (optional_ne_panic _ _)) nofun
    split
    · exact bind_ne_panic (fill_ne_panic _ (fromHex_ne_panic _)) nofun
    split
    · exact bind_ne_panic (fill_ne_panic _ (fromHex_ne_panic _)) nofun
    split
    · exact bind_ne_panic (fill_ne_panic _ (optional_ne_panic _ _)) nofun
    · exact nofun

theorem onionFinish_ne_panic (f : OnionFields) : f.finish ≠ .error .panic := by
  unfold OnionFields.finish
  refine bind_ne_panic (orError_ne_panic _) fun _ => ?_
  refine bind_ne_panic (orError_ne_panic _) fun _ => ?_
  exact bind_ne_panic (orError_ne_panic _) nofun

theorem onionTail_ne_panic (payload : SerializedTlvStream) (l : List Json) :
    Onion.ofTail cln payload l ≠ .error .panic := by
  unfold Onion.ofTail
  refine bind_ne_panic (next_ne_panic (optional_ne_panic _) _) fun _ => ?_
  refine bind_ne_panic (next_ne_panic (optional_ne_panic _) _) fun _ => ?_
  refine bind_ne_panic (next_ne_panic (optional_ne_panic _) _) fun _ => ?_
  refine bind_ne_panic (next_ne_panic fromHex_ne_panic _) fun _ => ?_
  refine bind_ne_panic (next_ne_panic fromHex_ne_panic _) fun _ => ?_
  refine bind_ne_panic (next_ne_panic (optional_ne_panic _) _) fun _ => last_ne_panic _ _

theorem onionOfJson_eq_panic_iff {v : Json} : Onion.ofJson cln v = .error .panic ↔
    ∃ s, OnionReaches cln v s ∧ SerializedTlvStream.ofHex s = .error .panic := by
  constructor
  · intro h
    cases v with
    | obj fields =>
      rcases bind_eq_error.1 h with h | ⟨f, -, h⟩
      -- the fields are visited in order up to the one that panics
      · obtain ⟨pre, ⟨key, value⟩, post, f, rfl, hpre, hvisit⟩ := foldlM_eq_error_iff.1 h
        obtain ⟨rfl, hnone, hpayload⟩ := onionVisit_eq_panic_iff.1 hvisit
        obtain ⟨s, rfl, hs⟩ := payloadOfJson_eq_panic_iff.1 hpayload
        exact ⟨s, .field hpre hnone, hs⟩
      · exact absurd h (onionFinish_ne_panic f)
    | arr l =>
      rcases bind_eq_error.1 h with h | ⟨⟨payload, l⟩, -, h⟩
      · obtain ⟨v, l', rfl, hv⟩ := next_eq_panic_iff.1 h
        obtain ⟨s, rfl, hs⟩ := payloadOfJson_eq_panic_iff.1 hv
        exact ⟨s, .first, hs⟩
      · exact absurd h (onionTail_ne_panic payload l)
    | _ => cases h
  · rintro ⟨s, hreach, hs⟩
    have hpayload : payloadOfJson (.str s) = .error .panic := hs
    cases hreach with
    | @field pre post _ f hpre hnone =>
      refine bind_eq_error.2 (Or.inl (foldlM_eq_error_iff.2 ⟨pre, _, post, f, rfl, hpre, ?_⟩))
      exact onionVisit_eq_panic_iff.2 ⟨rfl, hnone, hpayload⟩
    | first => exact bind_eq_error.2 (Or.inl (next_eq_panic_iff.2 ⟨_, _, rfl, hpayload⟩))

theorem htlcOfJson_ne_panic (v : Json) : Htlc.ofJson cln v ≠ .error .panic := by
  cases v with
  | obj fields =>
    intro h
    rcases bind_eq_error.1 h with h | ⟨f, -, h⟩
    · obtain ⟨pre, field, post, f, -, -, hvisit⟩ := foldlM_eq_error_iff.1 h
      revert hvisit
      unfold HtlcFields.visit
      split
      · exact bind_ne_panic (fill_ne_panic _ (orError_ne_panic _)) nofun
      split
      · exact bind_ne_panic (fill_ne_panic _ (orError_ne_panic _)) nofun
      split
      · exact bind_ne_panic (fill_ne_panic _ (fromHex_ne_panic _)) nofun
      · exact nofun
    · revert h
      unfold HtlcFields.finish
      refine bind_ne_panic (orError_ne_panic _) fun _ => ?_
      refine bind_ne_panic (orError_ne_panic _) fun _ => ?_
      exact bind_ne_panic (orError_ne_panic _) nofun
  | arr l =>
    refine bind_ne_panic (next_ne_panic (fun _ => orError_ne_panic _) _) fun _ => ?_
    refine bind_ne_panic (next_ne_panic (fun _ => orError_ne_panic _) _) fun _ => ?_
    refine bind_ne_panic (next_ne_panic fromHex_ne_panic _) fun _ => last_ne_panic _ _
  | _ => exact nofun

theorem requestVisit_eq_panic_iff {f : RequestFields} {field : String × Json} :
    f.visit cln field = .error .panic ↔
      field.1 = "onion" ∧ f.onion = none ∧ Onion.ofJson cln field.2 = .error .panic := by
  unfold RequestFields.visit
  by_cases honion : field.1 = "onion"
  · rw [if_pos honion]
    constructor
    · intro h
      rcases bind_eq_error.1 h with h | ⟨a, -, h⟩
      · exact ⟨honion, fill_eq_panic_iff.1 h⟩
      · cases h
    · rintro ⟨-, hf⟩
      exact bind_eq_error.2 (Or.inl (fill_eq_panic_iff.2 hf))
  · rw [if_neg honion]
    refine ⟨fun h => absurd h ?_, fun h => absurd h.1 honion⟩
    split
    · exact bind_ne_panic (fill_ne_panic _ (htlcOfJson_ne_panic _)) nofun
    · exact nofun

/-- **The deserializer panics exactly on a payload that it comes to and that is not framed.** -/
theorem requestOfJson_eq_panic_iff {v : Json} : HtlcAcceptedRequest.ofJson cln v = .error .panic ↔
    ∃ s b, RequestReaches cln v s ∧ hexDecode s = some b ∧ ¬ Framed b := by
  have hmain : HtlcAcceptedRequest.ofJson cln v = .error .panic ↔
      ∃ s, RequestReaches cln v s ∧ SerializedTlvStream.ofHex s = .error .panic := by
    constructor
    · intro h
      cases v with
      | obj fields =>
        rcases bind_eq_error.1 h with h | ⟨f, -, h⟩
        · obtain ⟨pre, ⟨key, value⟩, post, f, rfl, hpre, hvisit⟩ := foldlM_eq_error_iff.1 h
          obtain ⟨rfl, hnone, honion⟩ := requestVisit_eq_panic_iff.1 hvisit
          obtain ⟨s, hs, hpanic⟩ := onionOfJson_eq_panic_iff.1 honion
          exact ⟨s, .field hpre hnone hs, hpanic⟩
        · revert h
          unfold RequestFields.finish
          intro h
          refine absurd h (bind_ne_panic (orError_ne_panic _) fun _ => ?_)
          exact bind_ne_panic (orError_ne_panic _) nofun
      | arr l =>
        rcases bind_eq_error.1 h with h | ⟨⟨onion, l⟩, -, h⟩
        · obtain ⟨v, l', rfl, hv⟩ := next_eq_panic_iff.1 h
          obtain ⟨s, hs, hpanic⟩ := onionOfJson_eq_panic_iff.1 hv
          exact ⟨s, .first hs, hpanic⟩
        · exact absurd h (bind_ne_panic (next_ne_panic htlcOfJson_ne_panic _) fun _ => last_ne_panic _ _)
      | _ => cases h
    · rintro ⟨s, hreach, hs⟩
      cases hreach with
      | @field pre post onion _ f hpre hnone honion =>
        refine bind_eq_error.2 (Or.inl (foldlM_eq_error_iff.2 ⟨pre, _, post, f, rfl, hpre, ?_⟩))
        exact requestVisit_eq_panic_iff.2 ⟨rfl, hnone, onionOfJson_eq_panic_iff.2 ⟨s, honion, hs⟩⟩
      | first honion =>
        have hpanic := onionOfJson_eq_panic_iff.2 ⟨s, honion, hs⟩
        exact bind_eq_error.2 (Or.inl (next_eq_panic_iff.2 ⟨_, _, rfl, hpanic⟩))
  rw [hmain]
  constructor
  · rintro ⟨s, hreach, hs⟩
    obtain ⟨b, hb, hframed⟩ := ofHex_eq_panic_iff.1 hs
    exact ⟨s, b, hreach, hb, hframed⟩
  · rintro ⟨s, b, hreach, hb, hframed⟩
    exact ⟨s, hreach, ofHex_eq_panic_iff.2 ⟨b, hb, hframed⟩⟩

end Deserialize

/-! ### The hook -/

theorem continued_letsGoOn : LetsGoOn .continued := Or.inl ⟨none, rfl⟩

theorem amendSecret_letsGoOn_iff {payload : SerializedTlvStream} {secret : TlvEntry} {totalMsat : UInt64} :
    LetsGoOn (amendSecret payload secret totalMsat) ↔ 32 ≤ secret.value.length := by
  unfold amendSecret
  split
  · rename_i hshort
    constructor
    · rintro (⟨_, h⟩ | ⟨_, h⟩) <;> cases h
    · omega
  · obtain ⟨payload', hset⟩ := setBytes_eq_ok payload tlvPaymentSecret (secret.value.take 32 ++ putTu64 totalMsat)
    rw [hset]
    exact ⟨fun _ => by omega, fun _ => Or.inl ⟨some payload'.toBytes, rfl⟩⟩

theorem amendFromInvoice_letsGoOn_iff {node : LspNode} {hash : Bytes} {payload : SerializedTlvStream}
    {secret : TlvEntry} : LetsGoOn (amendFromInvoice node hash payload secret) ↔
      ∀ invoices totalMsat, node.connect = .ok () → node.listinvoices (hexEncode hash) = .ok invoices →
        invoices.head? = some (some totalMsat) → 32 ≤ secret.value.length := by
  unfold amendFromInvoice
  cases hc : node.connect with
  | error e => exact ⟨fun _ => nofun, fun _ => Or.inr ⟨_, rfl⟩⟩
  | ok u =>
    cases hl : node.listinvoices (hexEncode hash) with
    | error e => exact ⟨fun _ => nofun, fun _ => Or.inr ⟨_, rfl⟩⟩
    | ok invoices =>
      rcases hh : invoices.head? with _ | _ | totalMsat
      · simp only [hh]
        refine iff_of_true continued_letsGoOn fun invoices' totalMsat _ hi ht => ?_
        cases hi
        cases hh.symm.trans ht
      · simp only [hh]
        refine iff_of_true continued_letsGoOn fun invoices' totalMsat _ hi ht => ?_
        cases hi
        cases hh.symm.trans ht
      · simp only [hh]
        rw [amendSecret_letsGoOn_iff]
        exact ⟨fun h _ _ _ _ _ => h, fun h => h invoices totalMsat trivial rfl hh⟩

theorem handleRequest_letsGoOn_iff {node : LspNode} {req : HtlcAcceptedRequest} :
    LetsGoOn (handleRequest node req) ↔ SecretFits node req := by
  unfold handleRequest SecretFits
  cases hf : req.onion.forwardMsat with
  | none => exact ⟨fun _ => nofun, fun _ => continued_letsGoOn⟩
  | some onionAmt =>
    by_cases hlt : req.htlc.amountMsat < onionAmt
    · simp only [hlt, if_true]
      obtain ⟨payload, hset⟩ := setBytes_eq_ok req.onion.payload tlvForwardAmt (putTu64 req.htlc.amountMsat)
      -- the amended amount is another record than the payment secret
      have hget : payload.get tlvPaymentSecret = req.onion.payload.get tlvPaymentSecret :=
        get_setBytes_of_ne hset (by decide)
      have hset' : req.onion.payload.setTu64 tlvForwardAmt req.htlc.amountMsat = .ok payload := hset
      rw [hset']
      simp only [hget]
      cases hs : req.onion.payload.get tlvPaymentSecret with
      | none => exact ⟨fun _ => nofun, fun _ => continued_letsGoOn⟩
      | some secret =>
        rw [amendFromInvoice_letsGoOn_iff]
        constructor
        · intro h onionAmt' secret' invoices totalMsat _ _ hsec
          cases hsec
          exact h invoices totalMsat
        · intro h invoices totalMsat
          exact h onionAmt secret invoices totalMsat rfl hlt rfl
    · simp only [hlt, if_false]
      refine ⟨fun _ onionAmt' _ _ _ hf' hlt' => ?_, fun _ => continued_letsGoOn⟩
      cases hf'
      exact absurd hlt' hlt

/-- **When the hook lets lightningd go on.** -/
theorem onHtlcAccepted_letsGoOn_iff (cln : ClnPrimitives) (node : LspNode) (v : Json) :
    LetsGoOn (onHtlcAccepted cln node v) ↔
      (∀ s b, RequestReaches cln v s → hexDecode s = some b → Framed b) ∧
        ∀ req, HtlcAcceptedRequest.ofJson cln v = .ok req → SecretFits node req := by
  have hframed : (∀ s b, RequestReaches cln v s → hexDecode s = some b → Framed b) ↔
      HtlcAcceptedRequest.ofJson cln v ≠ .error .panic := by
    rw [Ne, requestOfJson_eq_panic_iff]
    constructor
    · rintro h ⟨s, b, hreach, hb, hnot⟩
      exact hnot (h s b hreach hb)
    · intro h s b hreach hb
      by_contra hnot
      exact h ⟨s, b, hreach, hb, hnot⟩
  rw [hframed]
  unfold onHtlcAccepted
  cases hr : HtlcAcceptedRequest.ofJson cln v with
  | ok req =>
    simp only [handleRequest_letsGoOn_iff]
    constructor
    · intro h
      refine ⟨nofun, fun req' hreq => ?_⟩
      cases hreq
      exact h
    · exact fun h => h.2 req rfl
  | error e =>
    cases e with
    | error => exact ⟨fun _ => ⟨nofun, nofun⟩, fun _ => continued_letsGoOn⟩
    | panic =>
      constructor
      · rintro (⟨_, h⟩ | ⟨_, h⟩) <;> cases h
      · exact fun h => absurd rfl h.1

/-- A record that announces three bytes and ends takes the hook down. -/
theorem onHtlcAccepted_panics : ¬ ∀ (cln : ClnPrimitives) (node : LspNode) (v : Json),
    LetsGoOn (onHtlcAccepted cln node v) := by
  intro h
  have hpanic : onHtlcAccepted plainPrimitives ⟨.ok (), fun _ => .ok []⟩ (hookCall "020203" 1000 1000) = .panic := rfl
  rcases hpanic ▸ h plainPrimitives ⟨.ok (), fun _ => .ok []⟩ (hookCall "020203" 1000 1000) with ⟨_, h⟩ | ⟨_, h⟩
  · cases h
  · cases h

end Greenlight.Lsp
