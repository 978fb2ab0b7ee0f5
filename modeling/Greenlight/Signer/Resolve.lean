import Greenlight.Signer.Request

/-!
# Resolving a message

`Resolver::try_resolve` of `resolve.rs`: a message of the node is accepted if its kind needs no context, or if a
request of the context justifies it.
-/

namespace Greenlight

open Greenlight.Lib

/-- `vls_protocol::msgs::Message`: the kinds the resolver tells apart, with the fields it reads. -/
inductive Message where
  | getHeartbeat
  | ecdh
  | ping
  | pong
  | signChannelAnnouncement
  | signChannelUpdate
  | signNodeAnnouncement
  | checkPubKey
  | getChannelBasepoints
  | validateCommitmentTx
  | signWithdrawal
  | setupChannel
  | getPerCommitmentPoint
  | validateRevocation
  | newChannel (peerId : Bytes)
  | signCommitmentTx
  | signGossipMessage
  | signMutualCloseTx
  | signMutualCloseTx2
  | signRemoteCommitmentTx
  | signRemoteCommitmentTx2
  | signRemoteHtlcTx
  | signPenaltyToUs
  | signAnyPenaltyToUs
  | signAnyDelayedPaymentToUs
  | signAnyLocalHtlcTx
  | signAnyRemoteHtlcToUs
  | lockOutpoint
  | checkOutpoint
  | signAnyChannelAnnouncement
  | revokeCommitmentTx
  | forgetChannel
  | signMessage (message : Bytes)
  | signInvoice
  | preapproveInvoice (invstring : Bytes)
  /-- Any other kind. -/
  | other (type : UInt16)
  deriving DecidableEq, Repr

/-- `signer::Error`, as far as `process_request` returns it. -/
inductive SignerError where
  | auth (e : String)
  | resolver (raw : Bytes) (context : List Request)
  | protocol (e : String)
  | other (e : String)
  deriving DecidableEq, Repr

namespace Message

/-- The kinds that are accepted without a context. -/
def needsNoContext : Message → Bool
  -- commands that simply have no context to check against
  | getHeartbeat | ecdh | ping | pong | signChannelAnnouncement | signChannelUpdate | signNodeAnnouncement
  | checkPubKey => true
  -- verified by VLS
  | getChannelBasepoints | validateCommitmentTx | signWithdrawal | setupChannel | getPerCommitmentPoint
  | validateRevocation | newChannel _ | signCommitmentTx | signGossipMessage | signMutualCloseTx
  | signMutualCloseTx2 | signRemoteCommitmentTx | signRemoteCommitmentTx2 | signRemoteHtlcTx => true
  -- resolution of an existing HTLC
  | signPenaltyToUs | signAnyPenaltyToUs | signAnyDelayedPaymentToUs | signAnyLocalHtlcTx
  | signAnyRemoteHtlcToUs | lockOutpoint | checkOutpoint | signAnyChannelAnnouncement | revokeCommitmentTx
  | forgetChannel => true
  | _ => false

/-- Whether a request of the context lets the message pass. -/
def isResolvedBy : Message → Request → Bool
  | signMessage message, .signMessage req => message = utf8 req.message
  | newChannel peerId, .fundChannel req => peerId = req.id
  | signInvoice, .lspInvoice => true
  | signInvoice, .invoice => true
  | preapproveInvoice invstring, .pay req => invstring = utf8 req.bolt11
  | preapproveInvoice invstring, .preApproveInvoice req => invstring = utf8 req.bolt11
  | preapproveInvoice invstring, .trampolinePay req => invstring = utf8 req.bolt11
  | _, _ => false

/-- `Resolver::try_resolve`; `asVec` writes a message. -/
def tryResolve (asVec : Message → Bytes) (req : Message) (reqctx : List Request) : Except SignerError Unit :=
  if req.needsNoContext then .ok ()
  else if reqctx.any req.isResolvedBy then .ok ()
  else .error (.resolver (asVec req) reqctx)

/-- What a request has to be to justify a message that needs a context. -/
def JustifiedBy : Message → Request → Prop
  | signInvoice, request => request = .invoice ∨ request = .lspInvoice
  | preapproveInvoice invstring, request => ∃ bolt11, invstring = utf8 bolt11 ∧
      (request = .pay ⟨bolt11⟩ ∨ request = .preApproveInvoice ⟨bolt11⟩ ∨ request = .trampolinePay ⟨bolt11⟩)
  | _, _ => False

/-- Apart from the signing of a message, only justified messages are resolved by a context. -/
theorem justifiedBy_of_isResolvedBy {msg : Message} {request : Request} (hctx : msg.needsNoContext = false)
    (hsign : ∀ message, msg ≠ .signMessage message) (h : msg.isResolvedBy request) : msg.JustifiedBy request := by
  unfold isResolvedBy at h
  split at h
  · exact absurd rfl (hsign _)
  · cases hctx
  · exact Or.inr rfl
  · exact Or.inl rfl
  · exact ⟨_, of_decide_eq_true h, Or.inl rfl⟩
  · exact ⟨_, of_decide_eq_true h, Or.inr (Or.inl rfl)⟩
  · exact ⟨_, of_decide_eq_true h, Or.inr (Or.inr rfl)⟩
  · cases h

theorem tryResolve_eq_ok {asVec : Message → Bytes} {req : Message} {reqctx : List Request} :
    req.tryResolve asVec reqctx = .ok () ↔
      req.needsNoContext ∨ ∃ request ∈ reqctx, req.isResolvedBy request := by
  unfold tryResolve
  rw [← List.any_eq_true]
  split_ifs with hctx hany
  · exact ⟨fun _ => Or.inl hctx, fun _ => rfl⟩
  · exact ⟨fun _ => Or.inr hany, fun _ => rfl⟩
  · exact ⟨nofun, fun h => absurd h (by tauto)⟩

end Message

end Greenlight
