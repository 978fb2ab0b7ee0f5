import Greenlight.Util.Error

/-!
# The error codes of trampoline payments

The two tables `code` and `from_code` of `TrampolineErrorCode` in `tramp.rs`, the status codes, and the
conversion of lightningd's errors.  `from_code` undoes `code` for the named errors, `PaymentFailure` apart,
whose code it reads as `PeerNodeFailure`.  Of lightningd's errors it knows the few codes of `sendpay` and
`waitsendpay` that its range `200..204` and three more constants list; the range leaves out `204`, which the
comment beside it names, every other code is unknown, and a code between `42701` and `42714` comes back as a
named error.
-/

namespace Greenlight.Tramp

open Greenlight.Util

inductive TrampolineErrorCode where
  | featureNotSupported
  | invalidNodeId
  | networkError
  | unknownPeer
  | missingAmount
  | ambigousAmount
  | missingChannel
  | insufficientFunds
  | invalidInvoice
  | peerNodeFailure
  | paymentFailure
  | peerConnectionFailure
  | missingPreimage
  | internal
  | rpcError (code : Int32)
  deriving DecidableEq, Repr

namespace TrampolineErrorCode

def code : TrampolineErrorCode → Int32
  | featureNotSupported => 42701
  | invalidNodeId => 42702
  | networkError => 42703
  | unknownPeer => 42704
  | missingAmount => 42705
  | ambigousAmount => 42706
  | missingChannel => 42707
  | insufficientFunds => 42708
  | invalidInvoice => 42709
  | peerNodeFailure => 42710
  | paymentFailure => 42711
  | peerConnectionFailure => 42712
  | missingPreimage => 42713
  | internal => 42714
  | rpcError clnErr => clnErr

/-- The codes of `sendpay` and `waitsendpay` in the pattern of `from_code`. -/
def SendpayCode (code : Int32) : Prop :=
  code = -1 ∨ (200 ≤ code ∧ code < 204) ∨ code = 208 ∨ code = 209 ∨ code = 212

instance (code : Int32) : Decidable (SendpayCode code) := by unfold SendpayCode; infer_instance

def fromCode (code : Int32) : Option TrampolineErrorCode :=
  match code with
  | 42701 => some featureNotSupported
  | 42702 => some invalidNodeId
  | 42703 => some networkError
  | 42704 => some unknownPeer
  | 42705 => some missingAmount
  | 42706 => some ambigousAmount
  | 42707 => some missingChannel
  | 42708 => some insufficientFunds
  | 42709 => some invalidInvoice
  | 42710 => some peerNodeFailure
  | 42711 => some peerNodeFailure
  | 42712 => some peerConnectionFailure
  | 42713 => some missingPreimage
  | 42714 => some internal
  | code => if SendpayCode code then some (rpcError code) else none

def statusCode : TrampolineErrorCode → GrpcCode
  | featureNotSupported | unknownPeer | missingAmount | missingChannel | insufficientFunds
  | peerConnectionFailure | missingPreimage => .failedPrecondition
  | invalidNodeId | ambigousAmount | invalidInvoice => .invalidArgument
  | networkError | peerNodeFailure | internal => .internal
  | paymentFailure => .unknown
  | rpcError _ => .unknown

instance : ErrorStatusConversionExt TrampolineErrorCode where
  code := code
  fromCode := fromCode
  statusCode := statusCode

instance : RpcErrConversion TrampolineErrorCode where
  fromRpcError value := rpcError (value.code.getD (-1))

end TrampolineErrorCode

abbrev TrampolineError := Error TrampolineErrorCode

open TrampolineErrorCode

/-! ### What `from_code` recovers -/

/-- The codes that come back as themselves. -/
def Recovered : TrampolineErrorCode → Prop
  | paymentFailure => False
  | rpcError n => SendpayCode n
  | _ => True

theorem fromCode_eq_rpcError {c n : Int32} : fromCode c = some (rpcError n) ↔ c = n ∧ SendpayCode n := by
  unfold fromCode
  split
  case h_15 =>
    constructor
    · intro h
      split at h
      · cases h; exact ⟨rfl, ‹_›⟩
      · cases h
    · rintro ⟨rfl, h⟩
      exact if_pos h
  all_goals
    refine ⟨(nomatch ·), ?_⟩
    rintro ⟨rfl, h⟩
    exact absurd h (by decide)

theorem fromCode_code_iff (c : TrampolineErrorCode) : fromCode c.code = some c ↔ Recovered c := by
  cases c with
  | rpcError n => exact fromCode_eq_rpcError.trans (and_iff_right rfl)
  | paymentFailure => exact ⟨fun h => absurd h (by decide), False.elim⟩
  | _ => exact ⟨fun _ => trivial, fun _ => by decide⟩

/-- **Transport of a trampoline error.**  It arrives with its code, message and hint exactly if it is not a
`PaymentFailure`, and, where it is an error of lightningd, its code is one that `from_code` lists. -/
theorem trampolineError_roundTrip_iff {json : DetailsJson} (hj : json.Lossless) (e : TrampolineError) :
    RoundTrips json e ↔ Recovered e.code :=
  (roundTrip_iff hj e).trans (fromCode_code_iff e.code)

theorem trampolineError_roundTrip_unknownPeer :
    RoundTrips plainJson (Error.new unknownPeer "Unknown peer 02ab" : TrampolineError) ↔ Recovered unknownPeer :=
  trampolineError_roundTrip_iff plainJson_lossless _

/-- A payment that failed arrives as a failure of the peer. -/
theorem trampolineError_not_lossless : ¬ ∀ (json : DetailsJson), json.Lossless →
    ∀ e : TrampolineError, RoundTrips json e := by
  intro h
  obtain ⟨e', he', hcode, -, -⟩ := h plainJson plainJson_lossless (Error.new paymentFailure "Payment failed")
  rw [tryFrom_toStatus plainJson_lossless] at he'
  have hread : (ErrorCode.fromCode (ErrorCode.code paymentFailure) : Option TrampolineErrorCode) =
      some peerNodeFailure := by decide
  simp only [Error.new, hread] at he'
  cases he'
  cases hcode

end Greenlight.Tramp
