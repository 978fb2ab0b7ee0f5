import Greenlight.Signer.Auth

/-!
# Approving a pairing

`process_pairing_approval` of `signer/mod.rs`: a device that is paired already signs the id, the name and the
restrictions of a new one, and the signer makes a rune of the restrictions.  The signed bytes are the fields one
after the other, without their lengths, so a signature fixes the fields exactly as far as their lengths are the
same (`pairingData_unambiguous_iff`).
-/

namespace Greenlight

open Greenlight.Lib

structure ApprovePairingRequest where
  deviceId : String
  timestamp : UInt64
  deviceName : String
  restrictions : String
  sig : Bytes
  pubkey : Bytes
  rune : String
  deriving DecidableEq, Repr

structure ApprovePairingResponse where
  deviceId : String
  nodeId : Bytes
  rune : String
  deriving DecidableEq, Repr

namespace Signer

/-- The bytes the signature of a pairing approval covers. -/
def pairingData (s : Signer) (req : ApprovePairingRequest) : Bytes :=
  utf8 req.deviceId ++ beBytes req.timestamp ++ s.id ++ utf8 req.deviceName ++ utf8 req.restrictions

/-- The restrictions are separated by `&` and their alternatives by `|`. -/
def splitRestrictions (restrictions : String) : List (List String) :=
  (split restrictions '&').map fun s => split s '|'

/-- `process_pairing_approval`, at the time `now`. -/
def processPairingApproval (s : Signer) (now : ℤ) (req : ApprovePairingRequest) :
    Except String ApprovePairingResponse :=
  if ¬ s.verify req.pubkey (s.pairingData req) req.sig then
    .error "could not approve pairing request: ring::error::Unspecified"
  else
    match s.urlSafeDecode req.rune with
    | .error e => .error ("could not approve pairing request: " ++ e)
    | .ok rune => do
      s.verifyRune now
        { request := []
          uri := "/cln.Node/ApprovePairing"
          signature := req.sig
          pubkey := req.pubkey
          timestamp := req.timestamp
          rune := rune }
      let rune ← s.createRune none (splitRestrictions req.restrictions)
      return { deviceId := req.deviceId, nodeId := s.id, rune := rune }

def PairingSigned (s : Signer) (req : ApprovePairingRequest) : Prop :=
  s.verify req.pubkey (s.pairingData req) req.sig

instance (s : Signer) (req : ApprovePairingRequest) : Decidable (s.PairingSigned req) := by
  unfold PairingSigned; infer_instance

variable {s : Signer} {p q : ApprovePairingRequest}

theorem fields_eq_of_pairingData_eq (h : s.pairingData p = s.pairingData q)
    (hid : (utf8 p.deviceId).length = (utf8 q.deviceId).length)
    (hname : (utf8 p.deviceName).length = (utf8 q.deviceName).length) :
    p.deviceId = q.deviceId ∧ p.timestamp = q.timestamp ∧ p.deviceName = q.deviceName ∧
      p.restrictions = q.restrictions := by
  simp only [pairingData, List.append_assoc] at h
  obtain ⟨hdevice, h⟩ := List.append_inj h hid
  obtain ⟨htime, h⟩ := List.append_inj h (by simp)
  obtain ⟨hdeviceName, hrestrictions⟩ := List.append_inj (List.append_cancel_left h) hname
  exact ⟨utf8_injective hdevice, beBytes_injective htime, utf8_injective hdeviceName,
    utf8_injective hrestrictions⟩

/-- **What the signature of an approval fixes.**  Two approvals under one signature have the same fields if and only
if their device ids and their device names have the same lengths. -/
theorem pairingData_unambiguous_iff (hone : s.SignsOneMessage) (hp : s.PairingSigned p) (hq : s.PairingSigned q)
    (hkey : p.pubkey = q.pubkey) (hsig : p.sig = q.sig) :
    (p.deviceId = q.deviceId ∧ p.timestamp = q.timestamp ∧ p.deviceName = q.deviceName ∧
        p.restrictions = q.restrictions) ↔
      (utf8 p.deviceId).length = (utf8 q.deviceId).length ∧
        (utf8 p.deviceName).length = (utf8 q.deviceName).length := by
  constructor
  · rintro ⟨hid, -, hname, -⟩
    rw [hid, hname]
    exact ⟨rfl, rfl⟩
  · rintro ⟨hid, hname⟩
    unfold PairingSigned at hp hq
    rw [hkey, hsig] at hp
    exact fields_eq_of_pairingData_eq (hone _ _ _ _ hp hq) hid hname

/-- An approval that is signed, in plain text, by the key `1122`. -/
def plainApproval (deviceId deviceName restrictions : String) : ApprovePairingRequest :=
  let req : ApprovePairingRequest :=
    { deviceId := deviceId
      timestamp := 5
      deviceName := deviceName
      restrictions := restrictions
      sig := []
      pubkey := [0x11, 0x22]
      rune := "K:=0-gl0&pubkey=1122" }
  { req with sig := req.pubkey ++ plain.pairingData req }

theorem pairingData_unambiguous_iff_pair : ∃ p q : ApprovePairingRequest,
    plain.PairingSigned p ∧ plain.PairingSigned q ∧ p.sig = q.sig ∧
      ((p.deviceId = q.deviceId ∧ p.timestamp = q.timestamp ∧ p.deviceName = q.deviceName ∧
          p.restrictions = q.restrictions) ↔
        (utf8 p.deviceId).length = (utf8 q.deviceId).length ∧
          (utf8 p.deviceName).length = (utf8 q.deviceName).length) := by
  let p := plainApproval "ab" "phone" "method=pay&pubkey=ab"
  let q := plainApproval "ab" "phonemethod=pay&" "pubkey=ab"
  have hp : plain.PairingSigned p := by decide +kernel
  have hq : plain.PairingSigned q := by decide +kernel
  have hsig : p.sig = q.sig := by decide +kernel
  exact ⟨p, q, hp, hq, hsig, pairingData_unambiguous_iff signsOneMessage_plain hp hq rfl hsig⟩

/-- The restriction `method=pay` goes from the restrictions to the name of the device. -/
theorem pairingData_ambiguous : ¬ ∀ (s : Signer) (p q : ApprovePairingRequest), s.SignsOneMessage →
    s.PairingSigned p → s.PairingSigned q → p.pubkey = q.pubkey → p.sig = q.sig →
    p.deviceId = q.deviceId ∧ p.timestamp = q.timestamp ∧ p.deviceName = q.deviceName ∧
      p.restrictions = q.restrictions := by
  intro hall
  have heq := hall plain (plainApproval "ab" "phone" "method=pay&pubkey=ab")
    (plainApproval "ab" "phonemethod=pay&" "pubkey=ab") signsOneMessage_plain (by decide +kernel)
    (by decide +kernel) rfl (by decide +kernel)
  exact absurd heq.2.2.2 (by decide)

end Signer

end Greenlight
