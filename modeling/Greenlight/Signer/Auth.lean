import Greenlight.Signer.Rune

/-!
# Authentication of the context

`check_request_auth` of `signer/mod.rs`: the requests that come with a public key, a signature and a rune, each with
the result of the checks of its signature and its rune.  The signature covers the request and, where it is not
zero, the timestamp; it fixes both among the requests that have a timestamp, and among those that have none
(`checkRequestAuth_injective`).
-/

namespace Greenlight

open Greenlight.Lib

namespace PendingRequest

/-- Without one of these a request is unverifiable. -/
def IsSigned (r : PendingRequest) : Prop := r.pubkey ≠ [] ∧ r.signature ≠ [] ∧ r.rune ≠ []

instance (r : PendingRequest) : Decidable r.IsSigned := by unfold IsSigned; infer_instance

def signedData (r : PendingRequest) : Bytes :=
  if r.timestamp ≠ 0 then r.request ++ beBytes r.timestamp else r.request

theorem signedData_of_eq_zero {r : PendingRequest} (h : r.timestamp = 0) : r.signedData = r.request := by
  simp [signedData, h]

theorem signedData_of_ne_zero {r : PendingRequest} (h : r.timestamp ≠ 0) :
    r.signedData = r.request ++ beBytes r.timestamp := by
  simp [signedData, h]

/-- The signed bytes fix the request and the timestamp, once it is known whether there is one. -/
theorem eq_of_signedData_eq {p q : PendingRequest} (h : p.signedData = q.signedData)
    (hts : p.timestamp = 0 ↔ q.timestamp = 0) : p.request = q.request ∧ p.timestamp = q.timestamp := by
  by_cases hp : p.timestamp = 0
  · have hq := hts.1 hp
    rw [signedData_of_eq_zero hp, signedData_of_eq_zero hq] at h
    exact ⟨h, hp.trans hq.symm⟩
  · have hq : q.timestamp ≠ 0 := fun hq => hp (hts.2 hq)
    rw [signedData_of_ne_zero hp, signedData_of_ne_zero hq] at h
    obtain ⟨hreq, htime⟩ := List.append_inj' h (by simp)
    exact ⟨hreq, beBytes_injective htime⟩

end PendingRequest

namespace Signer

def checkRequest (s : Signer) (now : ℤ) (r : PendingRequest) : Except String PendingRequest :=
  if ¬ s.verify r.pubkey r.signedData r.signature then
    .error "signature verification failed: ring::error::Unspecified"
  else
    match s.verifyRune now r with
    | .error e => .error ("rune verification failed: " ++ e)
    | .ok _ => .ok r

/-- `check_request_auth`, at the time `now`. -/
def checkRequestAuth (s : Signer) (now : ℤ) (requests : List PendingRequest) :
    List (Except String PendingRequest) :=
  (requests.filter fun r => decide r.IsSigned).map (s.checkRequest now)

variable {s : Signer} {now : ℤ} {p q : PendingRequest}

/-- What has been checked of a request that is accepted. -/
structure Accepts (s : Signer) (now : ℤ) (p : PendingRequest) : Prop where
  isSigned : p.IsSigned
  signature : s.verify p.pubkey p.signedData p.signature
  rune : s.verifyRune now p = .ok ()

theorem checkRequest_eq_ok : s.checkRequest now p = .ok q ↔
    p = q ∧ s.verify p.pubkey p.signedData p.signature ∧ s.verifyRune now p = .ok () := by
  unfold checkRequest
  rw [guard_eq_ok, not_not]
  cases s.verifyRune now p with
  | error e => simp
  | ok u => simp [and_comm]

theorem ok_mem_checkRequestAuth {requests : List PendingRequest} :
    .ok p ∈ s.checkRequestAuth now requests ↔ p ∈ requests ∧ s.Accepts now p := by
  simp only [checkRequestAuth, List.mem_map, List.mem_filter, decide_eq_true_eq, checkRequest_eq_ok]
  constructor
  · rintro ⟨_, ⟨hmem, hsigned⟩, rfl, hsig, hrune⟩
    exact ⟨hmem, hsigned, hsig, hrune⟩
  · rintro ⟨hmem, h⟩
    exact ⟨p, ⟨hmem, h.isSigned⟩, rfl, h.signature, h.rune⟩

/-- A signature verifies for one byte string under a key. -/
def SignsOneMessage (s : Signer) : Prop :=
  ∀ key sig data data', s.verify key data sig → s.verify key data' sig → data = data'

theorem signsOneMessage_plain : plain.SignsOneMessage := by
  intro key sig data data' h h'
  simp only [plain, decide_eq_true_eq] at h h'
  exact List.append_cancel_left (h.symm.trans h')

/-- A request of the key `1122` that is signed and has the rune of this key, in plain text. -/
def plainSigned (uri : String) (request : Bytes) (timestamp : UInt64) : PendingRequest :=
  let p := { plainRequest [0x11, 0x22] "K:=0-gl0&pubkey=1122" with
    uri := uri
    request := request
    timestamp := timestamp }
  { p with signature := p.pubkey ++ p.signedData }

/-- **What a signature fixes.**  Two accepted requests with one signature have the same signed bytes, and the same
request and timestamp if both of them or none have a timestamp. -/
theorem checkRequestAuth_injective (hone : s.SignsOneMessage) {now' : ℤ} {requests requests' : List PendingRequest}
    (hp : .ok p ∈ s.checkRequestAuth now requests) (hq : .ok q ∈ s.checkRequestAuth now' requests')
    (hkey : p.pubkey = q.pubkey) (hsig : p.signature = q.signature) :
    p.signedData = q.signedData ∧
      ((p.timestamp = 0 ↔ q.timestamp = 0) → p.request = q.request ∧ p.timestamp = q.timestamp) := by
  have hp := (ok_mem_checkRequestAuth.1 hp).2.signature
  have hq := (ok_mem_checkRequestAuth.1 hq).2.signature
  rw [hkey, hsig] at hp
  have hdata := hone _ _ _ _ hp hq
  exact ⟨hdata, PendingRequest.eq_of_signedData_eq hdata⟩

theorem checkRequestAuth_injective_pair : ∃ p q : PendingRequest, p.uri ≠ q.uri ∧
    .ok p ∈ plain.checkRequestAuth 0 [p, q] ∧ .ok q ∈ plain.checkRequestAuth 0 [p, q] ∧
    p.signedData = q.signedData ∧
      ((p.timestamp = 0 ↔ q.timestamp = 0) → p.request = q.request ∧ p.timestamp = q.timestamp) := by
  let p := plainSigned "/cln.Node/Invoice" [0, 0, 0, 0, 0] 5
  let q := plainSigned "/cln.Node/Pay" [0, 0, 0, 0, 0] 5
  have hp : plain.Accepts 0 p := ⟨by decide +kernel, by decide +kernel, by decide +kernel⟩
  have hq : plain.Accepts 0 q := ⟨by decide +kernel, by decide +kernel, by decide +kernel⟩
  have hpmem := ok_mem_checkRequestAuth.2 ⟨(by simp : p ∈ [p, q]), hp⟩
  have hqmem := ok_mem_checkRequestAuth.2 ⟨(by simp : q ∈ [p, q]), hq⟩
  exact ⟨p, q, by decide, hpmem, hqmem, checkRequestAuth_injective signsOneMessage_plain hpmem hqmem rfl rfl⟩

/-- The timestamp of one request is the end of the other one, which has none. -/
theorem checkRequestAuth_not_injective : ¬ ∀ (s : Signer) (now now' : ℤ) (requests requests' : List PendingRequest)
    (p q : PendingRequest), s.SignsOneMessage → .ok p ∈ s.checkRequestAuth now requests →
    .ok q ∈ s.checkRequestAuth now' requests' → p.pubkey = q.pubkey → p.signature = q.signature →
    p.request = q.request ∧ p.timestamp = q.timestamp := by
  intro hall
  let p := plainSigned "/cln.Node/Invoice" [0, 0, 0, 0, 0] 5
  let q := plainSigned "/cln.Node/Invoice" [0, 0, 0, 0, 0, 0, 0, 0, 0, 0, 0, 0, 5] 0
  have hp : plain.Accepts 0 p := ⟨by decide +kernel, by decide +kernel, by decide +kernel⟩
  have hq : plain.Accepts 0 q := ⟨by decide +kernel, by decide +kernel, by decide +kernel⟩
  have hsig : p.signature = q.signature := by decide +kernel
  have heq := hall plain 0 0 [p] [q] p q signsOneMessage_plain
    (ok_mem_checkRequestAuth.2 ⟨List.mem_singleton_self _, hp⟩)
    (ok_mem_checkRequestAuth.2 ⟨List.mem_singleton_self _, hq⟩) rfl hsig
  exact absurd heq.2 (by decide +kernel)

end Signer

end Greenlight
