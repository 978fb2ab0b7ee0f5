import Greenlight.Lib.Retry
import Greenlight.Pairing.Protocol

/-!
# Looking up a pairing

`get_pairing_data` of `pairing/attestation_device.rs`.  The QR code of a new device is out before its request has got
to the backend, so the old device asks again until it gets the data or ten seconds have passed.  It finds every session
that the backend has stored at its first call, or as long before the deadline as one of its calls may take, and no
others for sure (`getPairingData_finds_iff`).
-/

namespace Greenlight

open Greenlight.Lib

/-- The calls that the loop makes, with the times in milliseconds after its start. -/
structure PairingCalls extends Times 100 where
  answer : ℕ → Except String GetPairingDataResponse

/-- `get_pairing_data`, of the first calls. -/
def getPairingData (calls : PairingCalls) : ℕ → Option (Except String GetPairingDataResponse) :=
  retry fun i =>
    match calls.answer i with
    | .ok response => some (.ok response)
    | .error e => if calls.stop i < 10000 then none else some (.error e)

/-- The backend has the data from the time `stored` on, and no call takes longer than `latency`. -/
structure PairingCalls.Serves (calls : PairingCalls) (stored latency : ℕ) (data : GetPairingDataResponse) : Prop where
  before : ∀ i, calls.start i < stored → ∃ e, calls.answer i = .error e
  after : ∀ i, stored ≤ calls.start i → calls.answer i = .ok data
  prompt : ∀ i, calls.stop i ≤ calls.start i + latency

variable {calls : PairingCalls} {stored latency : ℕ} {data : GetPairingDataResponse}

theorem exists_getPairingData (calls : PairingCalls) : ∃ r, getPairingData calls 101 = some r := by
  refine exists_retry_of_isSome (i := 100) ?_ (by decide)
  have hpast : 10000 ≤ calls.start 100 := calls.le_start (by decide)
  have hstop := calls.start_le_stop 100
  cases calls.answer 100 with
  | ok response => rfl
  | error e =>
    show (if calls.stop 100 < 10000 then none else some (Except.error e)).isSome = true
    rw [if_neg (by omega)]
    rfl

/-- A last call that fails has started before the session was stored and ended behind the deadline. -/
theorem getPairingData_of_serves (h : calls.Serves stored latency data)
    (htime : stored = 0 ∨ stored + latency ≤ 10000) : getPairingData calls 101 = some (.ok data) := by
  obtain ⟨r, hr⟩ := exists_getPairingData calls
  obtain ⟨i, -, hi, -⟩ := retry_eq_some_iff.1 hr
  rw [hr]
  rcases Nat.lt_or_ge (calls.start i) stored with hbefore | hafter
  · obtain ⟨e, he⟩ := h.before i hbefore
    have hprompt := h.prompt i
    rw [he] at hi
    dsimp only at hi
    rw [if_pos (by omega)] at hi
    cases hi
  · rw [h.after i hafter] at hi
    exact hi.symm

/-- Calls of which the first one starts right before the session is stored and takes as long as it may. -/
def lateCalls (stored latency : ℕ) (data : GetPairingDataResponse) : PairingCalls where
  start i := stored - 1 + i * (latency + 100)
  stop i := stored - 1 + i * (latency + 100) + latency
  start_le_stop i := Nat.le_add_right _ _
  sleeps i := by rw [Nat.succ_mul]; omega
  answer i := if stored - 1 + i * (latency + 100) < stored then .error "no session" else .ok data

theorem serves_lateCalls (stored latency : ℕ) (data : GetPairingDataResponse) :
    (lateCalls stored latency data).Serves stored latency data where
  before _ hi := ⟨"no session", if_pos hi⟩
  after _ hi := if_neg (Nat.not_lt.2 hi)
  prompt _ := le_rfl

/-- **What is found**: after at most 101 calls the loop has the data of every session that was stored early enough, and
of no others for sure. -/
theorem getPairingData_finds_iff (stored latency : ℕ) (data : GetPairingDataResponse) :
    (∀ calls : PairingCalls, calls.Serves stored latency data → getPairingData calls 101 = some (.ok data)) ↔
      stored = 0 ∨ stored + latency ≤ 10000 := by
  constructor
  · intro hall
    have hfound := hall _ (serves_lateCalls stored latency data)
    by_contra hlate
    rw [not_or, Nat.not_le] at hlate
    -- of the slowest calls the first comes too early, and the deadline has passed when it ends
    have hfirst : getPairingData (lateCalls stored latency data) 101 = some (.error "no session") := by
      have hanswer : (lateCalls stored latency data).answer 0 = .error "no session" := by
        refine if_pos ?_
        omega
      have hstop : (lateCalls stored latency data).stop 0 = stored - 1 + latency := by
        show stored - 1 + 0 * (latency + 100) + latency = stored - 1 + latency
        omega
      refine retry_eq_some_iff.2 ⟨0, by decide, ?_, fun j hj => absurd hj (Nat.not_lt_zero j)⟩
      rw [hanswer]
      dsimp only
      rw [hstop, if_neg (by omega)]
    cases hfirst.symm.trans hfound
  · intro htime calls h
    exact getPairingData_of_serves h htime

end Greenlight
