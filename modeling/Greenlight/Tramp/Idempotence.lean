import Greenlight.Tramp.Pay
import Mathlib.Data.List.TakeWhile

/-!
# Paying an invoice twice

A call that finds parts of the payment does not send; it waits for the payment without naming a part, and that
is part zero of the latest group.  A payment in one part has that number, but several parts count from one, and the
group after the last word is zero in a release build.  So a second call returns what the first one did if the payment
had one part in a group that is the latest, and otherwise fails although the payment is complete
(`trampolinepay_again_iff`).
-/

namespace Greenlight.Tramp

open Greenlight.Lib Greenlight.Plugin Greenlight.Util

/-! ### A payment that completed -/

def lastPreimage (responses : List WaitsendpayResponse) (preimage : Option Bytes) : Option Bytes :=
  responses.foldl (fun acc response => response.paymentPreimage.or acc) preimage

/-- The question that the task of a part asks. -/
def askPart (ld : Lightningd) (payments : List SendPay) (p : SendPay) : Except RpcError WaitsendpayResponse :=
  ld.waitsendpay payments ⟨p.paymentHash, some p.groupid, some p.partid⟩

section Complete

variable {build : Build} {ld : Lightningd} {env : CallAnswers} {req : TrampolinePayRequest} {payments : List SendPay}
  {nodeId : PublicKey} {decoded : Decodepay} {plan : Prepared}

theorem joinParts_eq_ok {tasks : List (Except TrampolineError SendPay)} {acc preimage : Option Bytes}
    (h : joinParts (tasks.map (waitPart ld payments)) acc = .ok preimage) :
    ∃ (sent : List SendPay) (responses : List WaitsendpayResponse), tasks = sent.map .ok ∧
      sent.map (askPart ld payments) = responses.map .ok ∧
      preimage = lastPreimage responses acc := by
  induction tasks generalizing acc with
  | nil =>
    cases h
    exact ⟨[], [], rfl, rfl, rfl⟩
  | cons task tasks ih =>
    rw [List.map_cons, joinParts] at h
    obtain ⟨response, hresponse, hrest⟩ := bind_eq_ok.1 h
    obtain ⟨p, htask, hask⟩ := bind_eq_ok.1 hresponse
    obtain ⟨sent, responses, rfl, hall, rfl⟩ := ih hrest
    have hp : askPart ld payments p = .ok response := mapError_eq_ok.1 hask
    refine ⟨p :: sent, response :: responses, by rw [htask]; rfl, ?_, rfl⟩
    rw [List.map_cons, List.map_cons, hp, hall]

theorem sendPart_eq_ok {part : ChannelContribution × ℕ} {p : SendPay}
    (h : sendPart env req nodeId decoded plan part = .ok p) :
    p.paymentHash = decoded.paymentHash ∧ p.groupid = plan.groupId ∧ p.partid = part.2 := by
  unfold sendPart at h
  cases hs : decoded.paymentSecret with
  | none =>
    rw [hs] at h
    cases h
  | some secret =>
    rw [hs] at h
    obtain ⟨status, -, h⟩ := bind_eq_ok.1 h
    cases h
    exact ⟨rfl, rfl, rfl⟩

theorem map_sendPart_eq : ∀ {parts : List (ChannelContribution × ℕ)} {sent : List SendPay},
    parts.map (sendPart env req nodeId decoded plan) = sent.map .ok →
      sent.map (·.partid) = parts.map Prod.snd ∧
        ∀ p ∈ sent, p.paymentHash = decoded.paymentHash ∧ p.groupid = plan.groupId := by
  intro parts
  induction parts with
  | nil =>
    intro sent h
    have hnil : sent = [] := by simpa using h.symm
    subst hnil
    exact ⟨rfl, nofun⟩
  | cons part parts ih =>
    intro sent h
    cases sent with
    | nil => cases h
    | cons p sent =>
      obtain ⟨hp, hrest⟩ := List.cons.inj h
      obtain ⟨hhash, hgroup, hpartid⟩ := sendPart_eq_ok hp
      obtain ⟨hids, hall⟩ := ih hrest
      refine ⟨by rw [List.map_cons, List.map_cons, hpartid, hids], fun p' hp' => ?_⟩
      rcases List.mem_cons.1 hp' with rfl | hp'
      · exact ⟨hhash, hgroup⟩
      · exact hall p' hp'

theorem length_partIds (n : ℕ) : (partIds n).length = n := by
  unfold partIds
  split
  · rename_i h
    simp [h]
  · simp

theorem sendParts_eq_ok {resp : PayResponse} {sent : List SendPay}
    (h : sendParts ld env req payments nodeId decoded plan = (.ok resp, sent)) :
    sent.map (·.partid) = partIds sent.length ∧
      (∀ p ∈ sent, p.paymentHash = decoded.paymentHash ∧ p.groupid = plan.groupId) ∧
      resp.paymentHash = decoded.paymentHash ∧
      ∃ responses, sent.map (askPart ld (payments ++ sent)) = responses.map .ok ∧
        lastPreimage responses none = some resp.paymentPreimage := by
  dsimp only [sendParts] at h
  generalize hparts : plan.alloc.zip (partIds plan.alloc.length) = parts at h
  have hnumbers : parts.map Prod.snd = partIds plan.alloc.length := by
    rw [← hparts]
    exact List.map_snd_zip (length_partIds _).le
  cases hfail : parts.findSome? fun part => connectError (env.partConnect part.2) with
  | some e =>
    rw [hfail] at h
    cases h
  | none =>
    -- every connection was made, so every part was started
    have hstarted : (parts.takeWhile fun part => (env.partConnect part.2).toOption.isSome) = parts := by
      refine List.takeWhile_eq_self_iff.2 fun part hpart => ?_
      have hnone := List.findSome?_eq_none_iff.1 hfail part hpart
      cases hc : env.partConnect part.2 with
      | error e =>
        rw [hc] at hnone
        cases hnone
      | ok u => rfl
    rw [hfail, hstarted] at h
    simp only [Prod.mk.injEq] at h
    obtain ⟨hres, hsent⟩ := h
    obtain ⟨preimage, hjoin, hres⟩ := bind_eq_ok.1 hres
    obtain ⟨ps, responses, htasks, hask, rfl⟩ := joinParts_eq_ok hjoin
    have hps : ps = sent := by
      rw [← hsent, htasks, List.filterMap_map]
      exact (List.filterMap_some).symm
    subst hps
    rw [hsent] at hask
    obtain ⟨hids, hall⟩ := map_sendPart_eq htasks
    have hn : ps.length = plan.alloc.length := by
      have := congrArg List.length (hids.trans hnumbers)
      rwa [List.length_map, length_partIds] at this
    have hresp : resp.paymentHash = decoded.paymentHash ∧
        lastPreimage responses none = some resp.paymentPreimage := by
      cases hpre : lastPreimage responses none with
      | none =>
        rw [hpre] at hres
        cases hres
      | some preimage =>
        rw [hpre] at hres
        cases hres
        exact ⟨rfl, rfl⟩
    exact ⟨by rw [hn, hids, hnumbers], hall, hresp.1, responses, hask, hresp.2⟩

theorem maxGroupId_le_iff {hash : Bytes} {g : UInt64} :
    maxGroupId payments hash ≤ g ↔ ∀ p ∈ listsendpays payments hash, p.groupid ≤ g := by
  unfold maxGroupId
  cases hmax : ((listsendpays payments hash).map (·.groupid)).max? with
  | none =>
    have hnil : listsendpays payments hash = [] := by simpa using hmax
    simp [hnil]
  | some m =>
    obtain ⟨hmem, hle⟩ := List.max?_eq_some_iff.1 hmax
    obtain ⟨q, hq, rfl⟩ := List.mem_map.1 hmem
    rw [Option.getD_some]
    exact ⟨fun h p hp => (hle _ (List.mem_map_of_mem hp)).trans h, fun h => h q hq⟩

theorem groupid_le_maxGroupId {hash : Bytes} {p : SendPay} (hp : p ∈ listsendpays payments hash) :
    p.groupid ≤ maxGroupId payments hash :=
  maxGroupId_le_iff.1 le_rfl p hp

theorem maxGroupId_eq_zero_or {hash : Bytes} : maxGroupId payments hash = 0 ∨
    ∃ p ∈ payments, p.paymentHash = hash ∧ p.groupid = maxGroupId payments hash := by
  unfold maxGroupId
  cases hmax : ((listsendpays payments hash).map (·.groupid)).max? with
  | none => exact Or.inl rfl
  | some m =>
    obtain ⟨p, hp, hgroup⟩ := List.mem_map.1 (List.max?_eq_some_iff.1 hmax).1
    obtain ⟨hmem, hhash⟩ := List.mem_filter.1 hp
    exact Or.inr ⟨p, hmem, of_decide_eq_true hhash, hgroup⟩

theorem maxGroupId_append {sent : List SendPay} {hash : Bytes} {groupId : UInt64} (hne : sent ≠ [])
    (hsent : ∀ p ∈ sent, p.paymentHash = hash ∧ p.groupid = groupId) :
    maxGroupId (payments ++ sent) hash = max (maxGroupId payments hash) groupId := by
  have hall : listsendpays sent hash = sent := List.filter_eq_self.2 fun p hp => by simp [hsent p hp]
  have hsplit : listsendpays (payments ++ sent) hash = listsendpays payments hash ++ sent := by
    rw [listsendpays, List.filter_append, ← listsendpays, ← listsendpays, hall]
  have hnew : ∀ g, (∀ p ∈ sent, p.groupid ≤ g) ↔ groupId ≤ g := by
    intro g
    obtain ⟨p, hp⟩ := List.exists_mem_of_ne_nil sent hne
    exact ⟨fun h => (hsent p hp).2 ▸ h p hp, fun h q hq => (hsent q hq).2.le.trans h⟩
  refine eq_of_forall_ge_iff fun g => ?_
  rw [max_le_iff, maxGroupId_le_iff, maxGroupId_le_iff, hsplit, List.forall_mem_append, hnew]

theorem orPanic_eq_ok {T : Type} {r : Option T} {x : T} : orPanic r = .ok x ↔ r = some x := by
  cases r with
  | none => exact ⟨nofun, nofun⟩
  | some y => exact ⟨fun h => by cases h; rfl, fun h => by cases h; rfl⟩

theorem groupId_of_prepare {maxGroupId : UInt64}
    (h : prepare build env req nodeId decoded maxGroupId = .ok plan) :
    addU64 build maxGroupId 1 = some plan.groupId := by
  unfold prepare at h
  obtain ⟨_, -, h⟩ := bind_eq_ok.1 h
  obtain ⟨_, -, h⟩ := bind_eq_ok.1 h
  obtain ⟨_, -, h⟩ := bind_eq_ok.1 h
  obtain ⟨_, -, h⟩ := bind_eq_ok.1 h
  obtain ⟨_, -, h⟩ := bind_eq_ok.1 h
  obtain ⟨_, -, h⟩ := bind_eq_ok.1 h
  obtain ⟨_, -, h⟩ := bind_eq_ok.1 h
  dsimp only at h
  split_ifs at h
  · cases h
  · obtain ⟨_, -, h⟩ := bind_eq_ok.1 h
    obtain ⟨_, -, h⟩ := bind_eq_ok.1 h
    obtain ⟨groupId, hgroup, h⟩ := bind_eq_ok.1 h
    cases h
    exact orPanic_eq_ok.1 hgroup

theorem lookUp_eq_ok {sendPays : List SendPay} :
    lookUp ld env req payments = .ok (nodeId, decoded, sendPays) ↔
      ld.fromSlice req.trampolineNodeId = .ok nodeId ∧ env.connect = .ok () ∧
        ld.decodepay req.bolt11 = .ok decoded ∧ env.listsendpays = .ok () ∧
        sendPays = listsendpays payments decoded.paymentHash := by
  unfold lookUp
  constructor
  · intro h
    obtain ⟨n, hn, h⟩ := bind_eq_ok.1 h
    obtain ⟨u, hc, h⟩ := bind_eq_ok.1 h
    obtain ⟨d, hd, h⟩ := bind_eq_ok.1 h
    obtain ⟨v, hl, h⟩ := bind_eq_ok.1 h
    cases h
    exact ⟨mapError_eq_ok.1 hn, mapError_eq_ok.1 hc, mapError_eq_ok.1 hd, mapError_eq_ok.1 hl, rfl⟩
  · rintro ⟨hn, hc, hd, hl, rfl⟩
    refine bind_eq_ok.2 ⟨nodeId, mapError_eq_ok.2 hn, bind_eq_ok.2 ⟨(), mapError_eq_ok.2 hc, ?_⟩⟩
    exact bind_eq_ok.2 ⟨decoded, mapError_eq_ok.2 hd, bind_eq_ok.2 ⟨(), mapError_eq_ok.2 hl, rfl⟩⟩

/-- A call that sent something and returned has seen the parts of the payment fail, and has sent the parts of an
allocation. -/
theorem sendParts_of_trampolinepay {resp : PayResponse} {sent : List SendPay}
    (h : trampolinepay build ld env req payments = (.ok resp, sent)) (hne : sent ≠ []) :
    ∃ nodeId decoded plan, ld.decodepay req.bolt11 = .ok decoded ∧
      (∀ p ∈ payments, p.paymentHash = decoded.paymentHash → p.status = .failed) ∧
      addU64 build (maxGroupId payments decoded.paymentHash) 1 = some plan.groupId ∧
      sendParts ld env req payments nodeId decoded plan = (.ok resp, sent) := by
  unfold trampolinepay at h
  cases hl : lookUp ld env req payments with
  | error e =>
    rw [hl] at h
    cases h
  | ok found =>
    obtain ⟨nodeId, decoded, sendPays⟩ := found
    obtain ⟨-, -, hdec, -, hpays⟩ := lookUp_eq_ok.1 hl
    rw [hl] at h
    simp only at h
    -- with a payment under way nothing would have been sent
    split_ifs at h with hany
    · exact absurd (Prod.mk.inj h).2.symm hne
    · have hfailed : ∀ p ∈ payments, p.paymentHash = decoded.paymentHash → p.status = .failed := fun p hp hhash => by
        by_contra hstatus
        refine hany (List.any_eq_true.2 ⟨p, ?_, by simpa using hstatus⟩)
        rw [hpays]
        exact List.mem_filter.2 ⟨hp, by simpa using hhash⟩
      cases hp : prepare build env req nodeId decoded (maxGroupId payments decoded.paymentHash) with
      | error e =>
        rw [hp] at h
        cases h
      | ok plan =>
        rw [hp] at h
        obtain ⟨hres, hsent⟩ := Prod.mk.inj h
        exact ⟨nodeId, decoded, plan, hdec, hfailed, groupId_of_prepare hp,
          Prod.ext (mapError_eq_ok.1 hres) hsent⟩

variable (build) in
/-- A call that finds a part that has not failed waits for part zero of the latest group. -/
theorem trampolinepay_of_existing {p : SendPay} (hld : ld.Documented)
    (hnode : ∃ nodeId, ld.fromSlice req.trampolineNodeId = .ok nodeId) (hconn : env.connect = .ok ())
    (hdec : ld.decodepay req.bolt11 = .ok decoded) (hlist : env.listsendpays = .ok ()) (hp : p ∈ payments)
    (hhash : p.paymentHash = decoded.paymentHash) (hstatus : p.status ≠ .failed) :
    ∃ result, trampolinepay build ld env req payments = (result, []) ∧ ∀ resp, result = .ok resp ↔
      ∃ r preimage, ld.waitsendpay payments
          ⟨decoded.paymentHash, some (maxGroupId payments decoded.paymentHash), some 0⟩ = .ok r ∧
        r.paymentPreimage = some preimage ∧ resp = {
          amountMsat := r.amountMsat.getD 0
          amountSentMsat := r.amountSentMsat
          destination := r.destination
          parts := match r.partid with
            | some 0 => 1
            | some partid => partid % 2 ^ 32
            | none => 1
          paymentHash := r.paymentHash
          paymentPreimage := preimage } := by
  obtain ⟨nodeId, hnode⟩ := hnode
  have hl : lookUp ld env req payments = .ok (nodeId, decoded, listsendpays payments decoded.paymentHash) :=
    lookUp_eq_ok.2 ⟨hnode, hconn, hdec, hlist, rfl⟩
  have hany : (listsendpays payments decoded.paymentHash).any (·.status ≠ .failed) = true :=
    List.any_eq_true.2 ⟨p, List.mem_filter.2 ⟨hp, by simp [hhash]⟩, by simp [hstatus]⟩
  refine ⟨(waitForExisting ld payments decoded.paymentHash).mapError .error, ?_, fun resp => ?_⟩
  · simp only [trampolinepay, hl, hany, if_true]
  · rw [mapError_eq_ok]
    -- the call waits for part 0 of the last group, whatever was sent
    unfold waitForExisting
    rw [hld.default]
    constructor
    · intro h
      obtain ⟨r, hr, h⟩ := bind_eq_ok.1 h
      cases hpre : r.paymentPreimage with
      | none =>
        rw [hpre] at h
        cases h
      | some preimage =>
        rw [hpre] at h
        cases h
        exact ⟨r, preimage, mapError_eq_ok.1 hr, hpre, rfl⟩
    · rintro ⟨r, preimage, hr, hpre, rfl⟩
      refine bind_eq_ok.2 ⟨r, mapError_eq_ok.2 hr, ?_⟩
      rw [hpre]
      rfl

end Complete

/-! ### The second call -/

/-- The second call sends nothing and returns what the first one returned. -/
def ReturnsAgain (first : PayResponse) (second : Except PayFailure PayResponse × List SendPay) : Prop :=
  ∃ resp, second = (.ok resp, []) ∧ resp.paymentHash = first.paymentHash ∧
    resp.paymentPreimage = first.paymentPreimage

section Again

variable {build : Build} {ld : Lightningd} {env env' : CallAnswers} {req req' : TrampolinePayRequest}
  {payments sent : List SendPay} {resp : PayResponse}

theorem partIds_one : partIds 1 = [0] := rfl

theorem zero_not_mem_partIds {n : ℕ} (h : n ≠ 1) : 0 ∉ partIds n := by
  rw [partIds, if_neg h]
  simp

/-- There is a group after the latest one if there is one after each. -/
theorem lt_maxGroupId_add_one_iff {hash : Bytes} : maxGroupId payments hash < maxGroupId payments hash + 1 ↔
    ∀ p ∈ payments, p.paymentHash = hash → p.groupid.toNat + 1 < UInt64.size := by
  have hnext : ∀ x : UInt64, x.toNat + 1 < UInt64.size ↔ x ≤ 18446744073709551614 := by
    intro x
    rw [UInt64.le_iff_toNat_le]
    simp only [UInt64.size, UInt64.reduceToNat]
    omega
  rw [lt_add_one_iff, hnext, maxGroupId_le_iff]
  simp only [hnext, listsendpays, List.mem_filter, decide_eq_true_eq, and_imp]

/-- Part zero of the latest group is complete only if it is the one part that was sent, in a new group. -/
theorem length_of_complete {hash : Bytes} {groupId : UInt64}
    (hfailed : ∀ p ∈ payments, p.paymentHash = hash → p.status = .failed)
    (hids : sent.map (·.partid) = partIds sent.length) (hsent : ∀ p ∈ sent, p.groupid = groupId)
    (hgroup : groupId = maxGroupId payments hash + 1)
    (hmem : ⟨hash, max (maxGroupId payments hash) groupId, 0, .complete⟩ ∈ payments ++ sent) :
    sent.length = 1 ∧ maxGroupId payments hash < maxGroupId payments hash + 1 := by
  rcases List.mem_append.1 hmem with hold | hnew
  · cases hfailed _ hold rfl
  · have hzero : 0 ∈ sent.map (·.partid) := List.mem_map.2 ⟨_, hnew, rfl⟩
    rw [hids] at hzero
    have hle : maxGroupId payments hash ≤ groupId := max_eq_right_iff.1 (hsent _ hnew)
    have hne : maxGroupId payments hash ≠ groupId := by
      rw [hgroup]
      grind
    exact ⟨by_contra fun hlen => zero_not_mem_partIds hlen hzero, hgroup ▸ lt_of_le_of_ne hle hne⟩

theorem responses_eq_singleton {q : SendPay} {r : WaitsendpayResponse} {responses : List WaitsendpayResponse}
    (hask : [q].map (askPart ld payments) = responses.map .ok) (hr : askPart ld payments q = .ok r) :
    responses = [r] := by
  rw [List.map_singleton, hr] at hask
  cases responses with
  | nil => cases hask
  | cons r' rest =>
    obtain ⟨hhead, htail⟩ := List.cons.inj hask
    have hrest : rest = [] := by simpa using htail.symm
    cases hhead
    rw [hrest]

/-- **When paying again returns the payment.**  After a call that sent a payment, a second call for the same
invoice returns its hash and preimage without sending exactly if the payment had one part, and no earlier part of it
was in the last group that there is. -/
theorem trampolinepay_again_iff (hld : ld.Documented)
    (h : trampolinepay build ld env req payments = (.ok resp, sent)) (hne : sent ≠ [])
    (hbolt11 : req'.bolt11 = req.bolt11) (hnode : ∃ nodeId, ld.fromSlice req'.trampolineNodeId = .ok nodeId)
    (hconn : env'.connect = .ok ()) (hlist : env'.listsendpays = .ok ()) :
    ReturnsAgain resp (trampolinepay build ld env' req' (payments ++ sent)) ↔
      sent.length = 1 ∧
        ∀ p ∈ payments, p.paymentHash = resp.paymentHash → p.groupid.toNat + 1 < UInt64.size := by
  obtain ⟨nodeId, decoded, plan, hdec, hfailed, hadd, hsend⟩ := sendParts_of_trampolinepay h hne
  obtain ⟨hids, hparts, hhash, responses, hask, hpre⟩ := sendParts_eq_ok hsend
  have hgroup := addU64_eq_some hadd
  have hlatest : maxGroupId (payments ++ sent) decoded.paymentHash =
      max (maxGroupId payments decoded.paymentHash) plan.groupId := maxGroupId_append hne hparts
  -- every part that was sent is complete, so the second call waits
  have hanswer : ∀ p ∈ sent, ∃ r, askPart ld (payments ++ sent) p = .ok r := fun p hp => by
    obtain ⟨r, -, hr⟩ := List.mem_map.1 (hask ▸ List.mem_map_of_mem hp)
    exact ⟨r, hr.symm⟩
  obtain ⟨p, hp⟩ := List.exists_mem_of_ne_nil sent hne
  obtain ⟨r, hr⟩ := hanswer p hp
  have hcomplete := (hld.complete _ _ _ _ _ hr).2
  obtain ⟨second, hsecond, hok⟩ := trampolinepay_of_existing build hld hnode hconn (hbolt11 ▸ hdec) hlist
    hcomplete (hparts p hp).1 nofun
  rw [hlatest] at hok
  rw [hhash, ← lt_maxGroupId_add_one_iff]
  unfold ReturnsAgain
  rw [hsecond]
  constructor
  · rintro ⟨resp', heq, -, -⟩
    obtain ⟨r', preimage, hr', -, -⟩ := (hok resp').1 (Prod.mk.inj heq).1
    exact length_of_complete hfailed hids (fun q hq => (hparts q hq).2) hgroup (hld.complete _ _ _ _ _ hr').2
  · rintro ⟨hlen, hnext⟩
    obtain ⟨q, rfl⟩ := List.length_eq_one_iff.1 hlen
    have hq := hparts q (List.mem_singleton_self _)
    have hpart : q.partid = 0 := by
      rw [hlen, partIds_one] at hids
      simpa using hids
    obtain ⟨r', hr'⟩ := hanswer q (List.mem_singleton_self _)
    have hmax : max (maxGroupId payments decoded.paymentHash) plan.groupId = plan.groupId :=
      max_eq_right (hgroup ▸ hnext.le)
    have hwait : ld.waitsendpay (payments ++ [q]) ⟨decoded.paymentHash,
        some (max (maxGroupId payments decoded.paymentHash) plan.groupId), some 0⟩ = .ok r' := by
      have := hr'
      rwa [askPart, hq.1, hq.2, hpart, ← hmax] at this
    have hpreimage : r'.paymentPreimage = some resp.paymentPreimage := by
      rw [responses_eq_singleton hask hr'] at hpre
      simpa [lastPreimage] using hpre
    refine ⟨_, Prod.ext ((hok _).2 ⟨r', _, hwait, hpreimage, rfl⟩) rfl, ?_, rfl⟩
    rw [hhash]
    exact (hld.complete _ _ _ _ _ hwait).1

end Again

/-! ### One channel and two channels -/

/-- A node that keeps the promises of `waitsendpay`; every payment has the preimage `77`. -/
def plainLightningd : Lightningd where
  fromSlice b := if b.length = 33 then .ok b else .error "malformed public key"
  decodepay _ := .ok ⟨[0x11], some 200, none, [0x03], some [0x22]⟩
  waitsendpay payments req :=
    let group := req.groupid.getD (maxGroupId payments req.paymentHash)
    let part := req.partid.getD 0
    if ⟨req.paymentHash, group, part, .complete⟩ ∈ payments then
      .ok ⟨none, 201, none, some part, req.paymentHash, some [0x77]⟩
    else .error ⟨some 208, "Never attempted payment part"⟩

theorem plainLightningd_documented : plainLightningd.Documented where
  default _ _ := rfl
  complete payments hash group part resp h := by
    simp only [plainLightningd, Option.getD_some] at h
    split at h
    · rename_i hmem
      cases h
      exact ⟨rfl, hmem⟩
    · cases h

/-- A connected peer with the feature, these channels, and parts that come to the status. -/
def payAnswers (channels : List PeerChannel) (status : SendPayStatus) : CallAnswers where
  connect := .ok ()
  listsendpays := .ok ()
  peer := ⟨.ok (), .ok "v24.02", .ok [⟨true, none⟩], .ok (), .ok [], .ok ()⟩
  listpeers := .ok [⟨true, some (hexEncode (0x08 :: List.replicate 53 0))⟩]
  listpeerchannels := .ok channels
  deadline := 20000
  channelWorld := fun _ => silentWorld
  preapproveinvoice := .ok ()
  partConnect _ := .ok ()
  sendpay _ := .ok status

/-- An invoice of 200 millisatoshi, and half a percent on top. -/
def payRequest : TrampolinePayRequest where
  bolt11 := "lnbc2n"
  trampolineNodeId := List.replicate 33 2
  amountMsat := 0
  label := ""
  maxfeepercent := 0
  maxdelay := 0

def payInvoice : Decodepay := ⟨[0x11], some 200, none, [0x03], some [0x22]⟩

def peerChannel (scid : String) (spendableMsat : ℕ) : PeerChannel :=
  ⟨some scid, none, none, some spendableMsat, some 1⟩

section

variable {build : Build} {channels : List PeerChannel} {status : SendPayStatus} {alloc : List ChannelContribution}

theorem prepare_payRequest {maxGroupId groupId : UInt64} (hne : (payChannels channels).isEmpty = false)
    (halloc : allocate (payChannels channels) 201 = some alloc) (hgroup : addU64 build maxGroupId 1 = some groupId) :
    prepare build (payAnswers channels status) payRequest payRequest.trampolineNodeId payInvoice maxGroupId =
      .ok ⟨200, 201, alloc, groupId⟩ := by
  have hguard : featureGuard (0x08 :: List.replicate 53 0) trampolineFeatureBit = .ok () := rfl
  have hfeat : peerFeatures (hexEncode payRequest.trampolineNodeId)
      [⟨true, some (hexEncode (0x08 :: List.replicate 53 0))⟩] = .ok (0x08 :: List.replicate 53 0) := by
    simp only [peerFeatures, List.head?_cons, hexDecode_hexEncode]
  have hoverpay : overpay 200 payRequest.maxfeepercent = 1 := by decide +kernel
  have hamount : orPanic (addU64 build 200 (overpay 200 payRequest.maxfeepercent)) = .ok 201 := by
    rw [hoverpay]
    rfl
  refine bind_eq_ok.2 ⟨(), rfl, bind_eq_ok.2 ⟨_, rfl, bind_eq_ok.2 ⟨_, mapError_eq_ok.2 hfeat, bind_eq_ok.2
    ⟨(), mapError_eq_ok.2 hguard, bind_eq_ok.2 ⟨200, rfl, bind_eq_ok.2 ⟨201, hamount, bind_eq_ok.2
      ⟨channels, rfl, ?_⟩⟩⟩⟩⟩⟩⟩
  have hready := reestablishedChannels_ready payRequest.trampolineNodeId 20000 (payChannels channels)
    fun _ => silentWorld
  have hsplit : splitAmount build (payChannels channels) 201 = .ok alloc := by
    simp only [splitAmount, UInt64.reduceToNat, halloc]
  simp only [hne, Bool.false_eq_true, if_false, payAnswers, hready]
  refine bind_eq_ok.2 ⟨alloc, hsplit, bind_eq_ok.2 ⟨(), rfl, bind_eq_ok.2 ⟨groupId, orPanic_eq_ok.2 hgroup, rfl⟩⟩⟩

theorem trampolinepay_payRequest {payments : List SendPay} {groupId : UInt64}
    (hfailed : (listsendpays payments payInvoice.paymentHash).any (·.status ≠ .failed) = false)
    (hne : (payChannels channels).isEmpty = false) (halloc : allocate (payChannels channels) 201 = some alloc)
    (hgroup : addU64 build (maxGroupId payments payInvoice.paymentHash) 1 = some groupId) :
    trampolinepay build plainLightningd (payAnswers channels status) payRequest payments =
      ((sendParts plainLightningd (payAnswers channels status) payRequest payments payRequest.trampolineNodeId
        payInvoice ⟨200, 201, alloc, groupId⟩).1.mapError .error,
      (sendParts plainLightningd (payAnswers channels status) payRequest payments payRequest.trampolineNodeId
        payInvoice ⟨200, 201, alloc, groupId⟩).2) := by
  have hlook : lookUp plainLightningd (payAnswers channels status) payRequest payments =
      .ok (payRequest.trampolineNodeId, payInvoice, listsendpays payments payInvoice.paymentHash) := rfl
  have hprep : prepare build (payAnswers channels status) payRequest payRequest.trampolineNodeId payInvoice
      (maxGroupId payments payInvoice.paymentHash) = .ok ⟨200, 201, alloc, groupId⟩ :=
    prepare_payRequest hne halloc hgroup
  simp only [trampolinepay, hlook, hfailed, Bool.false_eq_true, if_false, hprep]

end

theorem allocate_of_ascending {channels : List Channel} {amountMsat : ℕ} {alloc : List ChannelContribution}
    (hs : channels.Pairwise fun a b => ascendingLe a b) (hne : alloc.isEmpty = false)
    (h : findAllocation channels amountMsat = some (some alloc)) : allocate channels amountMsat = some alloc := by
  have hasc : findAllocationAscendingOrder channels amountMsat = some (some alloc) := by
    rw [findAllocationAscendingOrder, List.mergeSort_of_pairwise hs, h]
  simp [allocate, hasc, Option.filter, hne]

def paidResponse (parts : ℕ) : PayResponse := ⟨201, 201, some [0x03], parts, [0x11], [0x77]⟩

def payPart (groupid : UInt64) (partid : ℕ) (status : SendPayStatus) : SendPay := ⟨[0x11], groupid, partid, status⟩

def oneChannel : List PeerChannel := [peerChannel "1x1x1" 300]

def twoChannels : List PeerChannel := [peerChannel "1x1x1" 120, peerChannel "2x1x1" 150]

theorem allocate_oneChannel : allocate (payChannels oneChannel) 201 = some [⟨⟨"1x1x1", 300, 1⟩, 201⟩] :=
  allocate_of_ascending (by decide) rfl (by decide +kernel)

theorem allocate_twoChannels : allocate (payChannels twoChannels) 201 =
    some [⟨⟨"1x1x1", 120, 1⟩, 120⟩, ⟨⟨"2x1x1", 150, 1⟩, 81⟩] :=
  allocate_of_ascending (by decide) rfl (by decide +kernel)

/-- The first attempt at the payment has failed. -/
theorem trampolinepay_one_part :
    trampolinepay .debug plainLightningd (payAnswers oneChannel .complete) payRequest [payPart 1 0 .failed] =
      (.ok (paidResponse 1), [payPart 2 0 .complete]) := by
  have hgroup : addU64 .debug (maxGroupId [payPart 1 0 .failed] payInvoice.paymentHash) 1 = some 2 := by decide
  rw [trampolinepay_payRequest (by decide) rfl allocate_oneChannel hgroup]
  rfl

theorem trampolinepay_two_parts :
    trampolinepay .debug plainLightningd (payAnswers twoChannels .complete) payRequest [] =
      (.ok (paidResponse 2), [payPart 1 1 .complete, payPart 1 2 .complete]) := by
  have hgroup : addU64 .debug (maxGroupId [] payInvoice.paymentHash) 1 = some 1 := by decide
  rw [trampolinepay_payRequest (by decide) rfl allocate_twoChannels hgroup]
  rfl

theorem trampolinepay_again_one : ReturnsAgain (paidResponse 1) (trampolinepay .debug plainLightningd
      (payAnswers [] .complete) payRequest ([payPart 1 0 .failed] ++ [payPart 2 0 .complete])) ↔
    [payPart 2 0 .complete].length = 1 ∧ ∀ p ∈ [payPart 1 0 .failed],
      p.paymentHash = (paidResponse 1).paymentHash → p.groupid.toNat + 1 < UInt64.size :=
  trampolinepay_again_iff plainLightningd_documented trampolinepay_one_part (by decide) rfl ⟨_, rfl⟩ rfl rfl

/-- A payment over two channels has completed, and paying again is an error. -/
theorem trampolinepay_not_idempotent : ¬ ∀ (build : Build) (ld : Lightningd) (env env' : CallAnswers)
    (req req' : TrampolinePayRequest) (payments sent : List SendPay) (resp : PayResponse), ld.Documented →
      trampolinepay build ld env req payments = (.ok resp, sent) → sent ≠ [] → req'.bolt11 = req.bolt11 →
      (∃ nodeId, ld.fromSlice req'.trampolineNodeId = .ok nodeId) → env'.connect = .ok () →
      env'.listsendpays = .ok () → ReturnsAgain resp (trampolinepay build ld env' req' (payments ++ sent)) := by
  intro h
  have hagain := h _ _ _ (payAnswers [] .complete) _ payRequest _ _ _ plainLightningd_documented
    trampolinepay_two_parts (by decide) rfl ⟨_, rfl⟩ rfl rfl
  obtain ⟨resp, heq, -, -⟩ := hagain
  have hfails : (trampolinepay .debug plainLightningd (payAnswers [] .complete) payRequest
      ([] ++ [payPart 1 1 .complete, payPart 1 2 .complete])).1 =
      .error (.error (.new (.rpcError 208) "Never attempted payment part")) := rfl
  rw [heq] at hfails
  cases hfails

end Greenlight.Tramp
