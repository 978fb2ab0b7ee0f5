import Mathlib.Data.List.Nodup
import Greenlight.Plugin.PipelineInv

/-!
# What lightningd is answered

The ids that the proxy gives are distinct until its counter has gone round, so the stage gives every call the answer
to its own request.  That answer was known without a signer, or it comes from a signer that was asked exactly this,
that checked it and handed it to VLS, and the store is not behind the versions of its state (`hsm_answer`).  A call
that is not answered yet has its response in its channel, or its request is in the table and in the backlog of the next
signer (`request_not_lost`).
-/

namespace Greenlight.Plugin.Pipeline

open Greenlight.Lib Greenlight.Persist Greenlight.Stager

variable {Value : Type} {env : PipelineEnv Value} {capacity : ℕ} {p p' : Pipeline Value} {e : PipelineEvent}
  {es : List PipelineEvent} {state : State Value} {signers : SignerId → State Value}

/-! ### The ids -/

/-- The counter has not gone round. -/
def InRange (p : Pipeline Value) : Prop := 1000 + p.hsm.length ≤ UInt32.size

theorem requestId_injective {j k n : ℕ} (hn : 1000 + n ≤ UInt32.size) (hj : j < n) (hk : k < n)
    (h : UInt32.ofNat (1000 + j) = UInt32.ofNat (1000 + k)) : j = k := by
  have hnat := congrArg UInt32.toNat h
  rw [UInt32.toNat_ofNat_of_lt' (by omega),
    UInt32.toNat_ofNat_of_lt' (by omega)] at hnat
  omega

theorem requestId_ne_zero {k n : ℕ} (hn : 1000 + n ≤ UInt32.size) (hk : k < n) : UInt32.ofNat (1000 + k) ≠ 0 := by
  intro h
  have hnat := congrArg UInt32.toNat h
  rw [UInt32.toNat_ofNat_of_lt' (by omega)] at hnat
  simp at hnat

theorem HsmInv.map_requestId (h : HsmInv env capacity p) :
    (sentRequests p.seen).map (·.requestId) = p.staged.map fun k => UInt32.ofNat (1000 + k) := by
  refine List.ext_getElem? fun c => ?_
  rw [List.getElem?_map, List.getElem?_map]
  rcases lt_or_ge c p.staged.length with hlt | hge
  · obtain ⟨k, hk⟩ : ∃ k, p.staged[c]? = some k := ⟨_, List.getElem?_eq_getElem hlt⟩
    obtain ⟨req, phase, hcall, hreq, -⟩ := h.sent c k hk
    rw [hk, hreq, Option.map_some, Option.map_some, h.ids k _ hcall]
  · rw [List.getElem?_eq_none hge, List.getElem?_eq_none (by rwa [h.length])]
    rfl

theorem HsmInv.distinctIds (h : HsmInv env capacity p) (hrange : p.InRange) : DistinctIds p.seen := by
  unfold DistinctIds
  rw [h.map_requestId]
  have hlt : ∀ k ∈ p.staged, k < p.hsm.length := fun k hk => by
    obtain ⟨c, hc⟩ := List.mem_iff_getElem?.1 hk
    obtain ⟨req, phase, hcall, -⟩ := h.sent c k hc
    exact (List.getElem?_eq_some_iff.1 hcall).1
  exact List.Nodup.map_on (fun j hj k hk heq => requestId_injective hrange (hlt j hj) (hlt k hk) heq) h.nodup

/-! ### Answers -/

theorem HsmInv.eq_of_requestId (h : HsmInv env capacity p) (hrange : p.InRange) {r r' : HsmRequest}
    (hr : r ∈ sentRequests p.seen) (hr' : r' ∈ sentRequests p.seen) (hid : r.requestId = r'.requestId) : r = r' :=
  List.inj_on_of_nodup_map (h.distinctIds hrange) hr hr' hid

/-- The response of a signer to a request of lightningd. -/
structure SignedAnswer (env : PipelineEnv Value) (p : Pipeline Value) (req : HsmRequest) (x : HsmResponse)
    (exchange : Exchange Value) : Prop where
  response : exchange.response = x
  context : exchange.message.context = req.context
  raw : exchange.message.raw = req.raw
  handled : (env.signer exchange.signer).Handled env.toSignerEnv exchange.now exchange.state exchange.message x
  stored : PluginNodeServer.StoredAtLeast p.plugin.stored x.signerState

/-- **What lightningd is answered**, in every run until the counter of the proxy has gone round: the response has the
id of the request and no error, and it was known without a signer or is what VLS returned to a signer that was asked
exactly this and admitted it; then the store has each key of the signer's state with its version or a higher one. -/
theorem hsm_answer (hr : Run (step env) (start capacity state signers) es p) (hrange : p.InRange) {k : ℕ}
    {req : HsmRequest} {x : HsmResponse} (hcall : p.hsm[k]? = some ⟨req, .answered x⟩) :
    x.requestId = req.requestId ∧ x.error = "" ∧
      (env.server.request req = .answered x ∨ ∃ exchange ∈ p.log, SignedAnswer env p req x exchange) := by
  have hinv : Inv env capacity p := inv_of_run hr
  rcases hinv.hsm.answered k req x hcall with hcanned | ⟨c, hc, hx⟩
  · obtain ⟨hid, herror, -⟩ := StagingHsmServer.request_answered hcanned
    exact ⟨hid, herror, Or.inl hcanned⟩
  obtain ⟨req', phase, hk, hreq, -⟩ := hinv.hsm.sent c k hc
  obtain ⟨rfl, -⟩ := HsmCall.mk.inj (Option.some.inj (hcall.symm.trans hk))
  have hids := hinv.hsm.distinctIds hrange
  have hmem : req ∈ sentRequests p.seen := List.mem_of_getElem? hreq
  -- the channel took in the first answer to the request that it was made for
  obtain ⟨y, hy, pre, r, mid, post, hseen, hpre, hid, -⟩ :
      ∃ y, (p.stage.channels c).sent = [y] ∧ FirstAnswer p.seen c y := by
    rcases (routed_of_run hids hinv.hsm.run).answered c with hnil | hfirst
    · rw [hnil] at hx
      cases hx
    · exact hfirst
  obtain rfl : x = y := by simpa [hy] using hx
  obtain rfl : r = req := by
    have hr : (sentRequests p.seen)[c]? = some r := by
      rw [hseen, ← hpre]
      simp [sentRequests, StageEvent.sent?]
    exact Option.some.inj (hr.symm.trans hreq)
  obtain ⟨⟨exchange, hlog, hresponse⟩, herror, hstored⟩ := hinv.answers.responded x (by simp [hseen])
  refine ⟨hid, herror, Or.inr ⟨exchange, hlog, ?_⟩⟩
  obtain ⟨hoffered, state', hserve⟩ := hinv.answers.log exchange hlog
  rw [hresponse] at hserve
  obtain ⟨hxid, hanswer⟩ := Signer.serve_spec hserve
  have hhandled : (env.signer exchange.signer).Handled env.toSignerEnv exchange.now exchange.state
      exchange.message x := by
    rcases hanswer with ⟨hne, -⟩ | ⟨-, -, hhandled⟩
    · exact absurd herror hne
    · exact hhandled
  rcases hoffered with hzero | ⟨r', hr', hid', hcontext, hraw⟩
  · -- no request has the id of the heartbeat
    have hk' := hinv.hsm.ids k _ hcall
    refine absurd ?_ (requestId_ne_zero hrange (List.getElem?_eq_some_iff.1 hcall).1)
    rw [← hk', ← hid, hxid, hzero]
  · obtain rfl := hinv.hsm.eq_of_requestId hrange hr' hmem (hid'.symm.trans (hxid.symm.trans hid))
    exact ⟨hresponse, hcontext, hraw, hhandled, hstored⟩

/-- A node without canned answers, and signers that answer a heartbeat and `ecdh`. -/
def plainEnv : PipelineEnv Bool where
  prost := Prost.bolt11
  vls := { Signer.plainVls with
    fromVec := fun raw =>
      match raw with
      | 0 :: 1 :: _ => .ok .ecdh
      | 7 :: 216 :: _ => .ok .getHeartbeat
      | _ => .error "unknown message" }
  json := SerdeJson.bool
  nodeChannelId := (· ++ ·)
  handle _ msg _ :=
    match msg with
    | .ecdh => ([], .ok (0 :: 100 :: List.replicate 32 7))
    | _ => ([], .ok [8, 60])
  debug _ := ""
  server := ⟨[], []⟩
  signer _ := .plain
  heartbeat := [7, 216]

/-- The node has a state, and its signers have none yet. -/
def plainStart : Pipeline Bool := start 1000 (State.new.insert "nodestates/a" (0, false)) fun _ => .new

def ecdhRequest : HsmRequest := ⟨1000, none, 0 :: 1 :: List.replicate 33 2, [], []⟩

def ecdhResponse : HsmResponse where
  requestId := 1000
  raw := 0 :: 100 :: List.replicate 32 7
  signerState := (State.new.insert "nodestates/a" (0, false)).toEntries SerdeJson.bool
  error := ""

/-- A request is staged, and a signer attaches and answers the heartbeat and the request. -/
def ecdhRun : List PipelineEvent :=
  [.forward none ecdhRequest.raw, .request 0, .attach 0 [1000], .fill 0 [] none, .push 0, .take 0, .fill 0 [] none,
    .push 0, .serve 0 0 (some 0), .plugin (.drop 0), .acknowledge 0, .serve 0 0 (some 1)] ++
    (PluginNodeServer.beforeRespond 1).map .plugin ++ [.plugin (.respond 1), .receive 0]

theorem hsm_answer_ecdh : ∃ p, Run (step plainEnv) plainStart ecdhRun p ∧ p.InRange ∧
    p.hsm[0]? = some ⟨ecdhRequest, .answered ecdhResponse⟩ ∧
    ecdhResponse.requestId = ecdhRequest.requestId ∧ ecdhResponse.error = "" ∧
    (plainEnv.server.request ecdhRequest = .answered ecdhResponse ∨
      ∃ exchange ∈ p.log, SignedAnswer plainEnv p ecdhRequest ecdhResponse exchange) := by
  obtain ⟨p, hr, hlength, hcall⟩ : ∃ p, Run (step plainEnv) plainStart ecdhRun p ∧ p.hsm.length = 1 ∧
      p.hsm[0]? = some ⟨ecdhRequest, .answered ecdhResponse⟩ := ⟨_, rfl, rfl, rfl⟩
  have hrange : p.InRange := by
    rw [InRange, hlength]
    decide
  exact ⟨p, hr, hrange, hcall, hsm_answer hr hrange hcall⟩

/-! ### Requests without an answer -/

theorem length_links_of_run (hr : Run (step env) (start capacity state signers) es p) :
    p.links.length = p.stage.streams.length := by
  refine hr.invariant (I := fun p => p.links.length = p.stage.streams.length) (fun {p e p'} h hstep => ?_) rfl
  have hstage : ∀ {f : StageEvent} {stage : World}, Stager.step p.stage f = some stage → (∀ o, f ≠ .mystream o) →
      stage.streams.length = p.stage.streams.length := by
    intro f stage hstage hf
    cases Stager.step_outcome hstage with
    | attached order => exact absurd rfl (hf order)
    | ready => exact List.length_set
    | sent | unknown | responded | refused | received | closed => rfl
  cases step_outcome hstep with
  | received hcall hx hs | cancelled hcall hs | responded hcall hplugin hs =>
    exact h.trans (hstage hs nofun).symm
  | took hlink ha hnext hs | lagged hlink hs => exact List.length_set.trans (h.trans (hstage hs nofun).symm)
  | attached hdetached hs =>
    cases Stager.step_outcome hs with
    | attached order => simp [Pipeline.withStage, World.mystream, h]
  | greets | fills | chokes | pushed | greetsNobody | noticed | died | lost | served | acknowledged | hungUp =>
    exact List.length_set.trans h
  | forwarded | canned | panicked | staged | abandoned | booted | plugin => exact h

/-- **No request is lost**, in every run until the counter of the proxy has gone round: a call that waits finds its
response in its channel, or its request is outstanding and the next signer that attaches, whichever it is, gets it in
the backlog of its stream. -/
theorem request_not_lost (hr : Run (step env) (start capacity state signers) es p) (hrange : p.InRange) {k c : ℕ}
    {req : HsmRequest} (hcall : p.hsm[k]? = some ⟨req, .waiting c⟩) :
    (∃ x p', p.step env (.receive k) = some p' ∧ p'.hsm[k]? = some ⟨req, .answered x⟩) ∨
      ∀ i order p', p.step env (.attach i order) = some p' →
        ∃ a, p'.stage.streams[p.links.length]? = some a ∧ req ∈ a.stream.backlog.map (·.request) := by
  have hinv : Pipeline.Inv env capacity p := inv_of_run hr
  have hids := hinv.hsm.distinctIds hrange
  obtain ⟨hstaged, hopen, htaken⟩ := hinv.hsm.waiting k req c hcall
  obtain ⟨req', phase, hk, hreq, -⟩ := hinv.hsm.sent c k hstaged
  obtain ⟨rfl, -⟩ := HsmCall.mk.inj (Option.some.inj (hcall.symm.trans hk))
  -- either an answer is in the channel, or the request is outstanding still
  cases hsent : (p.stage.channels c).sent with
  | cons x rest =>
    have hrecv : (p.stage.channels c).recv = some (x, { p.stage.channels c with taken := 1 }) := by
      simp [Mpsc.recv, hopen, htaken, hsent]
    refine Or.inl ⟨x, _, by simp only [step, hcall, hrecv]; rfl, ?_⟩
    exact List.getElem?_set_self (List.getElem?_eq_some_iff.1 hcall).1
  | nil =>
    have hout : Outstanding p.seen req := ⟨c, kept_of_run hids hinv.hsm.run c req hreq hsent hopen⟩
    refine Or.inr fun i order p' hstep => ?_
    cases step_outcome hstep with
    | attached hdetached hstage =>
      cases Stager.step_outcome hstage with
      | attached _ hperm =>
        refine ⟨⟨⟨backlogOf p.stage order, p.stage.stage.notify.subscribe⟩, []⟩, ?_,
          (mem_backlogOf (Stager.inv_of_run hids hinv.hsm.run) hperm).2 hout⟩
        rw [length_links_of_run hr]
        exact List.getElem?_concat_length

/-- The connection of a signer breaks after it was given a request, and another request is staged. -/
def hangupRun : List PipelineEvent :=
  [.forward none ecdhRequest.raw, .request 0, .attach 0 [1000], .fill 0 [] none, .push 0, .take 0, .fill 0 [] none,
    .push 0, .hangup 0, .forward none ecdhRequest.raw, .request 1]

theorem request_not_lost_hangup : ∃ p, Run (step plainEnv) plainStart hangupRun p ∧ p.InRange ∧
    p.hsm[0]? = some ⟨ecdhRequest, .waiting 0⟩ ∧
    ((∃ x p', p.step plainEnv (.receive 0) = some p' ∧ p'.hsm[0]? = some ⟨ecdhRequest, .answered x⟩) ∨
      ∀ i order p', p.step plainEnv (.attach i order) = some p' →
        ∃ a, p'.stage.streams[p.links.length]? = some a ∧ ecdhRequest ∈ a.stream.backlog.map (·.request)) := by
  obtain ⟨p, hr, hlength, hcall⟩ : ∃ p, Run (step plainEnv) plainStart hangupRun p ∧ p.hsm.length = 2 ∧
      p.hsm[0]? = some ⟨ecdhRequest, .waiting 0⟩ := ⟨_, rfl, rfl, rfl⟩
  have hrange : p.InRange := by
    rw [InRange, hlength]
    decide
  exact ⟨p, hr, hrange, hcall, request_not_lost hr hrange hcall⟩

/-! ### The number of signers -/

end Greenlight.Plugin.Pipeline
