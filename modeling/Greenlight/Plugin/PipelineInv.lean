import Greenlight.Plugin.Pipeline
import Greenlight.Plugin.Storage

/-!
# The invariants of the pipeline

`HsmInv` ties the calls of `Hsm::request` to the channels of the stage, `LinkInv` what is on its way to a signer to
the requests that were staged, and `AnswerInv` what the stage was given to what signers have answered.  Each is kept
by every step.
-/

namespace Greenlight.Plugin.PluginNodeServer

open Greenlight.Lib Greenlight.Persist

variable {Value : Type} {json : SerdeJson Value} {p p' : PluginNodeServer Value} {e : Event} {id : CallId}
  {c' : Call Value}

/-! ### The calls of the signers -/

theorem decode_error (h : p.step json (.decode id) = some p') {new : State Value} (hid : p'.calls id = some c')
    (hnew : c'.phase.decoded? = some new) : c'.response.error = "" := by
  simp only [step] at h
  split at h
  · rename_i response hcall
    split_ifs at h with herror
    · cases h
      obtain rfl : _ = c' := by simpa [finish, setCall] using hid
      cases hnew
    · split at h
      · cases h
        obtain rfl : _ = c' := by simpa [finish, setCall] using hid
        cases hnew
      · cases h
        obtain rfl : _ = c' := by simpa [setCall] using hid
        simpa using herror
  · cases h

/-- A step begins a call, or moves one on that keeps its response; what is decoded has no error. -/
theorem call_step (h : p.step json e = some p') : ∃ i c', p'.calls = Function.update p.calls i (some c') ∧
    (e = .call i c'.response ∨ ∃ c, p.calls i = some c ∧ c.response = c'.response) ∧
    ∀ new, c'.phase.decoded? = some new → c'.response.error = "" ∨
      ∃ c, p.calls i = some c ∧ c.response = c'.response ∧ c.phase.decoded? = some new := by
  cases step_outcome h with
  | call hi => exact ⟨_, _, rfl, Or.inl rfl, nofun⟩
  | reject hi => exact ⟨_, _, rfl, Or.inr ⟨_, hi, rfl⟩, nofun⟩
  | @decode i response new hi hdecoded =>
    refine ⟨i, ⟨response, .decoded new⟩, rfl, Or.inr ⟨_, hi, rfl⟩, fun _ _ => Or.inl ?_⟩
    exact decode_error h (Function.update_self _ _ _) rfl
  | lockState hi _ | merge hi | lockStore hi _ | write hi =>
    exact ⟨_, _, rfl, Or.inr ⟨_, hi, rfl⟩, fun _ hnew => Or.inr ⟨_, hi, rfl, hnew⟩⟩
  | writeFailed hi | respond hi | drop hi _ => exact ⟨_, _, rfl, Or.inr ⟨_, hi, rfl⟩, nofun⟩

theorem response_step (h : p.step json e = some p') (hid : p'.calls id = some c') :
    e = .call id c'.response ∨ ∃ c, p.calls id = some c ∧ c.response = c'.response := by
  obtain ⟨i, d, hcalls, hd, -⟩ := call_step h
  rw [hcalls] at hid
  by_cases hne : id = i
  · subst hne
    obtain rfl : d = c' := by simpa using hid
    exact hd
  · rw [Function.update_of_ne hne] at hid
    exact Or.inr ⟨c', hid, rfl⟩

theorem clean_step (h : p.step json e = some p') {new : State Value} (hid : p'.calls id = some c')
    (hnew : c'.phase.decoded? = some new) : c'.response.error = "" ∨
      ∃ c, p.calls id = some c ∧ c.response = c'.response ∧ c.phase.decoded? = some new := by
  obtain ⟨i, d, hcalls, -, hd⟩ := call_step h
  rw [hcalls] at hid
  by_cases hne : id = i
  · subst hne
    obtain rfl : d = c' := by simpa using hid
    exact hd new hnew
  · rw [Function.update_of_ne hne] at hid
    exact Or.inr ⟨c', hid, rfl, hnew⟩

end Greenlight.Plugin.PluginNodeServer

namespace Greenlight.Plugin.Pipeline

open Greenlight.Lib Greenlight.Persist Greenlight.Stager

variable {Value : Type} {env : PipelineEnv Value} {capacity : ℕ} {p p' : Pipeline Value} {e : PipelineEvent}

/-! ### The calls of the proxy -/

/-- **The calls and the channels**: the call that was the `c`-th to be staged waits for the channel `c`, and what a
call was answered came from its channel or was known without a signer. -/
structure HsmInv (env : PipelineEnv Value) (capacity : ℕ) (p : Pipeline Value) : Prop where
  run : Run Stager.step (.new capacity) p.seen p.stage
  ids : ∀ (k : ℕ) (call : HsmCall), p.hsm[k]? = some call → call.request.requestId = UInt32.ofNat (1000 + k)
  length : (sentRequests p.seen).length = p.staged.length
  sent : ∀ c k : ℕ, p.staged[c]? = some k → ∃ (req : HsmRequest) (phase : HsmPhase),
    p.hsm[k]? = some ⟨req, phase⟩ ∧ (sentRequests p.seen)[c]? = some req ∧ phase ≠ .forwarded
  nodup : p.staged.Nodup
  fresh : ∀ c, p.staged.length ≤ c → Untouched p.stage c
  waiting : ∀ (k : ℕ) (req : HsmRequest) (c : ℕ), p.hsm[k]? = some ⟨req, .waiting c⟩ →
    p.staged[c]? = some k ∧ Untouched p.stage c
  answered : ∀ (k : ℕ) (req : HsmRequest) (x : HsmResponse), p.hsm[k]? = some ⟨req, .answered x⟩ →
    env.server.request req = .answered x ∨ ∃ c : ℕ, p.staged[c]? = some k ∧ x ∈ (p.stage.channels c).sent

theorem sentRequests_concat_of_none {es : List StageEvent} {f : StageEvent} (hf : f.sent? = none) :
    sentRequests (es ++ [f]) = sentRequests es := by
  rw [sentRequests_concat, hf, Option.toList_none, List.append_nil]

/-- The stage takes a step that sends nothing and touches no channel that a call waits for. -/
theorem HsmInv.withStage (h : HsmInv env capacity p) {f : StageEvent} {stage : World} (hf : f.sent? = none)
    (hstep : Stager.step p.stage f = some stage)
    (htouch : ∀ c, f = .close c ∨ f = .recv c → c < p.staged.length ∧ ∀ (k : ℕ) (req : HsmRequest),
      p.hsm[k]? ≠ some ⟨req, .waiting c⟩) :
    HsmInv env capacity (p.withStage f stage) where
  run := run_concat.2 ⟨p.stage, h.run, hstep⟩
  ids := h.ids
  length := (congrArg List.length (sentRequests_concat_of_none hf)).trans h.length
  sent c k hc := by
    obtain ⟨req, phase, hcall, hreq, hphase⟩ := h.sent c k hc
    exact ⟨req, phase, hcall, by rwa [Pipeline.withStage, sentRequests_concat_of_none hf], hphase⟩
  nodup := h.nodup
  fresh c hc := untouched_step hstep (fun hf => (htouch c (Or.inl hf)).1.not_ge hc)
    (fun hf => (htouch c (Or.inr hf)).1.not_ge hc) (h.fresh c hc)
  waiting k req c hcall := by
    obtain ⟨hstaged, hopen⟩ := h.waiting k req c hcall
    exact ⟨hstaged, untouched_step hstep (fun hf => (htouch c (Or.inl hf)).2 k req hcall)
      (fun hf => (htouch c (Or.inr hf)).2 k req hcall) hopen⟩
  answered k req x hcall := by
    rcases h.answered k req x hcall with hcanned | ⟨c, hc, hx⟩
    · exact Or.inl hcanned
    -- what a call was answered with stays in the record of its channel
    · exact Or.inr ⟨c, hc, (channel_step hstep c).1.subset hx⟩

theorem getElem?_set_phase {hsm : List HsmCall} {k j : ℕ} {call call' : HsmCall}
    (h : (hsm.set k call)[j]? = some call') : (j = k ∧ call' = call) ∨ (j ≠ k ∧ hsm[j]? = some call') := by
  rw [List.getElem?_set] at h
  split_ifs at h with hk hlt
  · exact Or.inl ⟨hk.symm, (Option.some.inj h).symm⟩
  · exact Or.inr ⟨Ne.symm hk, h⟩

theorem HsmInv.setPhase (h : HsmInv env capacity p) {k : ℕ} {req : HsmRequest} {old new : HsmPhase}
    (hcall : p.hsm[k]? = some ⟨req, old⟩) (hnew : new ≠ .forwarded) (hwaiting : ∀ c, new ≠ .waiting c)
    (hanswered : ∀ x, new = .answered x → env.server.request req = .answered x ∨
      ∃ c : ℕ, p.staged[c]? = some k ∧ x ∈ (p.stage.channels c).sent) :
    HsmInv env capacity (p.setHsm k ⟨req, new⟩) where
  run := h.run
  ids j call hj := by
    rcases getElem?_set_phase hj with ⟨rfl, rfl⟩ | ⟨-, hj⟩
    · exact h.ids j ⟨req, old⟩ hcall
    · exact h.ids j call hj
  length := h.length
  sent c j hc := by
    obtain ⟨req', phase, hj, hreq, hphase⟩ := h.sent c j hc
    by_cases hjk : j = k
    · subst hjk
      obtain ⟨rfl, rfl⟩ := HsmCall.mk.inj (Option.some.inj (hcall.symm.trans hj))
      exact ⟨req, new, List.getElem?_set_self (List.getElem?_eq_some_iff.1 hj).1, hreq, hnew⟩
    · exact ⟨req', phase, by rw [setHsm, List.getElem?_set_ne (Ne.symm hjk), hj], hreq, hphase⟩
  nodup := h.nodup
  fresh := h.fresh
  waiting j req' c hj := by
    rcases getElem?_set_phase hj with ⟨-, heq⟩ | ⟨-, hj⟩
    · exact absurd (HsmCall.mk.inj heq).2.symm (hwaiting c)
    · exact h.waiting j req' c hj
  answered j req' x hj := by
    rcases getElem?_set_phase hj with ⟨rfl, heq⟩ | ⟨-, hj⟩
    · obtain ⟨rfl, hx⟩ := HsmCall.mk.inj heq
      exact hanswered x hx.symm
    · exact h.answered j req' x hj

theorem HsmInv.of_eq (h : HsmInv env capacity p) (hhsm : p'.hsm = p.hsm) (hstaged : p'.staged = p.staged)
    (hstage : p'.stage = p.stage) (hseen : p'.seen = p.seen) : HsmInv env capacity p' := by
  obtain ⟨run, ids, length, sent, nodup, fresh, waiting, answered⟩ := h
  refine ⟨?_, ?_, ?_, ?_, ?_, ?_, ?_, ?_⟩ <;> simpa only [hhsm, hstaged, hstage, hseen]

theorem HsmInv.forward (h : HsmInv env capacity p) (context : Option HsmRequestContext) (raw : Bytes) :
    HsmInv env capacity
      { p with hsm := p.hsm ++ [⟨⟨UInt32.ofNat (1000 + p.hsm.length), context, raw, [], []⟩, .forwarded⟩] } where
  run := h.run
  ids k call hk := by
    rcases lt_or_ge k p.hsm.length with hlt | hge
    · exact h.ids k call (by rwa [List.getElem?_append_left hlt] at hk)
    · obtain ⟨hbound, -⟩ := List.getElem?_eq_some_iff.1 hk
      -- the new call is the last one, and takes the next id of the counter
      obtain rfl : k = p.hsm.length := by
        simp only [List.length_append, List.length_singleton] at hbound
        omega
      rw [List.getElem?_concat_length] at hk
      obtain rfl := Option.some.inj hk
      rfl
  length := h.length
  sent c k hc := by
    obtain ⟨req, phase, hcall, hreq, hphase⟩ := h.sent c k hc
    exact ⟨req, phase, by rw [List.getElem?_append_left (List.getElem?_eq_some_iff.1 hcall).1, hcall], hreq, hphase⟩
  nodup := h.nodup
  fresh := h.fresh
  waiting k req c hk := by
    rcases lt_or_ge k p.hsm.length with hlt | hge
    · exact h.waiting k req c (by rwa [List.getElem?_append_left hlt] at hk)
    · rw [List.getElem?_append_right hge] at hk
      obtain ⟨-, heq⟩ := HsmCall.mk.inj (List.mem_singleton.1 (List.mem_of_getElem? hk))
      cases heq
  answered k req x hk := by
    rcases lt_or_ge k p.hsm.length with hlt | hge
    · exact h.answered k req x (by rwa [List.getElem?_append_left hlt] at hk)
    · rw [List.getElem?_append_right hge] at hk
      obtain ⟨-, heq⟩ := HsmCall.mk.inj (List.mem_singleton.1 (List.mem_of_getElem? hk))
      cases heq

/-- A call is staged; it waits for the channel that is made for it. -/
theorem HsmInv.stage (h : HsmInv env capacity p) {k : ℕ} {req : HsmRequest}
    (hcall : p.hsm[k]? = some ⟨req, .forwarded⟩) : HsmInv env capacity
      { (p.setHsm k ⟨req, .waiting p.stage.made⟩).withStage (.send req) (p.stage.send req) with
        staged := p.staged ++ [k] } := by
  have hlt : k < p.hsm.length := (List.getElem?_eq_some_iff.1 hcall).1
  have hmade : p.stage.made = p.staged.length := (sourced_of_run h.run).made.trans h.length
  have hnot : k ∉ p.staged := by
    intro hk
    obtain ⟨c, hc⟩ := List.mem_iff_getElem?.1 hk
    obtain ⟨req', phase, hk, -, hphase⟩ := h.sent c k hc
    exact hphase (HsmCall.mk.inj (Option.some.inj (hk.symm.trans hcall))).2
  have hsent : sentRequests (p.seen ++ [.send req]) = sentRequests p.seen ++ [req] := sentRequests_concat _ _
  have hstaged : ∀ {c j : ℕ}, p.staged[c]? = some j → (p.staged ++ [k])[c]? = some j := fun hc => by
    rw [List.getElem?_append_left (List.getElem?_eq_some_iff.1 hc).1, hc]
  refine ⟨run_concat.2 ⟨p.stage, h.run, rfl⟩, fun j call hj => ?_, ?_, fun c j hc => ?_, ?_, fun c hc => ?_,
    fun j req' c hj => ?_, fun j req' x hj => ?_⟩
  · rcases getElem?_set_phase hj with ⟨rfl, rfl⟩ | ⟨-, hj⟩
    · exact h.ids j ⟨req, .forwarded⟩ hcall
    · exact h.ids j call hj
  · simp only [Pipeline.withStage, setHsm, hsent, List.length_append, h.length, List.length_singleton]
  · simp only [Pipeline.withStage, setHsm, hsent]
    rcases lt_or_ge c p.staged.length with hlt' | hge
    · obtain ⟨req', phase, hcall', hreq, hphase⟩ := h.sent c j (by rwa [List.getElem?_append_left hlt'] at hc)
      have hjk : j ≠ k := by
        rintro rfl
        exact hphase (HsmCall.mk.inj (Option.some.inj (hcall'.symm.trans hcall))).2
      refine ⟨req', phase, by rw [List.getElem?_set_ne (Ne.symm hjk), hcall'], ?_, hphase⟩
      rw [List.getElem?_append_left (List.getElem?_eq_some_iff.1 hreq).1, hreq]
    · rw [List.getElem?_append_right hge] at hc
      have hzero : c - p.staged.length = 0 := by
        have hbound := (List.getElem?_eq_some_iff.1 hc).1
        simp only [List.length_singleton] at hbound
        omega
      obtain rfl : c = p.staged.length := by omega
      obtain rfl : k = j := by simpa using hc
      exact ⟨req, .waiting p.stage.made, List.getElem?_set_self hlt, by rw [← h.length, List.getElem?_concat_length],
        nofun⟩
  · refine List.nodup_append.2 ⟨h.nodup, by simp, fun j hj k' hk' => ?_⟩
    rintro rfl
    exact hnot (List.mem_singleton.1 hk' ▸ hj)
  · refine h.fresh c ?_
    simp only [List.length_append, List.length_singleton] at hc
    omega
  · rcases getElem?_set_phase hj with ⟨rfl, heq⟩ | ⟨-, hj⟩
    · obtain ⟨-, hc⟩ := HsmCall.mk.inj heq
      obtain rfl := HsmPhase.waiting.inj hc
      refine ⟨by rw [hmade]; exact List.getElem?_concat_length, h.fresh _ hmade.ge⟩
    · obtain ⟨hc, hopen⟩ := h.waiting j req' c hj
      exact ⟨hstaged hc, hopen⟩
  · rcases getElem?_set_phase hj with ⟨-, heq⟩ | ⟨-, hj⟩
    · cases heq
    · rcases h.answered j req' x hj with hcanned | ⟨c, hc, hx⟩
      · exact Or.inl hcanned
      · exact Or.inr ⟨c, hstaged hc, hx⟩

theorem HsmInv.alone (h : HsmInv env capacity p) {k c : ℕ} {req : HsmRequest} {phase : HsmPhase}
    (hcall : p.hsm[k]? = some ⟨req, .waiting c⟩) (hphase : ∀ c, phase ≠ .waiting c) :
    c < p.staged.length ∧
      ∀ (j : ℕ) (req' : HsmRequest), (p.setHsm k ⟨req, phase⟩).hsm[j]? ≠ some ⟨req', .waiting c⟩ := by
  obtain ⟨hstaged, -⟩ := h.waiting k req c hcall
  refine ⟨(List.getElem?_eq_some_iff.1 hstaged).1, fun j req' hj => ?_⟩
  rcases getElem?_set_phase hj with ⟨-, heq⟩ | ⟨hjk, hj⟩
  · exact hphase c (HsmCall.mk.inj heq).2.symm
  · exact hjk (Option.some.inj ((h.waiting j req' c hj).1.symm.trans hstaged))

theorem hsmInv_step (h : HsmInv env capacity p) (hstep : p.step env e = some p') : HsmInv env capacity p' := by
  cases step_outcome hstep with
  | forwarded context raw => exact h.forward context raw
  | canned hcall hserver =>
    refine h.setPhase hcall nofun nofun ?_
    rintro _ ⟨⟩
    exact Or.inl hserver
  | panicked hcall => exact h.setPhase hcall nofun nofun nofun
  | staged hcall hserver => exact h.stage hcall
  | @received k c req x stage hcall hx hstage =>
    -- the call takes the answer out of the channel that it has for itself
    have hanswered : HsmInv env capacity (p.setHsm k ⟨req, .answered x⟩) := by
      refine h.setPhase hcall nofun nofun ?_
      rintro _ ⟨⟩
      exact Or.inr ⟨c, (h.waiting k req c hcall).1, hx⟩
    refine hanswered.withStage rfl hstage ?_
    rintro _ (⟨⟨⟩⟩ | ⟨⟨⟩⟩)
    exact h.alone hcall nofun
  | @cancelled k c req stage hcall hstage =>
    have hcancelled : HsmInv env capacity (p.setHsm k ⟨req, .cancelled⟩) := h.setPhase hcall nofun nofun nofun
    refine hcancelled.withStage rfl hstage ?_
    rintro _ (⟨⟨⟩⟩ | ⟨⟨⟩⟩)
    exact h.alone hcall nofun
  | attached hdetached hstage => exact (h.withStage rfl hstage (by simp)).of_eq rfl rfl rfl rfl
  | took hlink ha hnext hstage => exact (h.withStage rfl hstage (by simp)).of_eq rfl rfl rfl rfl
  | lagged hlink hstage => exact (h.withStage rfl hstage (by simp)).of_eq rfl rfl rfl rfl
  | responded hcall hplugin hstage => exact (h.withStage rfl hstage (by simp)).of_eq rfl rfl rfl rfl
  | abandoned | greets | fills | chokes | pushed | greetsNobody | noticed | died | lost | served | acknowledged
  | hungUp | booted | plugin => exact h.of_eq rfl rfl rfl rfl

/-! ### What is on its way to a signer -/

/-- The message has what a staged request has, or it is the one that a task starts with. -/
def Offered (es : List StageEvent) (m : HsmRequest) : Prop :=
  m.requestId = 0 ∨ ∃ r ∈ sentRequests es, m.requestId = r.requestId ∧ m.context = r.context ∧ m.raw = r.raw

theorem Offered.append {es : List StageEvent} {m : HsmRequest} (h : Offered es m) (fs : List StageEvent) :
    Offered (es ++ fs) m := by
  rcases h with hzero | ⟨r, hr, hm⟩
  · exact Or.inl hzero
  · exact Or.inr ⟨r, by rw [sentRequests_append]; exact List.mem_append_left _ hr, hm⟩

structure LinkOk (es : List StageEvent) (link : SignerLink) : Prop where
  holding : ∀ req, link.task = .holding req → req ∈ sentRequests es
  sending : ∀ m heartbeat, link.task = .sending m heartbeat → Offered es m
  wire : ∀ m ∈ link.wire.sent, Offered es m

theorem LinkOk.append {es : List StageEvent} {link : SignerLink} (h : LinkOk es link) (fs : List StageEvent) :
    LinkOk (es ++ fs) link where
  holding req hreq := by
    rw [sentRequests_append]
    exact List.mem_append_left _ (h.holding req hreq)
  sending m heartbeat hm := (h.sending m heartbeat hm).append fs
  wire m hm := (h.wire m hm).append fs

/-- The links carry nothing but what was staged. -/
def LinkInv (p : Pipeline Value) : Prop := ∀ link ∈ p.links, LinkOk p.seen link

theorem LinkInv.of_eq (h : LinkInv p) (hlinks : p'.links = p.links) {fs : List StageEvent}
    (hseen : p'.seen = p.seen ++ fs) : LinkInv p' := by
  intro link hlink
  rw [hseen]
  exact (h link (hlinks ▸ hlink)).append fs

theorem LinkInv.set (h : LinkInv p) {l : ℕ} {link : SignerLink} (hlinks : p'.links = p.links.set l link)
    {fs : List StageEvent} (hseen : p'.seen = p.seen ++ fs) (hok : LinkOk p.seen link) : LinkInv p' := by
  intro link' hlink'
  rw [hseen]
  rw [hlinks] at hlink'
  rcases List.mem_or_eq_of_mem_set hlink' with hmem | rfl
  · exact (h link' hmem).append fs
  · exact hok.append fs

theorem linkInv_step (hhsm : HsmInv env capacity p) (h : LinkInv p) (hstep : p.step env e = some p') :
    LinkInv p' := by
  have hold : ∀ {l : ℕ} {link : SignerLink}, p.links[l]? = some link → LinkOk p.seen link := fun hlink =>
    h _ (List.mem_of_getElem? hlink)
  have hnil : p.seen = p.seen ++ [] := (List.append_nil _).symm
  cases step_outcome hstep with
  | staged | received | cancelled | responded => exact h.of_eq rfl rfl
  | forwarded | canned | panicked | abandoned | booted | plugin => exact h.of_eq rfl hnil
  | attached hdetached hstage =>
    intro link hlink
    rcases List.mem_append.1 hlink with hlink | hlink
    · exact (h link hlink).append _
    · obtain rfl := List.mem_singleton.1 hlink
      exact ⟨nofun, nofun, nofun⟩
  | @took l i wire session a q stream stage hlink ha hnext hstage =>
    refine h.set rfl rfl ⟨?_, nofun, (hold hlink).wire⟩
    rintro _ ⟨⟩
    have hsource := sourced_of_run hhsm.run
    rcases StageStream.next_ok hnext with hq | hq
    · exact hsource.backlog a (List.mem_of_getElem? ha) q hq
    · rw [← hsource.log]
      exact List.mem_map_of_mem hq
  | lagged hlink hstage => exact h.set rfl rfl ⟨nofun, nofun, (hold hlink).wire⟩
  | greets hlock hlink =>
    refine h.set rfl hnil ⟨nofun, ?_, (hold hlink).wire⟩
    rintro _ _ ⟨⟩
    exact Or.inl rfl
  | chokes hlink => exact h.set rfl hnil ⟨nofun, nofun, (hold hlink).wire⟩
  | @fills l pending requests configured i req wire session hlock hlink hrequests =>
    refine h.set rfl hnil ⟨nofun, ?_, (hold hlink).wire⟩
    rintro _ _ ⟨⟩
    exact Or.inr ⟨req, (hold hlink).holding req rfl, rfl, rfl, rfl⟩
  | @pushed l i m heartbeat wire wire' session hlink hsend =>
    refine h.set rfl hnil ⟨nofun, nofun, fun m' hm' => ?_⟩
    rw [Mpsc.send_eq_accepted hsend] at hm'
    rcases List.mem_append.1 hm' with hm' | hm'
    · exact (hold hlink).wire m' hm'
    · obtain rfl := List.mem_singleton.1 hm'
      exact (hold hlink).sending m' heartbeat rfl
  | greetsNobody hlink hsend | noticed hlink hsend =>
    exact h.set rfl hnil ⟨nofun, nofun, (hold hlink).wire⟩
  | died hlink hrecv hserve | lost hlink hrecv hserve | served hlink hrecv hserve hplugin =>
    have hwire := Mpsc.recv_eq_some hrecv
    have hok := hold hlink
    refine h.set rfl hnil ⟨hok.holding, hok.sending, fun m hm => hok.wire m ?_⟩
    rw [hwire] at hm
    exact hm
  | acknowledged hlink =>
    have hok := hold hlink
    exact h.set rfl hnil ⟨hok.holding, hok.sending, hok.wire⟩
  | hungUp hlink =>
    have hok := hold hlink
    exact h.set rfl hnil ⟨hok.holding, hok.sending, hok.wire⟩

/-! ### What signers have answered -/

/-- Some signer has given the response. -/
def Given (p : Pipeline Value) (x : HsmResponse) : Prop := ∃ exchange ∈ p.log, exchange.response = x

structure ExchangeOk (env : PipelineEnv Value) (es : List StageEvent) (exchange : Exchange Value) : Prop where
  offered : Offered es exchange.message
  served : ∃ state, (env.signer exchange.signer).serve env.toSignerEnv exchange.now exchange.state exchange.message =
    (state, some exchange.response)

/-- **The answers**: the calls of `respond_hsm_request` have responses that signers gave, and the stage was given such
a response after it was found free of errors and its state was stored. -/
structure AnswerInv (env : PipelineEnv Value) (p : Pipeline Value) : Prop where
  log : ∀ exchange ∈ p.log, ExchangeOk env p.seen exchange
  plugin : p.plugin.Inv env.json
  newer : p.plugin.signerState.AtLeast p.plugin.stored
  calls : ∀ id c, p.plugin.calls id = some c → p.Given c.response
  clean : ∀ id c new, p.plugin.calls id = some c → c.phase.decoded? = some new → c.response.error = ""
  responded : ∀ x, .respond x ∈ p.seen → p.Given x ∧ x.error = "" ∧
    PluginNodeServer.StoredAtLeast p.plugin.stored x.signerState

/-- The record and the history grow, and nothing else changes that the invariant speaks of. -/
theorem AnswerInv.grow (h : AnswerInv env p) (fs : List StageEvent) (new : List (Exchange Value))
    (hplugin : p'.plugin = p.plugin) (hseen : p'.seen = p.seen ++ fs) (hlog : p'.log = p.log ++ new)
    (hnew : ∀ exchange ∈ new, ExchangeOk env p.seen exchange)
    (hfs : ∀ x, .respond x ∈ fs → p.Given x ∧ x.error = "" ∧
      PluginNodeServer.StoredAtLeast p.plugin.stored x.signerState) : AnswerInv env p' := by
  have hgiven : ∀ {x : HsmResponse}, p.Given x → p'.Given x := fun ⟨exchange, hmem, hx⟩ =>
    ⟨exchange, by rw [hlog]; exact List.mem_append_left _ hmem, hx⟩
  have hok : ∀ {exchange : Exchange Value}, ExchangeOk env p.seen exchange → ExchangeOk env p'.seen exchange :=
    fun hold => ⟨by rw [hseen]; exact hold.offered.append fs, hold.served⟩
  refine ⟨fun exchange hmem => ?_, by rw [hplugin]; exact h.plugin, by rw [hplugin]; exact h.newer,
    fun id c hc => ?_, by rw [hplugin]; exact h.clean, fun x hx => ?_⟩
  · rw [hlog] at hmem
    rcases List.mem_append.1 hmem with hmem | hmem
    · exact hok (h.log exchange hmem)
    · exact hok (hnew exchange hmem)
  · rw [hplugin] at hc
    exact hgiven (h.calls id c hc)
  · rw [hseen] at hx
    rw [hplugin]
    rcases List.mem_append.1 hx with hx | hx
    · exact ⟨hgiven (h.responded x hx).1, (h.responded x hx).2⟩
    · exact ⟨hgiven (hfs x hx).1, (hfs x hx).2⟩

theorem AnswerInv.same (h : AnswerInv env p) (hplugin : p'.plugin = p.plugin) (hseen : p'.seen = p.seen)
    (hlog : p'.log = p.log) : AnswerInv env p' :=
  h.grow [] [] hplugin (by rw [hseen, List.append_nil]) (by rw [hlog, List.append_nil])
    (fun _ h => by cases h) (fun _ h => by cases h)

theorem AnswerInv.see (h : AnswerInv env p) {f : StageEvent} (hplugin : p'.plugin = p.plugin)
    (hseen : p'.seen = p.seen ++ [f]) (hlog : p'.log = p.log) (hf : ∀ x, f ≠ .respond x) : AnswerInv env p' :=
  h.grow [f] [] hplugin hseen (by rw [hlog, List.append_nil]) (fun _ h => by cases h)
    (fun x hx => absurd (List.mem_singleton.1 hx).symm (hf x))

theorem AnswerInv.pluginStep (h : AnswerInv env p) {f : Event} {plugin : PluginNodeServer Value}
    (hplugin : p.plugin.step env.json f = some plugin)
    (hcall : ∀ id response, f = .call id response → p.Given response) :
    AnswerInv env { p with plugin := plugin } := by
  have hstored : plugin.stored.AtLeast p.plugin.stored ∧ plugin.signerState.AtLeast plugin.stored := by
    by_cases hf : ∃ id, f = .write id true
    · obtain ⟨id, rfl⟩ := hf
      obtain ⟨hst, hsame⟩ := PluginNodeServer.write_step hplugin
      rw [hst, hsame]
      exact ⟨h.newer, fun k => Versioned.atLeast_refl _⟩
    · obtain ⟨hst, hnewer⟩ := PluginNodeServer.stored_step hplugin (not_exists.1 hf)
      rw [hst]
      exact ⟨fun k => Versioned.atLeast_refl _, fun k => (hnewer k).trans (h.newer k)⟩
  refine ⟨h.log, PluginNodeServer.inv_step h.plugin hplugin, hstored.2, fun id c hc => ?_, fun id c new hc hnew => ?_,
    fun x hx => ?_⟩
  · rcases PluginNodeServer.response_step hplugin hc with hf | ⟨c₀, hc₀, hsame⟩
    · exact hcall id c.response hf
    · exact hsame ▸ h.calls id c₀ hc₀
  · rcases PluginNodeServer.clean_step hplugin hc hnew with herror | ⟨c₀, hc₀, hsame, hold⟩
    · exact herror
    · exact hsame ▸ h.clean id c₀ new hc₀ hold
  · obtain ⟨hgiven, herror, hentries⟩ := h.responded x hx
    exact ⟨hgiven, herror, hentries.mono hstored.1⟩

theorem answerInv_step (hlink : LinkInv p) (h : AnswerInv env p) (hstep : p.step env e = some p') :
    AnswerInv env p' := by
  cases step_outcome hstep with
  | staged | received | cancelled | attached | took | lagged => exact h.see rfl rfl rfl nofun
  | forwarded | canned | panicked | abandoned | greets | fills | chokes | pushed | greetsNobody | noticed | died
  | acknowledged | hungUp | booted => exact h.same rfl rfl rfl
  | @lost l now i task wire wire' m state response hl hrecv hserve =>
    refine h.grow [] [_] rfl (List.append_nil _).symm rfl (fun exchange hmem => ?_) (fun _ h => by cases h)
    obtain rfl := List.mem_singleton.1 hmem
    exact ⟨(hlink _ (List.mem_of_getElem? hl)).wire m (Mpsc.mem_of_recv hrecv), state, hserve⟩
  | @served l now id i task wire wire' m state response plugin hl hrecv hserve hplugin =>
    -- the exchange is logged before the plugin hears of the response
    have hlogged : AnswerInv env { p with log := p.log ++ [⟨i, now, p.signers i, m, response⟩] } := by
      refine h.grow [] [_] rfl (List.append_nil _).symm rfl (fun exchange hmem => ?_) (fun _ h => by cases h)
      obtain rfl := List.mem_singleton.1 hmem
      exact ⟨(hlink _ (List.mem_of_getElem? hl)).wire m (Mpsc.mem_of_recv hrecv), state, hserve⟩
    refine (hlogged.pluginStep hplugin ?_).same rfl rfl rfl
    rintro _ _ ⟨⟩
    exact ⟨_, List.mem_append_right _ (List.mem_singleton_self _), rfl⟩
  | @responded id c plugin stage hcall hplugin hstage =>
    have hafter := h.pluginStep hplugin nofun
    refine hafter.grow [.respond c.response] [] rfl rfl (List.append_nil _).symm (fun _ h => by cases h) fun x hx => ?_
    obtain rfl := StageEvent.respond.inj (List.mem_singleton.1 hx)
    cases PluginNodeServer.step_outcome hplugin with
    | @respond _ response new hid =>
      obtain rfl := Option.some.inj (hid.symm.trans hcall)
      exact ⟨h.calls id _ hid, h.clean id _ new hid rfl, h.plugin.storedAtLeast hid⟩
  | plugin hnocall _ hplugin => exact h.pluginStep hplugin fun id response hf => absurd hf (hnocall id response)

/-! ### All of it -/

structure Inv (env : PipelineEnv Value) (capacity : ℕ) (p : Pipeline Value) : Prop where
  hsm : HsmInv env capacity p
  links : LinkInv p
  answers : AnswerInv env p

theorem inv_start (env : PipelineEnv Value) (capacity : ℕ) (state : State Value) (signers : SignerId → State Value) :
    Inv env capacity (start capacity state signers) where
  hsm :=
    { run := run_nil.2 rfl
      ids := nofun
      length := rfl
      sent := nofun
      nodup := List.nodup_nil
      fresh := fun _ _ => ⟨rfl, rfl⟩
      waiting := nofun
      answered := nofun }
  links := nofun
  answers :=
    { log := nofun
      plugin := (PluginNodeServer.initial_idle state).inv
      newer := fun _ => Versioned.atLeast_refl _
      calls := nofun
      clean := nofun
      responded := nofun }

theorem inv_step (h : Inv env capacity p) (hstep : p.step env e = some p') : Inv env capacity p' :=
  ⟨hsmInv_step h.hsm hstep, linkInv_step h.hsm h.links hstep, answerInv_step h.links h.answers hstep⟩

theorem inv_of_run {state : State Value} {signers : SignerId → State Value} {es : List PipelineEvent}
    (hr : Run (step env) (start capacity state signers) es p) : Inv env capacity p :=
  hr.invariant inv_step (inv_start env capacity state signers)

end Greenlight.Plugin.Pipeline
