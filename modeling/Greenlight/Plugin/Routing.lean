import Greenlight.Plugin.Delivery

/-!
# Routing of responses

Every signer that is attached answers every request, so responses come several times and in any order.  The table
and the channels are linked: while a request is in the table, its channel has taken nothing in.  So a response that
finds its request finds room as well, and the next one finds no request (`stage_routing`).  A response that comes
before its request is not kept for it (`respond_before_send`).
-/

namespace Greenlight.Stager

open Greenlight.Lib Greenlight.Plugin

/-- `x` answers the request of the call number `c` of `send`, and no response with its id was given in between. -/
def FirstAnswer (es : List StageEvent) (c : ℕ) (x : HsmResponse) : Prop :=
  ∃ pre r mid post, es = pre ++ .send r :: (mid ++ .respond x :: post) ∧ (sentRequests pre).length = c ∧
    x.requestId = r.requestId ∧ ∀ y, .respond y ∈ mid → y.requestId ≠ r.requestId

/-- **The invariant**: a channel that is not made yet or whose request is outstanding took nothing in, and any
other one at most the first answer to its request. -/
structure Routed (es : List StageEvent) (w : World) : Prop where
  capacity : ∀ c, (w.channels c).capacity = 1
  fresh : ∀ c, w.made ≤ c → (w.channels c).sent = []
  outstanding : ∀ c r, OutstandingAt es c r → (w.channels c).sent = []
  answered : ∀ c, (w.channels c).sent = [] ∨ ∃ x, (w.channels c).sent = [x] ∧ FirstAnswer es c x

variable {capacity c : ℕ} {es : List StageEvent} {e : StageEvent} {w w' : World} {r : HsmRequest} {x : HsmResponse}

theorem FirstAnswer.concat (h : FirstAnswer es c x) (e : StageEvent) : FirstAnswer (es ++ [e]) c x := by
  obtain ⟨pre, r, mid, post, rfl, hc, hid, hmid⟩ := h
  exact ⟨pre, r, mid, post ++ [e], by simp, hc, hid, hmid⟩

/-- The response that finds its request is the first answer to it. -/
theorem OutstandingAt.firstAnswer (h : OutstandingAt es c r) (hid : x.requestId = r.requestId) :
    FirstAnswer (es ++ [.respond x]) c x := by
  obtain ⟨pre, mid, rfl, hc, hmid⟩ := h
  exact ⟨pre, r, mid, [], by simp, hc, hid, hmid⟩

theorem routed_new (capacity : ℕ) : Routed [] (World.new capacity) where
  capacity _ := rfl
  fresh _ _ := rfl
  outstanding _ _ _ := rfl
  answered _ := Or.inl rfl

/-- A step after which the channels have taken in what they had before, and no request is outstanding that was not
before. -/
theorem Routed.of_sent_eq (h : Routed es w) (hmade : w.made ≤ w'.made)
    (hcap : ∀ c, (w'.channels c).capacity = (w.channels c).capacity)
    (hsent : ∀ c, (w'.channels c).sent = (w.channels c).sent)
    (hout : ∀ c r, OutstandingAt (es ++ [e]) c r → OutstandingAt es c r ∨ w.made ≤ c) :
    Routed (es ++ [e]) w' where
  capacity c := by rw [hcap, h.capacity]
  fresh c hc := by rw [hsent, h.fresh c (hmade.trans hc)]
  outstanding c r hr := by
    rw [hsent]
    rcases hout c r hr with hold | hc
    · exact h.outstanding c r hold
    · exact h.fresh c hc
  answered c := by
    rw [hsent]
    rcases h.answered c with hnil | ⟨x, hx, hfirst⟩
    · exact Or.inl hnil
    · exact Or.inr ⟨x, hx, hfirst.concat e⟩

theorem Routed.respond {req : Request} {channel : Mpsc HsmResponse} (h : Routed es w) (hinv : Inv es w)
    (hreq : w.stage.requests[x.requestId]? = some req)
    (hsend : (w.channels req.response).send x = .accepted channel) (hmade : w'.made = w.made)
    (hself : w'.channels req.response = channel) (hother : ∀ c, c ≠ req.response → w'.channels c = w.channels c) :
    Routed (es ++ [.respond x]) w' := by
  obtain ⟨hid, hout⟩ := (hinv.table _ _).1 hreq
  have hempty := h.outstanding _ _ hout
  have hlt : req.response < w.made := by
    rw [hinv.made]
    exact (List.getElem?_eq_some_iff.1 hout.getElem?).1
  have hchannel : channel.sent = [x] := by rw [Mpsc.send_eq_accepted hsend, hempty, List.nil_append]
  refine ⟨fun c => ?_, fun c hc => ?_, fun c r hr => ?_, fun c => ?_⟩
  · by_cases hc : c = req.response
    · subst hc
      rw [hself, Mpsc.send_eq_accepted hsend, h.capacity]
    · rw [hother c hc, h.capacity]
  · have hne : c ≠ req.response := by
      rintro rfl
      omega
    rw [hother c hne, h.fresh c (hmade ▸ hc)]
  · rcases outstandingAt_concat.1 hr with ⟨he, -⟩ | ⟨hold, hx⟩
    · cases he
    · have hne : c ≠ req.response := by
        rintro rfl
        have hsame : r = req.request := Option.some.inj (hold.getElem?.symm.trans hout.getElem?)
        exact hx x rfl (by rw [hsame, hid])
      rw [hother c hne, h.outstanding c r hold]
  · by_cases hc : c = req.response
    · subst hc
      rw [hself, hchannel]
      exact Or.inr ⟨x, rfl, hout.firstAnswer hid.symm⟩
    · rw [hother c hc]
      rcases h.answered c with hnil | ⟨y, hy, hfirst⟩
      · exact Or.inl hnil
      · exact Or.inr ⟨y, hy, hfirst.concat _⟩

theorem update_frame {f : ℕ → Mpsc HsmResponse} {d : Mpsc HsmResponse} (hcap : d.capacity = (f c).capacity)
    (hsent : d.sent = (f c).sent) (c' : ℕ) :
    (Function.update f c d c').capacity = (f c').capacity ∧ (Function.update f c d c').sent = (f c').sent := by
  by_cases hc : c' = c
  · subst hc
    rw [Function.update_self]
    exact ⟨hcap, hsent⟩
  · rw [Function.update_of_ne hc]
    exact ⟨rfl, rfl⟩

theorem routed_step (h : Routed es w) (hinv : Inv es w) (hstep : step w e = some w') :
    Routed (es ++ [e]) w' := by
  have hold : e.sent? = none → ∀ c r, OutstandingAt (es ++ [e]) c r → OutstandingAt es c r ∨ w.made ≤ c := by
    intro he c r hr
    rcases outstandingAt_concat.1 hr with ⟨rfl, -⟩ | ⟨hout, -⟩
    · cases he
    · exact Or.inl hout
  cases step_outcome hstep with
  | sent request =>
    refine h.of_sent_eq (Nat.le_succ _) (fun _ => rfl) (fun _ => rfl) fun c r hr => ?_
    rcases outstandingAt_concat.1 hr with ⟨-, hc⟩ | ⟨hout, -⟩
    · exact Or.inr (by rw [hc, hinv.made])
    · exact Or.inl hout
  | responded x req hreq channel hsend =>
    exact h.respond hinv hreq hsend rfl (Function.update_self _ _ _) fun c hc => Function.update_of_ne hc _ _
  | received c x channel hrecv =>
    obtain rfl := Mpsc.recv_eq_some hrecv
    have hframe := update_frame (d := { w.channels c with taken := (w.channels c).taken + 1 }) (f := w.channels)
      (c := c) rfl rfl
    exact h.of_sent_eq le_rfl (fun c' => (hframe c').1) (fun c' => (hframe c').2) (hold rfl)
  | closed c =>
    have hframe := update_frame (f := w.channels) (c := c) (d := (w.channels c).close) rfl rfl
    exact h.of_sent_eq le_rfl (fun c' => (hframe c').1) (fun c' => (hframe c').2) (hold rfl)
  | attached | ready | unknown | refused =>
    exact h.of_sent_eq le_rfl (fun _ => rfl) (fun _ => rfl) (hold rfl)

theorem routed_of_run (hids : DistinctIds es) (hr : Run step (World.new capacity) es w) : Routed es w := by
  refine Run.induction (motive := fun es w => DistinctIds es → Routed es w) hr ?_ ?_ hids
  · exact fun _ => routed_new capacity
  · intro es t e u hr ih hstep hids
    exact routed_step (ih hids.of_append) (inv_of_run hids.of_append hr) hstep

theorem respond_of_not_outstanding (hinv : Inv es w) (h : ∀ r, Outstanding es r → r.requestId ≠ x.requestId) :
    w.respond x = .returned (.ok ()) w := by
  have hnone : w.stage.requests[x.requestId]? = none := by
    rw [Option.eq_none_iff_forall_ne_some]
    intro q hq
    obtain ⟨hid, hout⟩ := (hinv.table _ _).1 hq
    exact h q.request ⟨_, hout⟩ hid
  simp only [World.respond, hnone]

theorem respond_ne_waits (hinv : Inv es w) (h : Routed es w) (x : HsmResponse) : w.respond x ≠ .waits := by
  unfold World.respond
  cases hreq : w.stage.requests[x.requestId]? with
  | none => simp
  | some req =>
    have hout := ((hinv.table _ _).1 hreq).2
    have hroom : (w.channels req.response).send x ≠ .waits :=
      Mpsc.send_ne_waits x (by simp [h.capacity]) (h.outstanding _ _ hout)
    cases hsend : (w.channels req.response).send x with
    | accepted channel => simp [hsend]
    | refused => simp [hsend]
    | waits => exact absurd hsend hroom

/-- **Routing**, in a run in which the ids of the requests are distinct: the channel of a request takes in at most
one response, the first one that was given with its id since the request was sent; a response whose id no
outstanding request has changes nothing; and no response waits for room in a channel. -/
theorem stage_routing (hids : DistinctIds es) (hr : Run step (World.new capacity) es w) :
    (∀ c, (w.channels c).sent.length ≤ 1) ∧
      (∀ c, ∀ x ∈ (w.channels c).sent, FirstAnswer es c x) ∧
      (∀ x, (∀ r, Outstanding es r → r.requestId ≠ x.requestId) → w.respond x = .returned (.ok ()) w) ∧
      ∀ x, w.respond x ≠ .waits := by
  have hinv := inv_of_run hids hr
  have hrouted := routed_of_run hids hr
  refine ⟨fun c => ?_, fun c x hx => ?_, fun x => respond_of_not_outstanding hinv, respond_ne_waits hinv hrouted⟩
  · rcases hrouted.answered c with hnil | ⟨x, hx, -⟩
    · simp [hnil]
    · simp [hx]
  · rcases hrouted.answered c with hnil | ⟨y, hy, hfirst⟩
    · simp [hnil] at hx
    · rw [hy, List.mem_singleton] at hx
      exact hx ▸ hfirst

/-- A request is sent, and two signers answer it. -/
def answeredTwice : List StageEvent :=
  [.send (plainRequest 7), .respond (plainResponse 7), .respond { plainResponse 7 with raw := [1] }]

theorem stage_routing_twice : DistinctIds answeredTwice ∧
    ∃ w, Run step (World.new 1000) answeredTwice w ∧ (w.channels 0).sent = [plainResponse 7] ∧
      FirstAnswer answeredTwice 0 (plainResponse 7) := by
  have hids : DistinctIds answeredTwice := by
    unfold DistinctIds
    decide +kernel
  have hrun : ∃ w, Run step (World.new 1000) answeredTwice w ∧ (w.channels 0).sent = [plainResponse 7] :=
    ⟨_, rfl, rfl⟩
  obtain ⟨w, hr, hsent⟩ := hrun
  exact ⟨hids, w, hr, hsent, (stage_routing hids hr).2.1 0 _ (by simp [hsent])⟩

/-- No response with its id was given before `x`. -/
def FirstGiven (es : List StageEvent) (x : HsmResponse) : Prop :=
  ∃ pre post, es = pre ++ .respond x :: post ∧ ∀ y, .respond y ∈ pre → y.requestId ≠ x.requestId

/-- A response that is given before its request is sent is dropped, and the requester gets a later one. -/
theorem respond_before_send : ¬ ∀ (capacity : ℕ) (es : List StageEvent) (w : World), DistinctIds es →
    Run step (World.new capacity) es w → ∀ c, ∀ x ∈ (w.channels c).sent, FirstGiven es x := by
  intro h
  have hids : DistinctIds [.respond (plainResponse 7), .send (plainRequest 7),
      .respond { plainResponse 7 with raw := [1] }] := by
    unfold DistinctIds
    decide +kernel
  have hrun : ∃ w, Run step (World.new 1000) [.respond (plainResponse 7), .send (plainRequest 7),
      .respond { plainResponse 7 with raw := [1] }] w ∧
        (w.channels 0).sent = [{ plainResponse 7 with raw := [1] }] := ⟨_, rfl, rfl⟩
  obtain ⟨w, hr, hsent⟩ := hrun
  obtain ⟨pre, post, heq, hfirst⟩ := h 1000 _ w hids hr 0 { plainResponse 7 with raw := [1] } (by simp [hsent])
  cases pre with
  | nil => simp [plainResponse] at heq
  | cons e pre =>
    have he : StageEvent.respond (plainResponse 7) = e := List.head_eq_of_cons_eq heq
    exact hfirst (plainResponse 7) (he ▸ List.mem_cons_self) rfl

end Greenlight.Stager
