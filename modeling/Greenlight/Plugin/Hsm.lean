import Greenlight.Plugin.Routing

/-!
# The calls of the HSM proxy

`hsm.rs`: a request of lightningd is answered from what was stashed when the node was created, or staged for the
signers.  Of the stage, a caller relies on two things that hold whatever the ids are: the streams yield nothing that
was not sent (`Sourced`), and a request whose channel is empty and open is still outstanding (`Kept`).
-/

namespace Greenlight.Plugin

open Greenlight.Lib

/-- A request that lightningd makes when it starts, and the answer to it. -/
structure StartupMessage where
  request : Bytes
  response : Bytes
  deriving DecidableEq, Repr

/-- What the server has of the `NodeInfo` and the `NodeConfig` of the node. -/
structure StagingHsmServer where
  initmsg : Bytes
  startupmsgs : List StartupMessage

/-- How a call of `request` goes on. -/
inductive Requested where
  | answered (response : HsmResponse)
  /-- `stage.send`. -/
  | staged
  /-- `get_type` of less than two bytes. -/
  | panic
  deriving DecidableEq, Repr

namespace StagingHsmServer

def findCannedResponse (self : StagingHsmServer) (msg : Bytes) : Option Bytes :=
  (self.startupmsgs.find? (·.request = msg)).map (·.response)

/-- `request`, up to the stage. -/
def request (self : StagingHsmServer) (req : HsmRequest) : Requested :=
  match self.findCannedResponse req.raw with
  | some response => .answered ⟨req.requestId, response, [], ""⟩
  | none =>
    match messageType req.raw with
    | none => .panic
    | some typ =>
      if typ = 11 then .answered ⟨req.requestId, self.initmsg, [], ""⟩
      else if typ = 33 then .answered ⟨req.requestId, [0, 133, 0], [], ""⟩
      else .staged

theorem request_answered {self : StagingHsmServer} {req : HsmRequest} {x : HsmResponse}
    (h : self.request req = .answered x) : x.requestId = req.requestId ∧ x.error = "" ∧ x.signerState = [] := by
  unfold request at h
  split at h
  · cases h
    exact ⟨rfl, rfl, rfl⟩
  · split at h
    · cases h
    · split_ifs at h <;> cases h <;> exact ⟨rfl, rfl, rfl⟩

end StagingHsmServer

end Greenlight.Plugin

namespace Greenlight.Stager

open Greenlight.Lib Greenlight.Plugin

variable {capacity c : ℕ} {es : List StageEvent} {e : StageEvent} {w w' : World} {r : HsmRequest} {x : HsmResponse}

/-! ### Nothing is made up -/

/-- What the channel, the table and the backlogs hold was sent. -/
structure Sourced (es : List StageEvent) (w : World) : Prop where
  log : w.stage.notify.sent.map (·.request) = sentRequests es
  made : w.made = (sentRequests es).length
  table : ∀ (id : UInt32) (q : Request), w.stage.requests[id]? = some q → q.request ∈ sentRequests es
  backlog : ∀ a ∈ w.streams, ∀ q ∈ a.stream.backlog, q.request ∈ sentRequests es

theorem mem_sentRequests_concat (h : r ∈ sentRequests es) (e : StageEvent) : r ∈ sentRequests (es ++ [e]) := by
  rw [sentRequests_concat]
  exact List.mem_append_left _ h

theorem StageStream.next_ok {self stream : StageStream} {notify : Broadcast Request} {q : Request}
    (h : self.next notify = .ready (.ok q) stream) : q ∈ self.backlog ∨ q ∈ notify.sent := by
  unfold next at h
  split at h
  · rename_i req backlog hbacklog
    cases h
    exact Or.inl (by simp [hbacklog])
  · split at h
    · rename_i r bcast hrecv
      cases h
      exact Or.inr (List.mem_of_getElem? (Broadcast.recv_eq_value hrecv).1)
    · cases h
    · cases h

theorem StageStream.next_backlog {self stream : StageStream} {notify : Broadcast Request}
    {result : Except StageError Request} (h : self.next notify = .ready result stream) :
    stream.backlog ⊆ self.backlog := by
  unfold next at h
  split at h
  · rename_i req backlog hbacklog
    cases h
    simp [hbacklog]
  · split at h
    · cases h
      exact fun _ h => h
    · cases h
      exact fun _ h => h
    · cases h

theorem sourced_step (h : Sourced es w) (hstep : step w e = some w') : Sourced (es ++ [e]) w' := by
  have htable : ∀ {w' : World}, (∀ id q, w'.stage.requests[id]? = some q → w.stage.requests[id]? = some q) →
      ∀ (id : UInt32) (q : Request), w'.stage.requests[id]? = some q → q.request ∈ sentRequests (es ++ [e]) :=
    fun hsub id q hq => mem_sentRequests_concat (h.table id q (hsub id q hq)) e
  have hbacklog : ∀ a ∈ w.streams, ∀ q ∈ a.stream.backlog, q.request ∈ sentRequests (es ++ [e]) :=
    fun a ha q hq => mem_sentRequests_concat (h.backlog a ha q hq) e
  have hsent : e.sent? = none → sentRequests (es ++ [e]) = sentRequests es := fun he => by
    rw [sentRequests_concat, he, Option.toList_none, List.append_nil]
  have hlog : e.sent? = none → w.stage.notify.sent.map (·.request) = sentRequests (es ++ [e]) := fun he => by
    rw [h.log, hsent he]
  have hmade : e.sent? = none → w.made = (sentRequests (es ++ [e])).length := fun he => by
    rw [h.made, hsent he]
  -- a response takes one request out of the table
  have herase : ∀ (id' id : UInt32) (q : Request), (w.stage.requests.erase id')[id]? = some q →
      w.stage.requests[id]? = some q := by
    intro id' id q hq
    rw [Std.ExtTreeMap.getElem?_erase] at hq
    split_ifs at hq
    exact hq
  cases step_outcome hstep with
  | sent request =>
    refine ⟨?_, ?_, fun id q hq => ?_, hbacklog⟩
    · rw [sentRequests_concat, ← h.log]
      simp [World.send, Broadcast.send, StageEvent.sent?]
    · simp [World.send, sentRequests_concat, StageEvent.sent?, h.made]
    · simp only [World.send, Std.ExtTreeMap.getElem?_insert] at hq
      split_ifs at hq
      · cases hq
        simp [sentRequests_concat, StageEvent.sent?]
      · exact mem_sentRequests_concat (h.table id q hq) _
  | attached order hperm =>
    refine ⟨hlog rfl, hmade rfl, htable fun _ _ hq => hq, fun a ha q hq => ?_⟩
    rcases List.mem_append.1 ha with ha | ha
    · exact hbacklog a ha q hq
    · obtain rfl := List.mem_singleton.1 ha
      -- the backlog is taken from the table
      obtain ⟨id, -, hget⟩ := List.mem_filterMap.1 hq
      exact mem_sentRequests_concat (h.table id q hget) _
  | ready i a result stream ha hnext =>
    refine ⟨hlog rfl, hmade rfl, htable fun _ _ hq => hq, fun b hb q hq => ?_⟩
    rcases List.mem_or_eq_of_mem_set hb with hb | rfl
    · exact hbacklog b hb q hq
    · exact hbacklog a (List.mem_of_getElem? ha) q (StageStream.next_backlog hnext hq)
  | responded | refused => exact ⟨hlog rfl, hmade rfl, htable (herase _), hbacklog⟩
  | unknown | received | closed => exact ⟨hlog rfl, hmade rfl, htable fun _ _ hq => hq, hbacklog⟩

theorem sourced_of_run (hr : Run step (World.new capacity) es w) : Sourced es w := by
  refine Run.induction (motive := Sourced) hr ⟨rfl, rfl, fun id q hq => ?_, fun a ha => ?_⟩ fun es t e u _ ih hstep =>
    sourced_step ih hstep
  · simp [World.new] at hq
  · cases ha

/-! ### Nothing is forgotten -/

/-- What went into a channel stays in its record, and a channel that is closed stays closed. -/
theorem channel_step (hstep : step w e = some w') (c : ℕ) : (w.channels c).sent <+: (w'.channels c).sent ∧
    ((w'.channels c).closed = false → (w.channels c).closed = false) := by
  have hframe : ∀ {c' : ℕ} {d : Mpsc HsmResponse}, (w.channels c').sent <+: d.sent →
      (d.closed = false → (w.channels c').closed = false) →
      (w.channels c).sent <+: (Function.update w.channels c' d c).sent ∧
        ((Function.update w.channels c' d c).closed = false → (w.channels c).closed = false) := by
    intro c' d hsent hclosed
    by_cases hc : c = c'
    · subst hc
      rw [Function.update_self]
      exact ⟨hsent, hclosed⟩
    · rw [Function.update_of_ne hc]
      exact ⟨List.prefix_rfl, id⟩
  cases step_outcome hstep with
  | responded y req hreq channel hsend =>
    rw [Mpsc.send_eq_accepted hsend]
    exact hframe (List.prefix_append _ _) id
  | received c' y channel hrecv =>
    rw [Mpsc.recv_eq_some hrecv]
    exact hframe List.prefix_rfl id
  | closed c' => exact hframe List.prefix_rfl fun hclosed => by simp [Mpsc.close] at hclosed
  | sent | attached | ready | unknown | refused => exact ⟨List.prefix_rfl, id⟩

/-- Nothing was taken out of the channel, and the receiver is there. -/
def Untouched (w : World) (c : ℕ) : Prop := (w.channels c).closed = false ∧ (w.channels c).taken = 0

theorem untouched_step (hstep : step w e = some w') (hclose : e ≠ .close c) (hrecv : e ≠ .recv c)
    (h : Untouched w c) : Untouched w' c := by
  have hframe : ∀ {c' : ℕ} {d : Mpsc HsmResponse}, (c = c' → d.closed = false ∧ d.taken = 0) →
      (Function.update w.channels c' d c).closed = false ∧ (Function.update w.channels c' d c).taken = 0 := by
    intro c' d hd
    by_cases hc : c = c'
    · subst hc
      rw [Function.update_self]
      exact hd rfl
    · rwa [Function.update_of_ne hc]
  cases step_outcome hstep with
  | responded y req hreq channel hsend =>
    refine hframe fun hc => ?_
    rw [Mpsc.send_eq_accepted hsend]
    exact hc ▸ h
  | received c' => exact hframe fun hc => absurd (by rw [hc]) hrecv
  | closed c' => exact hframe fun hc => absurd (by rw [hc]) hclose
  | sent | attached | ready | unknown | refused => exact h

/-- A request whose channel has got nothing and is still open is outstanding. -/
def Kept (es : List StageEvent) (w : World) : Prop :=
  ∀ c r, (sentRequests es)[c]? = some r → (w.channels c).sent = [] → (w.channels c).closed = false →
    OutstandingAt es c r

theorem kept_step (h : Kept es w) (hinv : Inv es w) (hids : DistinctIds es) (hstep : step w e = some w') :
    Kept (es ++ [e]) w' := by
  intro c r hr hempty hopen
  obtain ⟨hnone, hclosed⟩ := channel_step hstep c
  rw [hempty, List.prefix_nil] at hnone
  have hold : e.sent? = none → OutstandingAt es c r := fun he => by
    rw [sentRequests_concat, he, Option.toList_none, List.append_nil] at hr
    exact h c r hr hnone (hclosed hopen)
  -- a response takes the request out of the table only if it gets into the channel, or nobody listens there
  have hkeep : (he : e.sent? = none) → (∀ x, e = .respond x → x.requestId ≠ r.requestId) →
      OutstandingAt (es ++ [e]) c r := fun he hother => outstandingAt_concat.2 (Or.inr ⟨hold he, hother⟩)
  cases step_outcome hstep with
  | sent request =>
    rw [sentRequests_concat] at hr
    by_cases hc : c < (sentRequests es).length
    · rw [List.getElem?_append_left hc] at hr
      exact outstandingAt_concat.2 (Or.inr ⟨h c r hr hnone (hclosed hopen), fun _ h => by cases h⟩)
    · obtain ⟨hlt, -⟩ := List.getElem?_eq_some_iff.1 hr
      have hlen : c = (sentRequests es).length := by
        simp only [StageEvent.sent?, Option.toList_some, List.length_append, List.length_singleton] at hlt
        omega
      subst hlen
      rw [List.getElem?_append_right le_rfl] at hr
      simp only [StageEvent.sent?, Option.toList_some, Nat.sub_self, List.getElem?_cons_zero] at hr
      exact outstandingAt_concat.2 (Or.inl ⟨by rw [Option.some.inj hr], rfl⟩)
  | unknown x hnone =>
    refine hkeep rfl fun y hy => ?_
    cases hy
    intro hid
    have hget : w.stage.requests[x.requestId]? = some ⟨r, c⟩ := (hinv.table _ _).2 ⟨hid.symm, hold rfl⟩
    rw [hnone] at hget
    cases hget
  | responded x req hreq channel hsend =>
    refine hkeep rfl fun y hy => ?_
    cases hy
    intro hid
    obtain ⟨hreqid, hreqout⟩ := (hinv.table _ _).1 hreq
    obtain rfl := (hids.eq_of_requestId_eq (hold rfl) hreqout (hid.symm.trans hreqid.symm)).1
    have hself : (Function.update w.channels req.response channel req.response).sent = [] := hempty
    rw [Function.update_self, Mpsc.send_eq_accepted hsend] at hself
    simp at hself
  | refused x req hreq hsend =>
    refine hkeep rfl fun y hy => ?_
    cases hy
    intro hid
    obtain ⟨hreqid, hreqout⟩ := (hinv.table _ _).1 hreq
    obtain rfl := (hids.eq_of_requestId_eq (hold rfl) hreqout (hid.symm.trans hreqid.symm)).1
    have hrefused : (w.channels req.response).closed = true := by
      unfold Mpsc.send at hsend
      split_ifs at hsend with hrefused
      exact hrefused
    rw [hclosed hopen] at hrefused
    cases hrefused
  | attached | ready | received | closed => exact hkeep rfl fun _ h => by cases h

theorem kept_of_run (hids : DistinctIds es) (hr : Run step (World.new capacity) es w) : Kept es w := by
  refine Run.induction (motive := fun es w => DistinctIds es → Kept es w) hr ?_ ?_ hids
  · intro _ c r hr
    simp [sentRequests] at hr
  · intro es t e u hr ih hstep hids
    exact kept_step (ih hids.of_append) (inv_of_run hids.of_append hr) hids.of_append hstep

end Greenlight.Stager
