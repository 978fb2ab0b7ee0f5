import Greenlight.Lib.Transition
import Greenlight.Signer.Process

/-!
# The history of a signer

A run of one signer: it processes requests of the node, and now and then a call of a client completes, which the
signer does not see.  What it accepts as context is kept in a log.  Nothing of it is looked up again, so a request
that was accepted once is accepted whenever it is attached and its rune is met at that time (`accepted_again`).
-/

namespace Greenlight.Signer

open Greenlight.Lib Greenlight.Persist

variable {Value : Type}

/-- A context that was built: the time, the requests that were attached, and those that were accepted. -/
structure Entry where
  now : ℤ
  attached : List PendingRequest
  accepted : List PendingRequest
  deriving DecidableEq

structure History (Value : Type) where
  state : State Value
  log : List Entry

inductive HistoryEvent where
  | process (now : ℤ) (req : HsmRequest)
  /-- The call that the request belongs to completes. -/
  | completed (p : PendingRequest)

/-- The requests that pass `check_request_auth` and `decode_request`. -/
def acceptedRequests (s : Signer) (prost : Prost) (now : ℤ) (requests : List PendingRequest) :
    List PendingRequest :=
  ((s.checkRequestAuth now requests).filterMap Except.toOption).filter fun p =>
    match decodeRequest prost p with
    | some (.ok _) => true
    | _ => false

/-- A request to sign a message is refused before its context is built, and a panic ends the run. -/
def historyStep (s : Signer) (prost : Prost) (vls : Vls Value) (json : SerdeJson Value) (h : History Value) :
    HistoryEvent → Option (History Value)
  | .process now req =>
    match s.processRequest prost vls json now h.state req with
    | (_, .panic) => none
    | (state, _) =>
      if messageType req.raw = some 23 then some { h with state := state }
      else some ⟨state, h.log ++ [⟨now, req.requests, s.acceptedRequests prost now req.requests⟩]⟩
  | .completed _ => some h

variable {s : Signer} {prost : Prost} {vls : Vls Value} {json : SerdeJson Value} {h h' : History Value}
  {e : HistoryEvent}

theorem mem_acceptedRequests {now : ℤ} {requests : List PendingRequest} {p : PendingRequest} :
    p ∈ s.acceptedRequests prost now requests ↔ p ∈ requests ∧ ∃ request, s.Derives prost now p request := by
  simp only [acceptedRequests, List.mem_filter, List.mem_filterMap, toOption_eq_some, exists_eq_right,
    ok_mem_checkRequestAuth]
  constructor
  · rintro ⟨⟨hmem, haccepts⟩, hdec⟩
    split at hdec
    · rename_i request hrequest
      exact ⟨hmem, request, haccepts, hrequest⟩
    · cases hdec
  · rintro ⟨hmem, request, hderives⟩
    refine ⟨⟨hmem, hderives.accepts⟩, ?_⟩
    rw [hderives.decodes]

/-- The context is what the accepted requests decode to, one by one. -/
theorem forall₂_acceptedRequests {now : ℤ} {requests : List PendingRequest} {context : List Request}
    (h : s.contextRequests prost now requests = some context) :
    List.Forall₂ (s.Derives prost now) (s.acceptedRequests prost now requests) context := by
  simp only [contextRequests, Option.bind_eq_bind, Option.pure_def, Option.bind_eq_some_iff] at h
  obtain ⟨decoded, hdecoded, ⟨⟩⟩ := h
  have haccepts : ∀ p ∈ (s.checkRequestAuth now requests).filterMap Except.toOption, s.Accepts now p := by
    simp only [List.mem_filterMap, toOption_eq_some, exists_eq_right, ok_mem_checkRequestAuth]
    exact fun p hp => hp.2
  unfold acceptedRequests
  generalize (s.checkRequestAuth now requests).filterMap Except.toOption = accepted at hdecoded haccepts ⊢
  induction accepted generalizing decoded with
  | nil =>
    obtain rfl := Option.some.inj hdecoded
    exact .nil
  | cons p accepted ih =>
    rw [List.mapM_cons] at hdecoded
    obtain ⟨r, hr, hrest⟩ := Option.bind_eq_some_iff.1 hdecoded
    obtain ⟨rs, hrs, hcons⟩ := Option.bind_eq_some_iff.1 hrest
    obtain rfl := Option.some.inj hcons
    obtain ⟨hp, haccepts⟩ := List.forall_mem_cons.1 haccepts
    -- one that does not decode is left out on both sides
    cases r with
    | error e =>
      rw [List.filter_cons_of_neg (by simp [hr]), List.filterMap_cons_none (by rfl)]
      exact ih rs hrs haccepts
    | ok request =>
      rw [List.filter_cons_of_pos (by simp [hr]), List.filterMap_cons_some (by rfl)]
      exact .cons ⟨hp, hr⟩ (ih rs hrs haccepts)

/-- What a step takes down as accepted is what `process_request` has built its context from. -/
theorem context_of_step {now : ℤ} {req : HsmRequest}
    (hstep : s.historyStep prost vls json h (.process now req) = some h') (htype : messageType req.raw ≠ some 23) :
    ∃ context, s.contextRequests prost now req.requests = some context ∧
      h'.log = h.log ++ [⟨now, req.requests, s.acceptedRequests prost now req.requests⟩] ∧
      List.Forall₂ (s.Derives prost now) (s.acceptedRequests prost now req.requests) context := by
  have hout := processRequest_outcome s prost vls json now h.state req
  simp only [historyStep] at hstep
  split at hstep
  · cases hstep
  rename_i state verdict hpanic hprocess
  rw [if_neg htype] at hstep
  obtain rfl := Option.some.inj hstep
  rw [hprocess] at hout
  -- only a panic or a `SignMessage` ends the processing before the context
  have hsome : ∃ context, s.contextRequests prost now req.requests = some context := by
    cases hout with
    | badState => exact (hpanic rfl).elim
    | signMessage _ htype' => exact absurd htype' htype
    | badFrame => exact (hpanic rfl).elim
    | undecoded _ _ hctx => exact ⟨_, hctx⟩
    | unresolved _ _ hctx => exact ⟨_, hctx⟩
    | badBuild => exact (hpanic rfl).elim
    | unauthorized _ hadm | noHandler _ hadm | badNodeId _ hadm | handed _ hadm => exact ⟨_, hadm.context⟩
  obtain ⟨context, hcontext⟩ := hsome
  exact ⟨context, hcontext, rfl, forall₂_acceptedRequests hcontext⟩

/-- The accepted requests of a step are those attached that pass the checks at its time. -/
def Entry.Faithful (s : Signer) (prost : Prost) (e : Entry) : Prop :=
  ∀ p, p ∈ e.accepted ↔ p ∈ e.attached ∧ ∃ request, s.Derives prost e.now p request

theorem log_step (hstep : s.historyStep prost vls json h e = some h') :
    h'.log = h.log ∨ ∃ entry : Entry, entry.Faithful s prost ∧ h'.log = h.log ++ [entry] := by
  cases e with
  | process now req =>
    simp only [historyStep] at hstep
    split at hstep
    · cases hstep
    · split_ifs at hstep with htype
      · cases hstep
        exact Or.inl rfl
      · cases hstep
        exact Or.inr ⟨_, fun p => mem_acceptedRequests, rfl⟩
  | completed p =>
    cases hstep
    exact Or.inl rfl

theorem faithful_step (hlog : ∀ entry ∈ h.log, entry.Faithful s prost)
    (hstep : s.historyStep prost vls json h e = some h') : ∀ entry ∈ h'.log, entry.Faithful s prost := by
  intro entry hmem
  rcases log_step hstep with heq | ⟨new, hnew, heq⟩
  · rw [heq] at hmem
    exact hlog entry hmem
  · rw [heq] at hmem
    rcases List.mem_append.1 hmem with hmem | hmem
    · exact hlog entry hmem
    · obtain rfl := List.mem_singleton.1 hmem
      exact hnew

/-- **Acceptance has no memory.**  In any run of a signer, a request that was accepted in one step is accepted in
another one exactly if it is attached there and its rune is met at that time, whatever has completed meanwhile. -/
theorem accepted_again {state : State Value} {es : List HistoryEvent}
    (hr : Run (s.historyStep prost vls json) ⟨state, []⟩ es h) {first second : Entry} (hfirst : first ∈ h.log)
    (hsecond : second ∈ h.log) {p : PendingRequest} (hp : p ∈ first.accepted) :
    p ∈ second.accepted ↔ p ∈ second.attached ∧ s.verifyRune second.now p = .ok () := by
  have hlog := hr.invariant (I := fun h => ∀ entry ∈ h.log, entry.Faithful s prost) faithful_step nofun
  obtain ⟨-, request, hderives⟩ := (hlog first hfirst p).1 hp
  rw [hlog second hsecond p]
  constructor
  · rintro ⟨hmem, _, hderives'⟩
    exact ⟨hmem, hderives'.accepts.rune⟩
  · rintro ⟨hmem, hrune⟩
    exact ⟨hmem, request, ⟨hderives.accepts.isSigned, hderives.accepts.signature, hrune⟩, hderives.decodes⟩

theorem accepted_again_later : ∃ (h : History Bool) (first second : Entry),
    Run (plain.historyStep Prost.bolt11 plainVls SerdeJson.bool) ⟨.new, []⟩
      [.process 0 preapproveRequest, .completed lnbcCall, .process 1000000000000000000 preapproveRequest] h ∧
    first ∈ h.log ∧ second ∈ h.log ∧ first.now < second.now ∧ lnbcCall ∈ first.accepted ∧
    (lnbcCall ∈ second.accepted ↔
      lnbcCall ∈ second.attached ∧ plain.verifyRune second.now lnbcCall = .ok ()) := by
  have hlog : ([.process 0 preapproveRequest, .completed lnbcCall,
      .process 1000000000000000000 preapproveRequest].foldlM
        (plain.historyStep Prost.bolt11 plainVls SerdeJson.bool) ⟨.new, []⟩).map (·.log) =
      some [⟨0, [lnbcCall], [lnbcCall]⟩, ⟨1000000000000000000, [lnbcCall], [lnbcCall]⟩] := by decide +kernel
  obtain ⟨h, hr, hlog⟩ := Option.map_eq_some_iff.1 hlog
  have hfirst : (⟨0, [lnbcCall], [lnbcCall]⟩ : Entry) ∈ h.log := by simp [hlog]
  have hsecond : (⟨1000000000000000000, [lnbcCall], [lnbcCall]⟩ : Entry) ∈ h.log := by simp [hlog]
  have hp : lnbcCall ∈ [lnbcCall] := List.mem_singleton_self _
  exact ⟨h, _, _, hr, hfirst, hsecond, by decide, hp, accepted_again hr hfirst hsecond hp⟩

/-- A call to pay an invoice justifies the approval of the invoice again after it has completed. -/
theorem replay_accepted : ¬ ∀ (s : Signer) (prost : Prost) (vls : Vls Bool) (json : SerdeJson Bool)
    (state : State Bool) (es fs : List HistoryEvent) (p : PendingRequest) (h h' : History Bool),
    Run (s.historyStep prost vls json) ⟨state, []⟩ es h → (∃ entry ∈ h.log, p ∈ entry.accepted) →
    Run (s.historyStep prost vls json) h (.completed p :: fs) h' →
    ∀ later, h'.log = h.log ++ later → ∀ entry ∈ later, p ∉ entry.accepted := by
  intro hall
  have hlog : ([.process 0 preapproveRequest].foldlM
      (plain.historyStep Prost.bolt11 plainVls SerdeJson.bool) ⟨.new, []⟩).map (·.log) =
      some [⟨0, [lnbcCall], [lnbcCall]⟩] := by decide +kernel
  obtain ⟨h, hr, hlog⟩ := Option.map_eq_some_iff.1 hlog
  have hlog' : ([.process 0 preapproveRequest, .completed lnbcCall,
      .process 1000000000000000000 preapproveRequest].foldlM
        (plain.historyStep Prost.bolt11 plainVls SerdeJson.bool) ⟨.new, []⟩).map (·.log) =
      some [⟨0, [lnbcCall], [lnbcCall]⟩, ⟨1000000000000000000, [lnbcCall], [lnbcCall]⟩] := by decide +kernel
  obtain ⟨h', hr', hlog'⟩ := Option.map_eq_some_iff.1 hlog'
  obtain ⟨u, hu, hlater⟩ := run_cons.1 hr'
  obtain rfl : u = h := Option.some.inj (hu.symm.trans (run_singleton.1 hr))
  have hfirst : (⟨0, [lnbcCall], [lnbcCall]⟩ : Entry) ∈ u.log := by simp [hlog]
  refine hall plain Prost.bolt11 plainVls SerdeJson.bool .new _ _ lnbcCall u h' hr
    ⟨_, hfirst, List.mem_singleton_self _⟩ hlater [⟨1000000000000000000, [lnbcCall], [lnbcCall]⟩] ?_ _
    (List.mem_singleton_self _) (List.mem_singleton_self _)
  rw [hlog, hlog']
  rfl

end Greenlight.Signer
