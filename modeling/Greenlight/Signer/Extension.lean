import Greenlight.Signer.Outcome

/-!
# Attaching more requests

A message that needs no context and reaches the handler may be held up by a request that the node attaches in
addition: by a `Pay` request with an invoice that does not parse, and by a `Configure` request with an address that
VLS does not take (`handed_append_iff`).
-/

namespace Greenlight

open Greenlight.Lib Greenlight.Persist

/-- The approver is handed on with the approvals, and building the handler does not read them. -/
def Vls.KeepsApprovals {Value : Type} (vls : Vls Value) : Prop :=
  ∀ approvals approvals' state, vls.handlerWithApprover approvals state = vls.handlerWithApprover approvals' state

/-- VLS builds a handler on the state. -/
def Vls.Builds {Value : Type} (vls : Vls Value) (state : State Value) : Prop :=
  ∃ built, vls.handlerWithApprover [] state = some (built, .ok ())

def HsmRequest.attach (req : HsmRequest) (more : List PendingRequest) : HsmRequest :=
  { req with requests := req.requests ++ more }

namespace Signer

variable {Value : Type} {s : Signer} {prost : Prost} {vls : Vls Value} {json : SerdeJson Value} {now : ℤ}
  {state : State Value} {req : HsmRequest} {handler : Handler} {msg : Message}

theorem contextRequests_append {requests more : List PendingRequest} {context context' : List Request}
    (h : s.contextRequests prost now requests = some context)
    (h' : s.contextRequests prost now more = some context') :
    s.contextRequests prost now (requests ++ more) = some (context ++ context') := by
  obtain ⟨decoded, hdecoded, heq⟩ := Option.bind_eq_some_iff.1 h
  obtain ⟨decoded', hdecoded', heq'⟩ := Option.bind_eq_some_iff.1 h'
  obtain rfl := Option.some.inj heq
  obtain rfl := Option.some.inj heq'
  have hauth : s.checkRequestAuth now (requests ++ more) =
      s.checkRequestAuth now requests ++ s.checkRequestAuth now more := by
    simp [checkRequestAuth]
  simp [contextRequests, hauth, hdecoded, hdecoded']

theorem handed_iff (hkept : vls.KeepsApprovals) :
    (s.processRequest prost vls json now state req).2 = .handed handler msg ↔
      ∃ diff ctxrequests, State.ofEntries json req.signerState = some diff ∧
        s.Admitted prost vls now req msg ctxrequests ∧ PaysParse vls ctxrequests ∧
        vls.Builds (s.updateAllowlists vls ctxrequests (state.merge diff).1) ∧
        selectHandler req.context = .ok handler := by
  constructor
  · intro h
    have hout := processRequest_outcome s prost vls json now state req
    generalize s.processRequest prost vls json now state req = result at h hout
    cases hout with
    | handed hdiff hadm hauth hbuild hselect =>
      cases h
      -- whether the node is built does not depend on the approvals
      rw [hkept _ []] at hbuild
      exact ⟨_, _, hdiff, hadm, exists_authorize_iff.1 ⟨_, hauth⟩, ⟨_, hbuild⟩, hselect⟩
    | _ => cases h
  · rintro ⟨diff, ctxrequests, hdiff, hadm, hpays, ⟨built, hbuild⟩, hselect⟩
    obtain ⟨approvals, hauth⟩ := exists_authorize_iff.2 hpays
    rw [hkept [] approvals] at hbuild
    simp [processRequest, hdiff, hadm.type, hadm.context, hadm.decoded, hadm.resolved, hauth, hbuild, hselect]

/-- **Attaching more requests.**  A message that needs no context and reaches the handler still does with more framed
requests attached if and only if every accepted `Pay` among them has an invoice that parses, and VLS takes the
allowlists of the longer context if there is an accepted `Configure` among them. -/
theorem handed_append_iff (hkept : vls.KeepsApprovals) (hmsg : msg.needsNoContext)
    (h : (s.processRequest prost vls json now state req).2 = .handed handler msg) {more : List PendingRequest}
    (hframed : ∀ p ∈ more, s.Accepts now p → p.IsFramed) :
    (s.processRequest prost vls json now state (req.attach more)).2 = .handed handler msg ↔
      (∀ p ∈ more, ∀ pay, s.Derives prost now p (.pay pay) →
        ∃ invoice, vls.invoiceFromStr pay.bolt11 = .ok invoice) ∧
      ((∃ p ∈ more, ∃ glConfig, s.Derives prost now p (.glConfig glConfig)) →
        ∀ diff ctxrequests, State.ofEntries json req.signerState = some diff →
          s.contextRequests prost now (req.requests ++ more) = some ctxrequests →
          vls.Builds (s.updateAllowlists vls ctxrequests (state.merge diff).1)) := by
  obtain ⟨diff, ctxrequests, hdiff, hadm, hpays, hbuilds, hselect⟩ := (handed_iff hkept).1 h
  obtain ⟨context', hcontext'⟩ :=
    Option.isSome_iff_exists.1 ((isSome_contextRequests_iff s prost now more).2 hframed)
  -- more requests only put more at the end of the context
  have hctx := contextRequests_append hadm.context hcontext'
  have hadm' : s.Admitted prost vls now (req.attach more) msg (ctxrequests ++ context') :=
    ⟨hadm.type, hctx, hadm.decoded, Message.tryResolve_eq_ok.2 (Or.inl hmsg)⟩
  have hmore : PaysParse vls context' ↔ ∀ p ∈ more, ∀ pay, s.Derives prost now p (.pay pay) →
      ∃ invoice, vls.invoiceFromStr pay.bolt11 = .ok invoice := by
    simp only [PaysParse, mem_contextRequests hcontext']
    constructor
    · exact fun h p hp pay hderives => h pay ⟨p, hp, hderives⟩
    · rintro h pay ⟨p, hp, hderives⟩
      exact h p hp pay hderives
  rw [handed_iff hkept, ← hmore]
  constructor
  · rintro ⟨diff', ctxrequests', hdiff', hadm'', hpays', hbuilds', -⟩
    obtain ⟨-, rfl⟩ := hadm'.unique hadm''
    refine ⟨(paysParse_append.1 hpays').2, fun _ diff'' ctxrequests'' hdiff'' hctx'' => ?_⟩
    obtain rfl := Option.some.inj (hdiff'.symm.trans hdiff'')
    obtain rfl := Option.some.inj (hctx.symm.trans hctx'')
    exact hbuilds'
  · rintro ⟨hpays', hlists⟩
    refine ⟨diff, _, hdiff, hadm', paysParse_append.2 ⟨hpays, hpays'⟩, ?_, hselect⟩
    by_cases hconfigures : ∃ p ∈ more, ∃ glConfig, s.Derives prost now p (.glConfig glConfig)
    · exact hlists hconfigures _ _ hdiff hctx
    · -- without a `Configure` the allowlists of the longer context are those of the shorter one
      have hunlisted : ∀ glConfig, .glConfig glConfig ∉ context' := fun glConfig hmem => by
        obtain ⟨p, hp, hderives⟩ := (mem_contextRequests hcontext').1 hmem
        exact hconfigures ⟨p, hp, glConfig, hderives⟩
      rw [updateAllowlists_append, updateAllowlists_of_unlisted hunlisted]
      exact hbuilds

/-- The VLS that accepts no invoice, with one more kind of messages, which need no context. -/
def ecdhVls : Vls Bool :=
  { strictVls with fromVec := fun raw => if messageType raw = some 1 then .ok .ecdh else strictVls.fromVec raw }

def ecdhRequest : HsmRequest where
  requestId := 1001
  context := none
  raw := [0, 1]
  signerState := []
  requests := []

theorem handed_ecdhRequest :
    (plain.processRequest Prost.bolt11 ecdhVls SerdeJson.bool 0 .new ecdhRequest).2 = .handed .root .ecdh := by
  decide +kernel

theorem handed_append_iff_configure :
    (plain.processRequest Prost.bolt11 ecdhVls SerdeJson.bool 0 .new (ecdhRequest.attach [configureCall])).2 =
        .handed .root .ecdh ↔
      (∀ p ∈ [configureCall], ∀ pay, plain.Derives Prost.bolt11 0 p (.pay pay) →
        ∃ invoice, ecdhVls.invoiceFromStr pay.bolt11 = .ok invoice) ∧
      ((∃ p ∈ [configureCall], ∃ glConfig, plain.Derives Prost.bolt11 0 p (.glConfig glConfig)) →
        ∀ diff ctxrequests, State.ofEntries SerdeJson.bool [] = some diff →
          plain.contextRequests Prost.bolt11 0 [configureCall] = some ctxrequests →
          ecdhVls.Builds (plain.updateAllowlists ecdhVls ctxrequests ((State.new : State Bool).merge diff).1)) := by
  have hframed : ∀ p ∈ [configureCall], plain.Accepts 0 p → p.IsFramed := by
    intro p hp _
    obtain rfl := List.mem_singleton.1 hp
    decide +kernel
  exact handed_append_iff (fun _ _ _ => rfl) rfl handed_ecdhRequest hframed

/-- A pending `Pay` with an invoice that does not parse holds up a message that has nothing to do with it. -/
theorem handed_append_blocked : ¬ ∀ (s : Signer) (prost : Prost) (vls : Vls Bool) (json : SerdeJson Bool) (now : ℤ)
    (state : State Bool) (req : HsmRequest) (more : List PendingRequest) (handler : Handler) (msg : Message),
    msg.needsNoContext → (s.processRequest prost vls json now state req).2 = .handed handler msg →
    ∃ handler' msg', (s.processRequest prost vls json now state (req.attach more)).2 = .handed handler' msg' := by
  intro hall
  obtain ⟨handler', msg', hhanded⟩ := hall _ _ _ _ _ _ _ [lnbcCall] _ _ rfl handed_ecdhRequest
  have hrejected : (plain.processRequest Prost.bolt11 ecdhVls SerdeJson.bool 0 .new
      (ecdhRequest.attach [lnbcCall])).2 =
      .rejected (.auth "Failed to parse invoice from Pay request: Bech32Error") := by decide +kernel
  exact nomatch hrejected.symm.trans hhanded

end Signer

end Greenlight
