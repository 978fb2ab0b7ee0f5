import Greenlight.Persist.Memory
import Greenlight.Signer.Authorize

/-!
# How the processing of a request ends

What follows from the exits of `process_request` before the VLS handler: which requests make the signer panic
(`processRequest_ne_panic_iff`), and what a rejected request leaves behind in its state (`rejected_state`).
-/

namespace Greenlight

open Greenlight.Lib Greenlight.Persist

/-! ### Framed requests -/

/-- The compression flag is off, and the length is there. -/
def PendingRequest.IsFramed (p : PendingRequest) : Prop := p.request.head? = some 0 ∧ 5 ≤ p.request.length

instance (p : PendingRequest) : Decidable p.IsFramed := by unfold PendingRequest.IsFramed; infer_instance

theorem isSome_decodeRequest_iff {prost : Prost} {p : PendingRequest} :
    (decodeRequest prost p).isSome ↔ p.IsFramed := by
  unfold decodeRequest PendingRequest.IsFramed
  split_ifs with hflag hlength
  · simp [hflag]
  · have : ¬ 5 ≤ p.request.length := by omega
    simp [this]
  · have hsome : p.request.head? = some 0 ∧ 5 ≤ p.request.length := ⟨not_not.1 hflag, by omega⟩
    simp only [hsome, and_self, iff_true]
    split <;> rfl

namespace Signer

variable {Value : Type} {s : Signer} {prost : Prost} {vls : Vls Value} {json : SerdeJson Value} {now : ℤ}
  {state state' : State Value} {req : HsmRequest}

theorem isSome_contextRequests_iff (s : Signer) (prost : Prost) (now : ℤ) (requests : List PendingRequest) :
    (s.contextRequests prost now requests).isSome ↔ ∀ p ∈ requests, s.Accepts now p → p.IsFramed := by
  simp only [contextRequests, Option.bind_eq_bind, Option.pure_def, Option.isSome_bind, Option.isSome_some,
    Option.any_true, isSome_mapM_iff, List.mem_filterMap, toOption_eq_some, exists_eq_right,
    ok_mem_checkRequestAuth, isSome_decodeRequest_iff, and_imp]

/-! ### Panics -/

/-- If the request gets as far, the handler for the approvals of its context is built without a panic. -/
def BuildsHandler (s : Signer) (prost : Prost) (vls : Vls Value) (json : SerdeJson Value) (now : ℤ)
    (state : State Value) (req : HsmRequest) : Prop :=
  ∀ diff msg ctxrequests approvals, State.ofEntries json req.signerState = some diff →
    s.Admitted prost vls now req msg ctxrequests → authorize vls ctxrequests = .ok approvals →
    (vls.handlerWithApprover approvals (s.updateAllowlists vls ctxrequests (state.merge diff).1)).isSome

theorem buildsHandler_of_not_admitted (hno : ∀ msg ctxrequests, ¬ s.Admitted prost vls now req msg ctxrequests) :
    s.BuildsHandler prost vls json now state req :=
  fun _ msg ctxrequests _ _ hadm _ => absurd hadm (hno msg ctxrequests)

theorem buildsHandler_of_eq_some {diff : State Value} {msg : Message} {ctxrequests : List Request}
    {approvals : List vls.Invoice} {result : State Value × Except String Unit}
    (hdiff : State.ofEntries json req.signerState = some diff) (hadm : s.Admitted prost vls now req msg ctxrequests)
    (hauth : authorize vls ctxrequests = .ok approvals)
    (hbuild : vls.handlerWithApprover approvals (s.updateAllowlists vls ctxrequests (state.merge diff).1) =
      some result) : s.BuildsHandler prost vls json now state req := by
  intro diff' msg' ctxrequests' approvals' hdiff' hadm' hauth'
  obtain rfl := Option.some.inj (hdiff.symm.trans hdiff')
  obtain ⟨-, rfl⟩ := hadm.unique hadm'
  obtain rfl := Except.ok.inj (hauth.symm.trans hauth')
  simp [hbuild]

/-- **What makes the signer panic.**  A value of the state that is no JSON, an accepted request that is not framed,
unless the message is refused by its type, and a panic of VLS while it builds the handler. -/
theorem processRequest_ne_panic_iff (s : Signer) (prost : Prost) (vls : Vls Value) (json : SerdeJson Value) (now : ℤ)
    (state : State Value) (req : HsmRequest) :
    (s.processRequest prost vls json now state req).2 ≠ .panic ↔
      (∀ e ∈ req.signerState, (json.fromSlice e.value).isSome) ∧
        (messageType req.raw = some 23 ∨ ∀ p ∈ req.requests, s.Accepts now p → p.IsFramed) ∧
        s.BuildsHandler prost vls json now state req := by
  rw [← State.isSome_ofEntries_iff, ← isSome_contextRequests_iff s prost now req.requests]
  have hout := processRequest_outcome s prost vls json now state req
  generalize s.processRequest prost vls json now state req = result at hout
  cases hout with
  | badState hdiff => simp [hdiff]
  | signMessage hdiff htype =>
    have hno : ∀ msg ctxrequests, ¬ s.Admitted prost vls now req msg ctxrequests := fun _ _ hadm => hadm.type htype
    simp [hdiff, htype, buildsHandler_of_not_admitted hno]
  | badFrame hdiff htype hctx => simp [htype, hctx]
  | undecoded hdiff htype hctx hmsg =>
    have hno : ∀ msg ctxrequests, ¬ s.Admitted prost vls now req msg ctxrequests := fun _ _ hadm =>
      nomatch hmsg.symm.trans hadm.decoded
    simp [hdiff, hctx, buildsHandler_of_not_admitted hno]
  | unresolved hdiff htype hctx hmsg hresolved =>
    have hno := not_admitted_of_unresolved hctx hmsg hresolved
    simp [hdiff, hctx, buildsHandler_of_not_admitted hno]
  | unauthorized hdiff hadm hauth =>
    have hbuilds : s.BuildsHandler prost vls json now state req := by
      intro _ _ _ _ _ hadm' hauth'
      obtain ⟨-, rfl⟩ := hadm.unique hadm'
      exact nomatch hauth.symm.trans hauth'
    simp [hdiff, hadm.context, hbuilds]
  | badBuild hdiff hadm hauth hbuild =>
    have hpanics : ¬ s.BuildsHandler prost vls json now state req := fun h => by
      simpa [hbuild] using h _ _ _ _ hdiff hadm hauth
    simp [hpanics]
  | noHandler hdiff hadm hauth hbuild =>
    simp [hdiff, hadm.context, buildsHandler_of_eq_some hdiff hadm hauth hbuild]
  | badNodeId hdiff hadm hauth hbuild hselect =>
    simp [hdiff, hadm.context, buildsHandler_of_eq_some hdiff hadm hauth hbuild]
  | handed hdiff hadm hauth hbuild hselect =>
    simp [hdiff, hadm.context, buildsHandler_of_eq_some hdiff hadm hauth hbuild]

/-- A request of the node to approve the invoice `lnbc`, with the given requests as its context. -/
def preapproveWith (requests : List PendingRequest) : HsmRequest := { preapproveRequest with requests := requests }

/-- A client that signs an empty body makes the signer panic. -/
theorem processRequest_panics : ¬ ∀ (s : Signer) (prost : Prost) (vls : Vls Bool) (json : SerdeJson Bool) (now : ℤ)
    (state : State Bool) (req : HsmRequest), (s.processRequest prost vls json now state req).2 ≠ .panic := by
  intro hall
  have hpanic : (plain.processRequest Prost.bolt11 plainVls SerdeJson.bool 0 .new
      (preapproveWith [plainSigned "/cln.Node/Pay" [] 5])).2 = .panic := by decide +kernel
  exact hall _ _ _ _ _ _ _ hpanic

/-! ### What a rejected request leaves -/

/-- `state'` differs from `state` in the allowlist of the signer at most, which has the address of the last
`GlConfig` of the context, if there is one. -/
structure AllowlistsOf (s : Signer) (vls : Vls Value) (context : List Request) (state state' : State Value) :
    Prop where
  others : ∀ k, (∀ p, vls.publicKeyFromSlice s.id = some p → k ≠ "allowlists/" ++ hexEncode p) →
    state'.get? k = state.get? k
  unlisted : (∀ glConfig, .glConfig glConfig ∉ context) → state' = state
  last : ∀ pre glConfig post p, context = pre ++ .glConfig glConfig :: post → (∀ later, .glConfig later ∉ post) →
    vls.publicKeyFromSlice s.id = some p →
    ∃ version, state'.get? ("allowlists/" ++ hexEncode p) =
      some (version, vls.allowlistValue [glConfig.closeToAddr])

theorem updateAllowlists_append (s : Signer) (vls : Vls Value) (context more : List Request) (state : State Value) :
    s.updateAllowlists vls (context ++ more) state =
      s.updateAllowlists vls more (s.updateAllowlists vls context state) := List.foldl_append

theorem updateAllowlists_glConfig {glConfig : GlConfig} {p : Bytes} (hp : vls.publicKeyFromSlice s.id = some p) :
    s.updateAllowlists vls [.glConfig glConfig] state =
      state.updateNodeAllowlist (hexEncode p) (vls.allowlistValue [glConfig.closeToAddr]) := by
  simp [updateAllowlists, hp]

theorem updateAllowlists_singleton (s : Signer) (vls : Vls Value) (request : Request) (state : State Value) :
    s.updateAllowlists vls [request] state = state ∨
      ∃ glConfig p, request = .glConfig glConfig ∧ vls.publicKeyFromSlice s.id = some p := by
  cases request with
  | glConfig glConfig =>
    rcases hp : vls.publicKeyFromSlice s.id with _ | p
    · exact Or.inl (by simp [updateAllowlists, hp])
    · exact Or.inr ⟨glConfig, p, rfl, rfl⟩
  | _ => exact Or.inl rfl

theorem updateAllowlists_of_unlisted {context : List Request} (h : ∀ glConfig, .glConfig glConfig ∉ context) :
    s.updateAllowlists vls context state = state := by
  induction context with
  | nil => rfl
  | cons request rest ih =>
    rw [← List.singleton_append, updateAllowlists_append]
    rcases updateAllowlists_singleton s vls request state with heq | ⟨glConfig, p, rfl, -⟩
    · rw [heq]
      exact ih fun glConfig hmem => h glConfig (List.mem_cons_of_mem _ hmem)
    · exact absurd List.mem_cons_self (h glConfig)

theorem get?_updateAllowlists_of_ne {context : List Request} {k : String}
    (hk : ∀ p, vls.publicKeyFromSlice s.id = some p → k ≠ "allowlists/" ++ hexEncode p) :
    (s.updateAllowlists vls context state).get? k = state.get? k := by
  induction context generalizing state with
  | nil => rfl
  | cons request rest ih =>
    rw [← List.singleton_append, updateAllowlists_append, ih]
    rcases updateAllowlists_singleton s vls request state with heq | ⟨glConfig, p, rfl, hp⟩
    · rw [heq]
    · rw [updateAllowlists_glConfig hp, State.get?_updateNodeAllowlist, if_neg (hk p hp)]

theorem allowlistsOf_updateAllowlists (s : Signer) (vls : Vls Value) (context : List Request) (state : State Value) :
    s.AllowlistsOf vls context state (s.updateAllowlists vls context state) where
  others _ hk := get?_updateAllowlists_of_ne hk
  unlisted h := updateAllowlists_of_unlisted h
  last pre glConfig post p hcontext hpost hp := by
    rw [hcontext, List.append_cons, updateAllowlists_append, updateAllowlists_of_unlisted hpost,
      updateAllowlists_append, updateAllowlists_glConfig hp, State.get?_updateNodeAllowlist, if_pos rfl]
    exact ⟨_, rfl⟩

/-- **What a rejected request leaves.**  The merge, as long as the message is not resolved; then the allowlists of the
context as well, and, once the authorizer has let it pass, what was written for the handler. -/
theorem rejected_state {e : SignerError}
    (h : s.processRequest prost vls json now state req = (state', .rejected e)) :
    ∃ diff, State.ofEntries json req.signerState = some diff ∧
      ((∀ msg ctxrequests, ¬ s.Admitted prost vls now req msg ctxrequests) → state' = (state.merge diff).1) ∧
      ∀ msg ctxrequests, s.Admitted prost vls now req msg ctxrequests →
        ∃ listed, s.AllowlistsOf vls ctxrequests (state.merge diff).1 listed ∧
          (¬ PaysParse vls ctxrequests → state' = listed) ∧
          ∀ approvals, authorize vls ctxrequests = .ok approvals →
            ∃ built result, vls.handlerWithApprover approvals listed = some (built, result) ∧
              (result ≠ .ok () ∧ state' = built ∨
                result = .ok () ∧ state' = updateStateFromContext vls ctxrequests built) := by
  have hout := processRequest_outcome s prost vls json now state req
  rw [h] at hout
  cases hout with
  | signMessage hdiff htype => exact ⟨_, hdiff, fun _ => rfl, fun _ _ hadm => absurd htype hadm.type⟩
  | undecoded hdiff htype hctx hmsg =>
    exact ⟨_, hdiff, fun _ => rfl, fun _ _ hadm => nomatch hmsg.symm.trans hadm.decoded⟩
  | unresolved hdiff htype hctx hmsg hresolved =>
    have hno := not_admitted_of_unresolved hctx hmsg hresolved
    exact ⟨_, hdiff, fun _ => rfl, fun _ _ hadm => absurd hadm (hno _ _)⟩
  | unauthorized hdiff hadm hauth =>
    refine ⟨_, hdiff, fun hno => absurd hadm (hno _ _), fun _ _ hadm' => ?_⟩
    obtain ⟨-, rfl⟩ := hadm.unique hadm'
    exact ⟨_, allowlistsOf_updateAllowlists _ _ _ _, fun _ => rfl, fun _ hok => nomatch hauth.symm.trans hok⟩
  | noHandler hdiff hadm hauth hbuild =>
    refine ⟨_, hdiff, fun hno => absurd hadm (hno _ _), fun _ _ hadm' => ?_⟩
    obtain ⟨-, rfl⟩ := hadm.unique hadm'
    refine ⟨_, allowlistsOf_updateAllowlists _ _ _ _, fun hpays => ?_, fun _ hok => ?_⟩
    · exact absurd (exists_authorize_iff.1 ⟨_, hauth⟩) hpays
    · obtain rfl := Except.ok.inj (hauth.symm.trans hok)
      exact ⟨_, _, hbuild, Or.inl ⟨nofun, rfl⟩⟩
  | badNodeId hdiff hadm hauth hbuild hselect =>
    refine ⟨_, hdiff, fun hno => absurd hadm (hno _ _), fun _ _ hadm' => ?_⟩
    obtain ⟨-, rfl⟩ := hadm.unique hadm'
    refine ⟨_, allowlistsOf_updateAllowlists _ _ _ _, fun hpays => ?_, fun _ hok => ?_⟩
    · exact absurd (exists_authorize_iff.1 ⟨_, hauth⟩) hpays
    · obtain rfl := Except.ok.inj (hauth.symm.trans hok)
      exact ⟨_, _, hbuild, Or.inr ⟨rfl, rfl⟩⟩

/-- VLS in plain text, with a parser that accepts no invoice. -/
def strictVls : Vls Bool := { plainVls with invoiceFromStr := fun _ => .error "Bech32Error" }

def configureCall : PendingRequest :=
  plainSigned "/greenlight.Node/Configure" ([0, 0, 0, 0, 6, 0x0a, 4] ++ utf8 "addr") 5

/-- The request fails at its invoice, with the address of the other one in the allowlist. -/
theorem processRequest_configure : ∃ state',
    plain.processRequest Prost.bolt11 strictVls SerdeJson.bool 0 .new (preapproveWith [configureCall, lnbcCall]) =
      (state', .rejected (.auth "Failed to parse invoice from Pay request: Bech32Error")) ∧
    state'.get? "allowlists/02" = some (0, false) := by
  let result :=
    plain.processRequest Prost.bolt11 strictVls SerdeJson.bool 0 .new (preapproveWith [configureCall, lnbcCall])
  have hresult : result.2 = .rejected (.auth "Failed to parse invoice from Pay request: Bech32Error") ∧
      result.1.get? "allowlists/02" = some (0, false) := by decide +kernel
  obtain ⟨hverdict, hlisted⟩ := hresult
  exact ⟨result.1, by rw [← hverdict], hlisted⟩

theorem rejected_state_configure : ∃ state' e,
    plain.processRequest Prost.bolt11 strictVls SerdeJson.bool 0 .new (preapproveWith [configureCall, lnbcCall]) =
      (state', .rejected e) ∧
    ∃ diff, State.ofEntries SerdeJson.bool [] = some diff ∧
      ∃ listed, plain.AllowlistsOf strictVls [.glConfig ⟨"addr"⟩, .pay ⟨"lnbc"⟩]
        ((State.new : State Bool).merge diff).1 listed ∧ state' = listed := by
  obtain ⟨state', h, -⟩ := processRequest_configure
  have hadm : plain.Admitted Prost.bolt11 strictVls 0 (preapproveWith [configureCall, lnbcCall])
      (.preapproveInvoice (utf8 "lnbc")) [.glConfig ⟨"addr"⟩, .pay ⟨"lnbc"⟩] :=
    ⟨by decide +kernel, by decide +kernel, rfl, by decide +kernel⟩
  have hpays : ¬ PaysParse strictVls [.glConfig ⟨"addr"⟩, .pay ⟨"lnbc"⟩] := fun hpays => by
    obtain ⟨invoice, hparse⟩ := hpays ⟨"lnbc"⟩ (by simp)
    cases hparse
  obtain ⟨diff, hdiff, -, hlate⟩ := rejected_state h
  obtain ⟨listed, hlisted, hstate, -⟩ := hlate _ _ hadm
  exact ⟨state', _, h, diff, hdiff, listed, hlisted, hstate hpays⟩

/-- The address of an accepted request stays in the allowlist when the message is rejected. -/
theorem rejected_not_merge : ¬ ∀ (s : Signer) (prost : Prost) (vls : Vls Bool) (json : SerdeJson Bool) (now : ℤ)
    (state state' : State Bool) (req : HsmRequest) (e : SignerError),
    s.processRequest prost vls json now state req = (state', .rejected e) →
    ∃ diff, State.ofEntries json req.signerState = some diff ∧ state' = (state.merge diff).1 := by
  intro hall
  obtain ⟨state', h, hlisted⟩ := processRequest_configure
  obtain ⟨diff, hdiff, rfl⟩ := hall _ _ _ _ _ _ _ _ _ h
  have hnew : State.ofEntries SerdeJson.bool [] = some State.new := rfl
  obtain rfl := Option.some.inj (hnew.symm.trans hdiff)
  simp [State.get?_merge] at hlisted

end Signer

end Greenlight
