import Greenlight.Persist.State
import Greenlight.Signer.Resolve

/-!
# Processing a request of the node

`process_request` of `signer/mod.rs`, up to the call of the VLS handler and in a build without `permissive`.  A
message that gets there is no request to sign a message, and either needs no context or is justified by a request
that the client has signed and its rune admits (`processRequest_handed`); `processRequest_outcome` lists the other
exits.
-/

namespace Greenlight

open Greenlight.Lib Greenlight.Persist

structure HsmRequestContext where
  nodeId : Bytes
  dbid : UInt64
  deriving DecidableEq, Repr

structure HsmRequest where
  requestId : UInt32
  context : Option HsmRequestContext
  raw : Bytes
  signerState : List SignerStateEntry
  requests : List PendingRequest

/-- The functions of VLS, of its protocol and of the invoice parser that are called before the handler. -/
structure Vls (Value : Type) where
  Invoice : Type
  /-- `msgs::from_vec`. -/
  fromVec : Bytes → Except String Message
  asVec : Message → Bytes
  invoiceFromStr : String → Except String Invoice
  publicKeyFromSlice : Bytes → Option Bytes
  /-- `serde_json::to_value` of an allowlist. -/
  allowlistValue : List String → Value
  /-- `handler_with_approver` with these approvals; the new handler reads the state and may write to it.  A `none`
  is a panic, as of the getters of the persister on a value of another form. -/
  handlerWithApprover : List Invoice → State Value → Option (State Value × Except String Unit)
  /-- `Node::add_invoice`, which may write to the state. -/
  addInvoice : Invoice → State Value → State Value

inductive Handler where
  | root
  | client (nodeId : Bytes) (dbid : UInt64)
  deriving DecidableEq, Repr

/-- How `process_request` gets on before the handler is called. -/
inductive Verdict where
  | panic
  | rejected (e : SignerError)
  | handed (handler : Handler) (msg : Message)
  deriving DecidableEq, Repr

/-- The type of a message: the first two bytes. -/
def messageType : Bytes → Option UInt16
  | h :: l :: _ => some (h.toUInt16 <<< 8 ||| l.toUInt16)
  | _ => none

def authorize {Value : Type} (vls : Vls Value) : List Request → Except String (List vls.Invoice)
  | [] => .ok []
  | .pay req :: rest =>
    match vls.invoiceFromStr req.bolt11 with
    | .ok invoice => (invoice :: ·) <$> authorize vls rest
    | .error e => .error ("Failed to parse invoice from Pay request: " ++ e)
  | _ :: rest => authorize vls rest

namespace Signer

variable {Value : Type}

/-- The addresses to close to are added to the allowlist. -/
def updateAllowlists (s : Signer) (vls : Vls Value) (context : List Request) (state : State Value) : State Value :=
  context.foldl (fun state request =>
    match request with
    | .glConfig glConfig =>
      match vls.publicKeyFromSlice s.id with
      | some p => state.updateNodeAllowlist (hexEncode p) (vls.allowlistValue [glConfig.closeToAddr])
      | none => state
    | _ => state) state

def updateStateFromContext (vls : Vls Value) (context : List Request) (state : State Value) : State Value :=
  context.foldl (fun state request =>
    match request with
    | .sendPay ⟨some inv⟩ =>
      match vls.invoiceFromStr inv with
      | .ok invoice => vls.addInvoice invoice state
      | .error _ => state
    | _ => state) state

def selectHandler : Option HsmRequestContext → Except SignerError Handler
  | none => .ok .root
  | some c =>
    if c.dbid = 0 then .ok .root
    else if c.nodeId.length ≠ 33 then
      .error (.other ("Invalid node_id length in context: expected 33 bytes, got " ++ c.nodeId.length.repr))
    else .ok (.client c.nodeId c.dbid)

/-- `process_request` at the time `now`: the state of the signer and the verdict. -/
def processRequest (s : Signer) (prost : Prost) (vls : Vls Value) (json : SerdeJson Value) (now : ℤ)
    (state : State Value) (req : HsmRequest) : State Value × Verdict :=
  match State.ofEntries json req.signerState with
  | none => (state, .panic)
  | some diff =>
    let state := (state.merge diff).1
    if messageType req.raw = some 23 then
      (state, .rejected (.other "Cannot process sign-message requests from node."))
    else
      match s.contextRequests prost now req.requests with
      | none => (state, .panic)
      | some ctxrequests =>
        match vls.fromVec req.raw with
        | .error e => (state, .rejected (.protocol e))
        | .ok msg =>
          match msg.tryResolve vls.asVec ctxrequests with
          | .error _ => (state, .rejected (.resolver req.raw ctxrequests))
          | .ok _ =>
            let state := s.updateAllowlists vls ctxrequests state
            match authorize vls ctxrequests with
            | .error e => (state, .rejected (.auth e))
            | .ok approvals =>
              match vls.handlerWithApprover approvals state with
              | none => (state, .panic)
              | some (state, .error e) => (state, .rejected (.other e))
              | some (state, .ok _) =>
                let state := updateStateFromContext vls ctxrequests state
                match selectHandler req.context with
                | .error e => (state, .rejected e)
                | .ok handler => (state, .handed handler msg)

variable {s : Signer} {prost : Prost} {vls : Vls Value} {json : SerdeJson Value} {now : ℤ} {state : State Value}
  {req : HsmRequest} {handler : Handler} {msg : Message}

/-- What a message has passed that is handed to a handler. -/
structure Admitted (s : Signer) (prost : Prost) (vls : Vls Value) (now : ℤ) (req : HsmRequest) (msg : Message)
    (ctxrequests : List Request) : Prop where
  type : messageType req.raw ≠ some 23
  context : s.contextRequests prost now req.requests = some ctxrequests
  decoded : vls.fromVec req.raw = .ok msg
  resolved : msg.tryResolve vls.asVec ctxrequests = .ok ()

/-- The exits of `process_request`, each with the state that it leaves. -/
inductive Outcome (s : Signer) (prost : Prost) (vls : Vls Value) (json : SerdeJson Value) (now : ℤ)
    (state : State Value) (req : HsmRequest) : State Value × Verdict → Prop where
  | badState (hdiff : State.ofEntries json req.signerState = none) :
      Outcome s prost vls json now state req (state, .panic)
  | signMessage {diff : State Value} (hdiff : State.ofEntries json req.signerState = some diff)
      (htype : messageType req.raw = some 23) :
      Outcome s prost vls json now state req
        ((state.merge diff).1, .rejected (.other "Cannot process sign-message requests from node."))
  | badFrame {diff : State Value} (hdiff : State.ofEntries json req.signerState = some diff)
      (htype : messageType req.raw ≠ some 23) (hctx : s.contextRequests prost now req.requests = none) :
      Outcome s prost vls json now state req ((state.merge diff).1, .panic)
  | undecoded {diff : State Value} {ctxrequests : List Request} {e : String}
      (hdiff : State.ofEntries json req.signerState = some diff) (htype : messageType req.raw ≠ some 23)
      (hctx : s.contextRequests prost now req.requests = some ctxrequests) (hmsg : vls.fromVec req.raw = .error e) :
      Outcome s prost vls json now state req ((state.merge diff).1, .rejected (.protocol e))
  | unresolved {diff : State Value} {ctxrequests : List Request} {msg : Message} {e : SignerError}
      (hdiff : State.ofEntries json req.signerState = some diff) (htype : messageType req.raw ≠ some 23)
      (hctx : s.contextRequests prost now req.requests = some ctxrequests) (hmsg : vls.fromVec req.raw = .ok msg)
      (hresolved : msg.tryResolve vls.asVec ctxrequests = .error e) :
      Outcome s prost vls json now state req
        ((state.merge diff).1, .rejected (.resolver req.raw ctxrequests))
  | unauthorized {diff : State Value} {ctxrequests : List Request} {msg : Message} {e : String}
      (hdiff : State.ofEntries json req.signerState = some diff)
      (hadm : s.Admitted prost vls now req msg ctxrequests) (hauth : authorize vls ctxrequests = .error e) :
      Outcome s prost vls json now state req
        (s.updateAllowlists vls ctxrequests (state.merge diff).1, .rejected (.auth e))
  | badBuild {diff : State Value} {ctxrequests : List Request} {msg : Message} {approvals : List vls.Invoice}
      (hdiff : State.ofEntries json req.signerState = some diff)
      (hadm : s.Admitted prost vls now req msg ctxrequests) (hauth : authorize vls ctxrequests = .ok approvals)
      (hbuild : vls.handlerWithApprover approvals (s.updateAllowlists vls ctxrequests (state.merge diff).1) =
        none) :
      Outcome s prost vls json now state req
        (s.updateAllowlists vls ctxrequests (state.merge diff).1, .panic)
  | noHandler {diff built : State Value} {ctxrequests : List Request} {msg : Message} {approvals : List vls.Invoice}
      {e : String} (hdiff : State.ofEntries json req.signerState = some diff)
      (hadm : s.Admitted prost vls now req msg ctxrequests) (hauth : authorize vls ctxrequests = .ok approvals)
      (hbuild : vls.handlerWithApprover approvals (s.updateAllowlists vls ctxrequests (state.merge diff).1) =
        some (built, .error e)) :
      Outcome s prost vls json now state req (built, .rejected (.other e))
  | badNodeId {diff built : State Value} {ctxrequests : List Request} {msg : Message} {approvals : List vls.Invoice}
      {e : SignerError} (hdiff : State.ofEntries json req.signerState = some diff)
      (hadm : s.Admitted prost vls now req msg ctxrequests) (hauth : authorize vls ctxrequests = .ok approvals)
      (hbuild : vls.handlerWithApprover approvals (s.updateAllowlists vls ctxrequests (state.merge diff).1) =
        some (built, .ok ())) (hselect : selectHandler req.context = .error e) :
      Outcome s prost vls json now state req (updateStateFromContext vls ctxrequests built, .rejected e)
  | handed {diff built : State Value} {ctxrequests : List Request} {msg : Message} {approvals : List vls.Invoice}
      {handler : Handler} (hdiff : State.ofEntries json req.signerState = some diff)
      (hadm : s.Admitted prost vls now req msg ctxrequests) (hauth : authorize vls ctxrequests = .ok approvals)
      (hbuild : vls.handlerWithApprover approvals (s.updateAllowlists vls ctxrequests (state.merge diff).1) =
        some (built, .ok ())) (hselect : selectHandler req.context = .ok handler) :
      Outcome s prost vls json now state req (updateStateFromContext vls ctxrequests built, .handed handler msg)

theorem processRequest_outcome (s : Signer) (prost : Prost) (vls : Vls Value) (json : SerdeJson Value) (now : ℤ)
    (state : State Value) (req : HsmRequest) :
    Outcome s prost vls json now state req (s.processRequest prost vls json now state req) := by
  unfold processRequest
  split
  · exact .badState (by assumption)
  rename_i diff hdiff
  dsimp only
  split_ifs with htype
  · exact .signMessage hdiff htype
  split
  · exact .badFrame hdiff htype (by assumption)
  rename_i ctxrequests hctx
  split
  · exact .undecoded hdiff htype hctx (by assumption)
  rename_i msg hmsg
  split
  · exact .unresolved hdiff htype hctx hmsg (by assumption)
  rename_i hresolved
  have hadm : s.Admitted prost vls now req msg ctxrequests := ⟨htype, hctx, hmsg, hresolved⟩
  split
  · exact .unauthorized hdiff hadm (by assumption)
  rename_i approvals hauth
  split
  · exact .badBuild hdiff hadm hauth (by assumption)
  · exact .noHandler hdiff hadm hauth (by assumption)
  rename_i built _ hbuild
  split
  · exact .badNodeId hdiff hadm hauth hbuild (by assumption)
  · exact .handed hdiff hadm hauth hbuild (by assumption)

theorem Admitted.unique {msg msg' : Message} {ctxrequests ctxrequests' : List Request}
    (h : s.Admitted prost vls now req msg ctxrequests) (h' : s.Admitted prost vls now req msg' ctxrequests') :
    msg = msg' ∧ ctxrequests = ctxrequests' :=
  ⟨Except.ok.inj (h.decoded.symm.trans h'.decoded), Option.some.inj (h.context.symm.trans h'.context)⟩

theorem not_admitted_of_unresolved {ctxrequests : List Request} {e : SignerError}
    (hctx : s.contextRequests prost now req.requests = some ctxrequests) (hmsg : vls.fromVec req.raw = .ok msg)
    (hresolved : msg.tryResolve vls.asVec ctxrequests = .error e) (msg' : Message) (ctxrequests' : List Request) :
    ¬ s.Admitted prost vls now req msg' ctxrequests' := by
  intro hadm
  obtain rfl := Option.some.inj (hctx.symm.trans hadm.context)
  obtain rfl := Except.ok.inj (hmsg.symm.trans hadm.decoded)
  exact nomatch hresolved.symm.trans hadm.resolved

theorem admitted_of_handed (h : (s.processRequest prost vls json now state req).2 = .handed handler msg) :
    ∃ ctxrequests, s.Admitted prost vls now req msg ctxrequests := by
  have hout := processRequest_outcome s prost vls json now state req
  generalize s.processRequest prost vls json now state req = result at h hout
  cases hout with
  | handed hdiff hadm =>
    cases h
    exact ⟨_, hadm⟩
  | _ => cases h

/-- `from_vec` takes the kind of a message from its type, and `SignMessage` is 23. -/
def SignMessageIs23 (vls : Vls Value) : Prop :=
  ∀ raw message, vls.fromVec raw = .ok (.signMessage message) → messageType raw = some 23

/-- **What reaches the handler.**  No request to sign a message, and apart from the kinds that need no context only
what an accepted request of the list justifies. -/
theorem processRequest_handed (h23 : SignMessageIs23 vls)
    (h : (s.processRequest prost vls json now state req).2 = .handed handler msg) :
    messageType req.raw ≠ some 23 ∧ vls.fromVec req.raw = .ok msg ∧
      (msg.needsNoContext ∨
        ∃ p ∈ req.requests, ∃ request, s.Derives prost now p request ∧ msg.JustifiedBy request) := by
  obtain ⟨ctxrequests, hadm⟩ := admitted_of_handed h
  refine ⟨hadm.type, hadm.decoded, ?_⟩
  have hsign : ∀ message, msg ≠ .signMessage message := by
    rintro message rfl
    exact hadm.type (h23 _ _ hadm.decoded)
  by_cases hctx : msg.needsNoContext
  · exact Or.inl hctx
  · rcases Message.tryResolve_eq_ok.1 hadm.resolved with h | ⟨request, hmem, hres⟩
    · exact absurd h hctx
    · obtain ⟨p, hp, hderives⟩ := (mem_contextRequests hadm.context).1 hmem
      exact Or.inr ⟨p, hp, request, hderives,
        Message.justifiedBy_of_isResolvedBy (by simpa using hctx) hsign hres⟩

/-- Messages with one field, the rest of the bytes up to a zero, and invoices that are their text. -/
def plainVls : Vls Bool where
  Invoice := String
  fromVec
    | 0 :: 23 :: rest => .ok (.signMessage (rest.takeWhile (· ≠ 0)))
    | 0 :: 38 :: rest => .ok (.preapproveInvoice (rest.takeWhile (· ≠ 0)))
    | h :: l :: _ => .ok (.other (h.toUInt16 <<< 8 ||| l.toUInt16))
    | _ => .error "short read"
  asVec
    | .signMessage message => 0 :: 23 :: message ++ [0]
    | .preapproveInvoice invstring => 0 :: 38 :: invstring ++ [0]
    | _ => []
  invoiceFromStr := .ok
  publicKeyFromSlice := some
  allowlistValue := List.isEmpty
  handlerWithApprover _ state := some (state, .ok ())
  addInvoice _ state := state

theorem signMessageIs23_plain : SignMessageIs23 plainVls := by
  intro raw message h
  simp only [plainVls] at h
  split at h
  · rfl
  · cases h
  · cases h
  · cases h

def lnbcCall : PendingRequest := plainSigned "/cln.Node/Pay" ([0, 0, 0, 0, 6, 0x0a, 4] ++ utf8 "lnbc") 5

/-- A request of the node to approve the invoice, with the call as its context. -/
def preapproveRequest : HsmRequest where
  requestId := 1000
  context := none
  raw := 0 :: 38 :: utf8 "lnbc" ++ [0]
  signerState := []
  requests := [lnbcCall]

theorem processRequest_handed_preapprove :
    messageType preapproveRequest.raw ≠ some 23 ∧
      plainVls.fromVec preapproveRequest.raw = .ok (.preapproveInvoice (utf8 "lnbc")) ∧
      ((Message.preapproveInvoice (utf8 "lnbc")).needsNoContext ∨
        ∃ p ∈ preapproveRequest.requests, ∃ request, plain.Derives Prost.bolt11 0 p request ∧
          (Message.preapproveInvoice (utf8 "lnbc")).JustifiedBy request) := by
  have h : (plain.processRequest Prost.bolt11 plainVls SerdeJson.bool 0 .new preapproveRequest).2 =
      .handed .root (.preapproveInvoice (utf8 "lnbc")) := by decide +kernel
  exact processRequest_handed signMessageIs23_plain h

end Signer

end Greenlight
