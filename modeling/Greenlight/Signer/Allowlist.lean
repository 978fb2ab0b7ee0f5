import Greenlight.Lib.Transition
import Greenlight.Signer.Outcome

/-!
# The allowlist of a node

What the processing of requests does to the list of the addresses a node may close to.  Every `GlConfig` of a context
writes its address over the list instead of adding it, so the list keeps what it had, and gets what it is given, only
as long as all of it is one address (`allowlist_grows`).
-/

namespace Greenlight

open Greenlight.Lib Greenlight.Persist

/-- VLS with what it does on an allowlist.  The entries of a list are the destinations that its texts name, as
`get_nodes` reads them. -/
structure AllowlistVls (Value : Type) extends Vls Value where
  /-- `serde_json::from_value` at `Vec<String>`. -/
  fromValue : Value → Option (List String)
  Allowable : Type
  /-- `Allowable::from_str`, in the network of the node; a text that does not parse is passed over. -/
  allowable : String → Option Allowable
  /-- `Handler::handle`, which may write to the state. -/
  handle : Handler → Message → State Value → State Value

namespace AllowlistVls

variable {Value : Type} (vls : AllowlistVls Value)

def allowlist (nodeId : Bytes) (state : State Value) : List vls.Allowable :=
  (state.getNodeAllowlist vls.fromValue (hexEncode nodeId)).filterMap vls.allowable

def ReadsLists : Prop := ∀ l, vls.fromValue (vls.allowlistValue l) = some l

/-- Each write of VLS itself relates the lists before and after it by `R`. -/
structure Writes (nodeId : Bytes) (R : List vls.Allowable → List vls.Allowable → Prop) : Prop where
  build : ∀ {approvals state built result}, vls.handlerWithApprover approvals state = some (built, result) →
    R (vls.allowlist nodeId state) (vls.allowlist nodeId built)
  addInvoice : ∀ invoice state, R (vls.allowlist nodeId state) (vls.allowlist nodeId (vls.addInvoice invoice state))
  handle : ∀ handler msg state, R (vls.allowlist nodeId state) (vls.allowlist nodeId (vls.handle handler msg state))

/-- VLS takes nothing off the list of a node. -/
abbrev OnlyAdds (nodeId : Bytes) : Prop := vls.Writes nodeId fun l l' => l ⊆ l'

variable {vls} {nodeId : Bytes} {R : List vls.Allowable → List vls.Allowable → Prop}

theorem Writes.updateStateFromContext (hw : vls.Writes nodeId R) (hrefl : ∀ l, R l l)
    (htrans : ∀ {l l' l''}, R l l' → R l' l'' → R l l'') (context : List Request) (state : State Value) :
    R (vls.allowlist nodeId state)
      (vls.allowlist nodeId (Signer.updateStateFromContext vls.toVls context state)) := by
  induction context generalizing state with
  | nil => exact hrefl _
  | cons request context ih =>
    have hcons : ∀ state, Signer.updateStateFromContext vls.toVls (request :: context) state =
        Signer.updateStateFromContext vls.toVls context
          (Signer.updateStateFromContext vls.toVls [request] state) := fun _ => rfl
    rw [hcons]
    refine htrans ?_ (ih _)
    -- only a `SendPay` with an invoice writes anything
    cases request with
    | sendPay req =>
      obtain ⟨_ | inv⟩ := req
      · exact hrefl _
      · simp only [Signer.updateStateFromContext, List.foldl_cons, List.foldl_nil]
        split
        · exact hw.addInvoice _ _
        · exact hrefl _
    | _ => exact hrefl _

end AllowlistVls

namespace Signer

variable {Value : Type}

/-- One request is processed, at a time: unless `process_request` panics or rejects it, its message is handled. -/
def allowlistStep (s : Signer) (prost : Prost) (vls : AllowlistVls Value) (json : SerdeJson Value)
    (state : State Value) (e : ℤ × HsmRequest) : Option (State Value) :=
  match s.processRequest prost vls.toVls json e.1 state e.2 with
  | (_, .panic) => none
  | (state, .rejected _) => some state
  | (state, .handed handler msg) => some (vls.handle handler msg state)

/-- The context of the request has a `GlConfig` with an address that names the destination. -/
def Configures (s : Signer) (prost : Prost) (vls : AllowlistVls Value) (e : ℤ × HsmRequest) (a : vls.Allowable) :
    Prop :=
  ∃ context glConfig, s.contextRequests prost e.1 e.2.requests = some context ∧ .glConfig glConfig ∈ context ∧
    vls.allowable glConfig.closeToAddr = some a

def glConfig? : Request → Option GlConfig
  | .glConfig glConfig => some glConfig
  | _ => none

def lastGlConfig (context : List Request) : Option GlConfig := context.reverse.findSome? glConfig?

/-- **The list has only grown**: from `state` to `state'`, through the requests `es`, it has kept its entries and got
the address of every `GlConfig`. -/
def Grown (s : Signer) (prost : Prost) (vls : AllowlistVls Value) (nodeId : Bytes) (state : State Value)
    (es : List (ℤ × HsmRequest)) (state' : State Value) : Prop :=
  vls.allowlist nodeId state ⊆ vls.allowlist nodeId state' ∧
    ∀ e ∈ es, ∀ a, s.Configures prost vls e a → a ∈ vls.allowlist nodeId state'

/-- **The update of the list does no harm.**  If it takes place, its last address names all that was on the list and
all that the context gives; otherwise the list that the node sends takes no entry away, and has the addresses of the
context already. -/
structure Harmless (s : Signer) (prost : Prost) (vls : AllowlistVls Value) (json : SerdeJson Value) (nodeId : Bytes)
    (state : State Value) (e : ℤ × HsmRequest) : Prop where
  updated : ∀ msg context last, s.Admitted prost vls.toVls e.1 e.2 msg context → lastGlConfig context = some last →
    ∀ a, a ∈ vls.allowlist nodeId state ∨ s.Configures prost vls e a → vls.allowable last.closeToAddr = some a
  merged : ∀ diff, State.ofEntries json e.2.signerState = some diff →
    (∀ msg context, s.Admitted prost vls.toVls e.1 e.2 msg context → lastGlConfig context = none) →
    ∀ a, a ∈ vls.allowlist nodeId state ∨ s.Configures prost vls e a → a ∈ vls.allowlist nodeId (state.merge diff).1

variable {s : Signer} {prost : Prost} {vls : AllowlistVls Value} {json : SerdeJson Value} {nodeId : Bytes}
  {state state' t u : State Value} {e : ℤ × HsmRequest} {es fs : List (ℤ × HsmRequest)}

theorem Grown.nil (state : State Value) : Grown s prost vls nodeId state [] state :=
  ⟨fun _ h => h, nofun⟩

theorem Grown.append (h : Grown s prost vls nodeId state es t) (h' : Grown s prost vls nodeId t fs u) :
    Grown s prost vls nodeId state (es ++ fs) u := by
  refine ⟨fun a ha => h'.1 (h.1 ha), fun e he a ha => ?_⟩
  rcases List.mem_append.1 he with he | he
  · exact h'.1 (h.2 e he a ha)
  · exact h'.2 e he a ha

theorem grown_singleton :
    s.Grown prost vls nodeId state [e] state' ↔
      ∀ a, a ∈ vls.allowlist nodeId state ∨ s.Configures prost vls e a → a ∈ vls.allowlist nodeId state' := by
  simp only [Grown, List.mem_singleton, forall_eq, or_imp, forall_and, List.subset_def]

/-! ### The update -/

theorem lastGlConfig_eq_some {context : List Request} {last : GlConfig} (h : lastGlConfig context = some last) :
    ∃ pre post, context = pre ++ .glConfig last :: post ∧ ∀ later, .glConfig later ∉ post := by
  obtain ⟨post, request, pre, hcontext, hrequest, hpost⟩ := List.findSome?_eq_some_iff.1 h
  obtain rfl : request = .glConfig last := by
    cases request with
    | glConfig glConfig =>
      obtain rfl := Option.some.inj hrequest
      rfl
    | _ => cases hrequest
  refine ⟨pre.reverse, post.reverse, ?_, fun later hlater => ?_⟩
  · rw [← context.reverse_reverse, hcontext]
    simp
  · cases hpost _ (List.mem_reverse.1 hlater)

theorem lastGlConfig_eq_none {context : List Request} (h : lastGlConfig context = none) (glConfig : GlConfig) :
    .glConfig glConfig ∉ context := by
  intro hmem
  cases List.findSome?_eq_none_iff.1 h _ (List.mem_reverse.2 hmem)

/-- **The update leaves the address of the last `GlConfig`.** -/
theorem allowlist_updateAllowlists (hid : vls.publicKeyFromSlice s.id = some nodeId) (hread : vls.ReadsLists)
    {context : List Request} {last : GlConfig} (h : lastGlConfig context = some last) (state : State Value) :
    vls.allowlist nodeId (s.updateAllowlists vls.toVls context state) =
      (vls.allowable last.closeToAddr).toList := by
  obtain ⟨pre, post, rfl, hpost⟩ := lastGlConfig_eq_some h
  have hlists := allowlistsOf_updateAllowlists s vls.toVls (pre ++ .glConfig last :: post) state
  obtain ⟨version, hwritten⟩ := hlists.last pre last post nodeId rfl hpost hid
  have hlist : State.getNodeAllowlist vls.fromValue
      (s.updateAllowlists vls.toVls (pre ++ .glConfig last :: post) state) (hexEncode nodeId) =
      [last.closeToAddr] := by
    unfold State.getNodeAllowlist
    rw [hwritten]
    show (vls.fromValue (vls.allowlistValue [last.closeToAddr])).getD [] = _
    rw [hread]
    rfl
  rw [AllowlistVls.allowlist, hlist]
  cases haddr : vls.allowable last.closeToAddr <;> simp [haddr]

/-! ### A step -/

/-- The step is harmless exactly if the list `base` has what the law asks for. -/
def Decides (s : Signer) (prost : Prost) (vls : AllowlistVls Value) (json : SerdeJson Value) (nodeId : Bytes)
    (state : State Value) (e : ℤ × HsmRequest) (base : List vls.Allowable) : Prop :=
  s.Harmless prost vls json nodeId state e ↔
    ∀ a, a ∈ vls.allowlist nodeId state ∨ s.Configures prost vls e a → a ∈ base

theorem decides_merge {diff : State Value} (hdiff : State.ofEntries json e.2.signerState = some diff)
    (hno : ∀ msg context, s.Admitted prost vls.toVls e.1 e.2 msg context → lastGlConfig context = none) :
    s.Decides prost vls json nodeId state e (vls.allowlist nodeId (state.merge diff).1) := by
  constructor
  · exact fun h => h.merged diff hdiff hno
  · refine fun h => ⟨fun msg context last hadm hlast => ?_, fun diff' hdiff' _ => ?_⟩
    · cases hlast.symm.trans (hno msg context hadm)
    · obtain rfl := Option.some.inj (hdiff.symm.trans hdiff')
      exact h

/-- An update is harmless if the address it leaves is all there was. -/
theorem decides_update {msg : Message} {context : List Request} {last : GlConfig}
    (hadm : s.Admitted prost vls.toVls e.1 e.2 msg context) (hlast : lastGlConfig context = some last) :
    s.Decides prost vls json nodeId state e (vls.allowable last.closeToAddr).toList := by
  constructor
  · exact fun h a ha => Option.mem_toList.2 (h.updated msg context last hadm hlast a ha)
  · intro h
    refine ⟨fun msg' context' last' hadm' hlast' a ha => ?_, fun _ _ hno => ?_⟩
    · obtain ⟨-, rfl⟩ := hadm.unique hadm'
      obtain rfl := Option.some.inj (hlast.symm.trans hlast')
      exact Option.mem_toList.1 (h a ha)
    · cases hlast.symm.trans (hno msg context hadm)

/-- An admitted request leaves the list of the update, with or without a `GlConfig`. -/
theorem decides_of_admitted (hid : vls.publicKeyFromSlice s.id = some nodeId) (hread : vls.ReadsLists)
    {diff : State Value} {msg : Message} {context : List Request}
    (hdiff : State.ofEntries json e.2.signerState = some diff)
    (hadm : s.Admitted prost vls.toVls e.1 e.2 msg context) :
    s.Decides prost vls json nodeId state e
      (vls.allowlist nodeId (s.updateAllowlists vls.toVls context (state.merge diff).1)) := by
  cases hlast : lastGlConfig context with
  | some last =>
    rw [allowlist_updateAllowlists hid hread hlast]
    exact decides_update hadm hlast
  | none =>
    rw [updateAllowlists_of_unlisted (lastGlConfig_eq_none hlast)]
    refine decides_merge hdiff fun msg' context' hadm' => ?_
    obtain ⟨-, rfl⟩ := hadm.unique hadm'
    exact hlast

/-- **What a step leaves**: the list `base` of `process_request`, which decides whether the step is harmless, and
then the writes of VLS. -/
theorem exists_base {R : List vls.Allowable → List vls.Allowable → Prop} (hrefl : ∀ l, R l l)
    (htrans : ∀ {l l' l''}, R l l' → R l' l'' → R l l'') (hid : vls.publicKeyFromSlice s.id = some nodeId)
    (hread : vls.ReadsLists) (hw : vls.Writes nodeId R)
    (hstep : s.allowlistStep prost vls json state e = some state') :
    ∃ base, s.Decides prost vls json nodeId state e base ∧ R base (vls.allowlist nodeId state') := by
  have hout := processRequest_outcome s prost vls.toVls json e.1 state e.2
  unfold allowlistStep at hstep
  generalize s.processRequest prost vls.toVls json e.1 state e.2 = result at hstep hout
  -- without an admitted request the base is the merged state, else the list it configures
  cases hout with
  | badState => cases hstep
  | badFrame => cases hstep
  | badBuild => cases hstep
  | signMessage hdiff htype =>
    obtain rfl := Option.some.inj hstep
    exact ⟨_, decides_merge hdiff fun _ _ hadm => absurd htype hadm.type, hrefl _⟩
  | undecoded hdiff htype hctx hmsg =>
    obtain rfl := Option.some.inj hstep
    exact ⟨_, decides_merge hdiff fun _ _ hadm => (nomatch hmsg.symm.trans hadm.decoded), hrefl _⟩
  | unresolved hdiff htype hctx hmsg hresolved =>
    obtain rfl := Option.some.inj hstep
    have hno := not_admitted_of_unresolved hctx hmsg hresolved
    exact ⟨_, decides_merge hdiff fun msg context hadm => absurd hadm (hno msg context), hrefl _⟩
  | unauthorized hdiff hadm hauth =>
    obtain rfl := Option.some.inj hstep
    exact ⟨_, decides_of_admitted hid hread hdiff hadm, hrefl _⟩
  | noHandler hdiff hadm hauth hbuild =>
    obtain rfl := Option.some.inj hstep
    exact ⟨_, decides_of_admitted hid hread hdiff hadm, hw.build hbuild⟩
  | badNodeId hdiff hadm hauth hbuild hselect =>
    obtain rfl := Option.some.inj hstep
    have hcontext := hw.updateStateFromContext hrefl htrans
    exact ⟨_, decides_of_admitted hid hread hdiff hadm, htrans (hw.build hbuild) (hcontext _ _)⟩
  | handed hdiff hadm hauth hbuild hselect =>
    obtain rfl := Option.some.inj hstep
    have hcontext := hw.updateStateFromContext hrefl htrans
    refine ⟨_, decides_of_admitted hid hread hdiff hadm, htrans (hw.build hbuild) ?_⟩
    exact htrans (hcontext _ _) (hw.handle _ _ _)

theorem allowlistStep_of_admitted {diff built : State Value} {msg : Message} {context : List Request}
    {approvals : List vls.Invoice} {handler : Handler} (hdiff : State.ofEntries json e.2.signerState = some diff)
    (hadm : s.Admitted prost vls.toVls e.1 e.2 msg context) (hauth : authorize vls.toVls context = .ok approvals)
    (hbuild : vls.handlerWithApprover approvals (s.updateAllowlists vls.toVls context (state.merge diff).1) =
      some (built, .ok ())) (hselect : selectHandler e.2.context = .ok handler) :
    s.allowlistStep prost vls json state e =
      some (vls.handle handler msg (updateStateFromContext vls.toVls context built)) := by
  simp [allowlistStep, processRequest, hdiff, hadm.type, hadm.context, hadm.decoded, hadm.resolved, hauth, hbuild,
    hselect]

theorem grown_step (hid : vls.publicKeyFromSlice s.id = some nodeId) (hread : vls.ReadsLists)
    (honly : vls.OnlyAdds nodeId) (hharmless : s.Harmless prost vls json nodeId state e)
    (hstep : s.allowlistStep prost vls json state e = some state') :
    s.Grown prost vls nodeId state [e] state' := by
  obtain ⟨base, hdecides, hbase⟩ := exists_base List.Subset.refl List.Subset.trans hid hread honly hstep
  exact grown_singleton.2 fun a ha => hbase (hdecides.1 hharmless a ha)

/-- **Where VLS leaves the list alone**, the harmless steps are those that let it grow. -/
theorem grown_step_iff (hid : vls.publicKeyFromSlice s.id = some nodeId) (hread : vls.ReadsLists)
    (hleaves : vls.Writes nodeId (· = ·)) (hstep : s.allowlistStep prost vls json state e = some state') :
    s.Grown prost vls nodeId state [e] state' ↔ s.Harmless prost vls json nodeId state e := by
  obtain ⟨base, hdecides, rfl⟩ := exists_base (fun _ => rfl) Eq.trans hid hread hleaves hstep
  rw [grown_singleton]
  exact hdecides.symm

/-! ### A run -/

theorem grown_of_run (hid : vls.publicKeyFromSlice s.id = some nodeId) (hread : vls.ReadsLists)
    (honly : vls.OnlyAdds nodeId) (hr : Run (s.allowlistStep prost vls json) t es u)
    (hharmless : AllSteps (s.allowlistStep prost vls json) (s.Harmless prost vls json nodeId) t es) :
    s.Grown prost vls nodeId t es u := by
  induction es generalizing t with
  | nil =>
    obtain rfl := run_nil.1 hr
    exact Grown.nil t
  | cons e es ih =>
    obtain ⟨t', hstep, hr'⟩ := run_cons.1 hr
    have hfirst := grown_step hid hread honly hharmless.1 hstep
    exact hfirst.append (ih hr' (hharmless.2 t' hstep))

/-- **The allowlist only grows**, in a run whose steps are harmless: between any two states of it the list keeps its
entries and gets the addresses of all contexts. -/
theorem allowlist_grows (hid : vls.publicKeyFromSlice s.id = some nodeId) (hread : vls.ReadsLists)
    (honly : vls.OnlyAdds nodeId)
    (hharmless : AllSteps (s.allowlistStep prost vls json) (s.Harmless prost vls json nodeId) state es)
    {pre mid post : List (ℤ × HsmRequest)} (hes : es = pre ++ (mid ++ post))
    (hpre : Run (s.allowlistStep prost vls json) state pre t) (hmid : Run (s.allowlistStep prost vls json) t mid u) :
    s.Grown prost vls nodeId t mid u := by
  rw [hes] at hharmless
  obtain ⟨-, hrest⟩ := (allSteps_append hpre).1 hharmless
  exact grown_of_run hid hread honly hmid ((allSteps_append hmid).1 hrest).1

/-! ### Two addresses -/

/-- VLS in plain text; a value is a list of texts, and each text is a destination. -/
abbrev listVls : AllowlistVls (List String) where
  Invoice := String
  fromVec := plainVls.fromVec
  asVec := plainVls.asVec
  invoiceFromStr := .ok
  publicKeyFromSlice := some
  allowlistValue l := l
  handlerWithApprover _ state := some (state, .ok ())
  addInvoice _ state := state
  fromValue := some
  Allowable := String
  allowable := some
  handle _ _ state := state

/-- Lists of texts that need no escapes, as far as they are written; of them only the empty one is read. -/
def listJson : SerdeJson (List String) where
  fromSlice b := if b = utf8 "[]" then some [] else none
  toVec l := utf8 ("[" ++ ",".intercalate (l.map fun text => "\"" ++ text ++ "\"") ++ "]")

theorem onlyAdds_listVls (nodeId : Bytes) : listVls.OnlyAdds nodeId where
  build h := by
    obtain ⟨rfl, -⟩ := Prod.mk.inj (Option.some.inj h)
    exact List.Subset.refl _
  addInvoice _ _ := List.Subset.refl _
  handle _ _ _ := List.Subset.refl _

/-- A request of the node with a call to configure the address, of four letters. -/
def configureTo (addr : String) : ℤ × HsmRequest :=
  (0, preapproveWith [plainSigned "/greenlight.Node/Configure" ([0, 0, 0, 0, 6, 0x0a, 4] ++ utf8 addr) 5, lnbcCall])

theorem allowlist_grows_again : ∃ u : State (List String),
    Run (plain.allowlistStep Prost.bolt11 listVls listJson) (State.new.updateNodeAllowlist "02" ["addr"])
      [configureTo "addr"] u ∧
    plain.Grown Prost.bolt11 listVls [2] (State.new.updateNodeAllowlist "02" ["addr"]) [configureTo "addr"] u := by
  have hlist : listVls.allowlist [2] (State.new.updateNodeAllowlist "02" ["addr"]) = ["addr"] := by decide +kernel
  have hadm : plain.Admitted Prost.bolt11 listVls.toVls 0 (configureTo "addr").2 (.preapproveInvoice (utf8 "lnbc"))
      [.glConfig ⟨"addr"⟩, .pay ⟨"lnbc"⟩] :=
    ⟨by decide +kernel, by decide +kernel, rfl, by decide +kernel⟩
  have hconf : ∀ a, plain.Configures Prost.bolt11 listVls (configureTo "addr") a → a = "addr" := by
    rintro a ⟨context, glConfig, hcontext, hmem, ha⟩
    obtain rfl := Option.some.inj (hadm.context.symm.trans hcontext)
    obtain rfl : glConfig = ⟨"addr"⟩ := by simpa using hmem
    exact (Option.some.inj ha).symm
  have hharmless : plain.Harmless Prost.bolt11 listVls listJson [2]
      (State.new.updateNodeAllowlist "02" ["addr"]) (configureTo "addr") := by
    refine ⟨fun msg context last hadm' hlast a ha => ?_, fun _ _ hno => ?_⟩
    · obtain ⟨-, rfl⟩ := hadm.unique hadm'
      obtain rfl : ⟨"addr"⟩ = last := Option.some.inj hlast
      rw [hlist, List.mem_singleton] at ha
      obtain rfl : a = "addr" := ha.elim (fun h => h) (hconf a)
      rfl
    · cases hno _ _ hadm
  have hdiff : State.ofEntries listJson (configureTo "addr").2.signerState = some .new := rfl
  have hselect : selectHandler (configureTo "addr").2.context = .ok .root := rfl
  have hstep : plain.allowlistStep Prost.bolt11 listVls listJson (State.new.updateNodeAllowlist "02" ["addr"])
      (configureTo "addr") = some _ := allowlistStep_of_admitted hdiff hadm rfl rfl hselect
  have hr := run_singleton.2 hstep
  have hsteps : AllSteps (plain.allowlistStep Prost.bolt11 listVls listJson)
      (plain.Harmless Prost.bolt11 listVls listJson [2]) (State.new.updateNodeAllowlist "02" ["addr"])
      [configureTo "addr"] := ⟨hharmless, fun _ _ => trivial⟩
  have hes : [configureTo "addr"] = [] ++ ([configureTo "addr"] ++ []) := rfl
  exact ⟨_, hr, allowlist_grows rfl (fun _ => rfl) (onlyAdds_listVls [2]) hsteps hes (run_nil.2 rfl) hr⟩

/-- An address that is configured replaces the one on the list. -/
theorem allowlist_loses : ¬ ∀ (s : Signer) (prost : Prost) (vls : AllowlistVls (List String))
    (json : SerdeJson (List String)) (nodeId : Bytes) (state u : State (List String)) (es : List (ℤ × HsmRequest)),
    vls.publicKeyFromSlice s.id = some nodeId → vls.ReadsLists → vls.OnlyAdds nodeId →
    Run (s.allowlistStep prost vls json) state es u → s.Grown prost vls nodeId state es u := by
  intro hall
  have hbefore : listVls.allowlist [2] (State.new.updateNodeAllowlist "02" ["addr"]) = ["addr"] := by decide +kernel
  have hafter : (plain.allowlistStep Prost.bolt11 listVls listJson (State.new.updateNodeAllowlist "02" ["addr"])
      (configureTo "next")).map (listVls.allowlist [2]) = some ["next"] := by decide +kernel
  obtain ⟨u, hstep, hu⟩ := Option.map_eq_some_iff.1 hafter
  obtain ⟨hentries, -⟩ := hall plain Prost.bolt11 listVls listJson [2] _ u _ rfl (fun _ => rfl)
    (onlyAdds_listVls [2]) (run_singleton.2 hstep)
  rw [hbefore, hu] at hentries
  have hmem : "addr" ∈ ["next"] := hentries List.mem_cons_self
  simp at hmem

end Signer

end Greenlight
