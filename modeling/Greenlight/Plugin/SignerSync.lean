import Greenlight.Plugin.Durability
import Greenlight.Plugin.SignerNet

/-!
# What the plugin loses of its signers

Every signer counts versions on its own, and `merge` compares nothing but versions.  So the plugin loses an
entry of a response exactly if it has the key at the same version with another value when it merges
(`respond_covers`), which two signers reach that update the same key between two exchanges
(`respond_loses_update`).

While every update is fresh, that is, takes a key to a version at which no other value of it is around, all
states in the system agree on the versions they share (`coherent_step`), and nothing is lost.
-/

namespace Greenlight.Plugin.Net

open Greenlight.Lib Greenlight.Persist

variable {Value : Type} {json : SerdeJson Value} {net net' : Net Value} {e : NetEvent Value} {id : CallId}

theorem plugin_step (h : net.step json e = some net') :
    net'.plugin = net.plugin ∨ ∃ e', net.plugin.step json e' = some net'.plugin := by
  cases step_outcome h with
  | send _ | deliver _ _ | update _ => exact Or.inl rfl
  | reply hp | report hp | plugin _ hp => exact Or.inr ⟨_, hp⟩

theorem inv_step (hinv : net.plugin.Inv json) (h : net.step json e = some net') : net'.plugin.Inv json := by
  rcases plugin_step h with heq | ⟨e', he'⟩
  · rwa [heq]
  · exact PluginNodeServer.inv_step hinv he'

theorem inv_run {es : List (NetEvent Value)} (hinv : net.plugin.Inv json) (hr : Run (step json) net es net') :
    net'.plugin.Inv json :=
  hr.invariant (I := fun net => net.plugin.Inv json) inv_step hinv

/-! ### Coherence -/

/-- The states in the system that a merge can still read. -/
inductive Holds (json : SerdeJson Value) (net : Net Value) : State Value → Prop
  | plugin : Holds json net net.plugin.signerState
  | signer (i : SignerId) : Holds json net (net.signers i)
  | request {i : SignerId} {entries : List SignerStateEntry} {s : State Value} :
      entries ∈ net.requests i → State.ofEntries json entries = some s → Holds json net s
  | response {id : CallId} {c : Call Value} {s : State Value} : net.plugin.calls id = some c →
      c.phase.IsPending → State.ofEntries json c.response.signerState = some s → Holds json net s

/-- Any two states in the system have one value for a key at a version. -/
def Coherent (json : SerdeJson Value) (net : Net Value) : Prop :=
  ∀ a b, net.Holds json a → net.Holds json b → a.Agree b

/-! ### The merge of a call -/

/-- The merge of the call `id` is a step of the run `es`, and the signer state is its result. -/
def MergedIn (json : SerdeJson Value) (net₀ : Net Value) (es : List (NetEvent Value)) (net : Net Value)
    (id : CallId) (new : State Value) : Prop :=
  ∃ pre mid net₁, es = pre ++ .plugin (.merge id) :: mid ∧ Run (step json) net₀ pre net₁ ∧
    net₁.Holds json new ∧ net.plugin.signerState = (net₁.plugin.signerState.merge new).1

theorem MergedIn.concat {net₀ : Net Value} {es : List (NetEvent Value)} {new : State Value}
    (h : MergedIn json net₀ es net id new) (hsame : net'.plugin.signerState = net.plugin.signerState) :
    MergedIn json net₀ (es ++ [e]) net' id new := by
  obtain ⟨pre, mid, net₁, rfl, hpre, hnew, hmerge⟩ := h
  exact ⟨pre, mid ++ [e], net₁, by simp, hpre, hnew, hsame.trans hmerge⟩

theorem mergedIn_of_merged? {net₀ : Net Value} {es : List (NetEvent Value)} (h₀ : net₀.plugin.Initial)
    (hr : Run (step json) net₀ es net) : ∀ c new, net.plugin.calls id = some c → c.phase.merged? = some new →
      MergedIn json net₀ es net id new := by
  refine hr.induction (motive := fun es net => ∀ c new, net.plugin.calls id = some c →
    c.phase.merged? = some new → MergedIn json net₀ es net id new) ?_ ?_
  · intro c new hid _
    rw [h₀.1 id] at hid
    cases hid
  · intro es net e net' hr ih h c new hid hm
    have hinv := inv_run h₀.inv hr
    -- a piece of a call is the merge in question, or it leaves the signer state as it is
    have hpiece : ∀ {e'}, net.plugin.step json e' = some net'.plugin →
        (e' = .merge id → e = .plugin (.merge id)) → MergedIn json net₀ (es ++ [e]) net' id new := by
      intro e' hp he
      rcases PluginNodeServer.merged_step hinv hp hid hm with ⟨he', hid₀, hmerge⟩ | ⟨hsame, c₀, hid₀, hm₀⟩
      · have hnew : net.Holds json new := .response hid₀ trivial ((hinv _ _ hid₀).decoded new rfl)
        rw [he he']
        exact ⟨es, [], net, rfl, hr, hnew, hmerge⟩
      · exact (ih _ _ hid₀ hm₀).concat hsame
    cases step_outcome h with
    | send _ | deliver _ _ | update _ => exact (ih _ _ hid hm).concat rfl
    | reply hp | report hp => exact hpiece hp nofun
    | plugin _ hp => exact hpiece hp (congrArg _)

/-- An update that gives no key a version that it has with another value anywhere in the system. -/
def FreshUpdate (json : SerdeJson Value) (net : Net Value) (e : NetEvent Value) : Prop :=
  ∀ i u v, e = .update i u → (net.signers i).get? u.stateKey = some v →
    ∀ t w, net.Holds json t → t.get? u.stateKey = some w → w.1 = v.1 + 1 → w.2 = u.value

/-- Where a state of the system after a step comes from. -/
inductive Derived (json : SerdeJson Value) (net : Net Value) (e : NetEvent Value) : State Value → Prop
  | held {s} : net.Holds json s → Derived json net e s
  | merged {a b} : net.Holds json a → net.Holds json b → Derived json net e (a.merge b).1
  | empty : Derived json net e .new
  | updated {i u s} : e = .update i u → u.apply (net.signers i) = some s → Derived json net e s

theorem mem_update {requests : SignerId → List (List SignerStateEntry)} {i j : SignerId}
    {queue : List (List SignerStateEntry)} {entries : List SignerStateEntry}
    (h : entries ∈ Function.update requests i queue j) : entries ∈ queue ∨ entries ∈ requests j := by
  by_cases hj : j = i
  · subst hj
    rw [Function.update_self] at h
    exact Or.inl h
  · rw [Function.update_of_ne hj] at h
    exact Or.inr h

theorem derived_plugin (hinv : net.plugin.Inv json) (h : net.step json e = some net') :
    Derived json net e net'.plugin.signerState := by
  rcases plugin_step h with hsame | ⟨e', hp⟩
  · rw [hsame]
    exact .held .plugin
  · rcases PluginNodeServer.signerState_step hp with hsame | ⟨id, response, new, hid, hmerge⟩
    · rw [hsame]
      exact .held .plugin
    · rw [hmerge]
      exact .merged .plugin (.response hid trivial ((hinv _ _ hid).decoded new rfl))

theorem derived_signer (h : net.step json e = some net') (j : SignerId) :
    Derived json net e (net'.signers j) := by
  cases step_outcome h with
  | send _ | reply _ | report _ | plugin _ _ => exact .held (.signer j)
  | @deliver i entries rest diff hreq hdiff =>
    have hnew : Derived json net (.deliver i) ((net.signers i).merge diff).1 :=
      .merged (.signer i) (.request (by rw [hreq]; exact List.mem_cons_self) hdiff)
    exact (Function.forall_update_iff _ fun _ s => Derived json net (.deliver i) s).2
      ⟨hnew, fun k _ => .held (.signer k)⟩ j
  | @update i u s hu =>
    exact (Function.forall_update_iff _ fun _ s => Derived json net (.update i u) s).2
      ⟨.updated rfl hu, fun k _ => .held (.signer k)⟩ j

theorem derived_request (hjson : json.RoundTrip) (h : net.step json e = some net') {j : SignerId}
    {entries : List SignerStateEntry} {s : State Value} (hmem : entries ∈ net'.requests j)
    (hdec : State.ofEntries json entries = some s) : Derived json net e s := by
  cases step_outcome h with
  | update _ | reply _ | report _ | plugin _ _ => exact .held (.request hmem hdec)
  | @send i _ =>
    rcases mem_update hmem with hmem | hmem
    · rcases List.mem_append.1 hmem with hmem | hmem
      · exact .held (.request hmem hdec)
      · obtain rfl := List.mem_singleton.1 hmem
        rw [State.ofEntries_toEntries hjson] at hdec
        obtain rfl := Option.some.inj hdec
        exact .held .plugin
    · exact .held (.request hmem hdec)
  | @deliver i first rest diff hreq _ =>
    rcases mem_update hmem with hmem | hmem
    · exact .held (.request (by rw [hreq]; exact List.mem_cons_of_mem _ hmem) hdec)
    · exact .held (.request hmem hdec)

theorem derived_response (hjson : json.RoundTrip) (h : net.step json e = some net') {c : Call Value}
    {s : State Value} (hid : net'.plugin.calls id = some c) (hpend : c.phase.IsPending)
    (hdec : State.ofEntries json c.response.signerState = some s) : Derived json net e s := by
  -- a response of a later call is one of the calls before, or that of the call which begins
  have hcalls : ∀ {e' p}, net.plugin.step json e' = some p → p.calls id = some c →
      (e' = .call id c.response → Derived json net e s) → Derived json net e s := by
    intro e' p hp hid hnew
    rcases PluginNodeServer.pending_step hp hid hpend with he | ⟨c₀, hid₀, hpend₀, heq⟩
    · exact hnew he
    · rw [← heq] at hdec
      exact .held (.response hid₀ hpend₀ hdec)
  cases step_outcome h with
  | send _ | deliver _ _ | update _ => exact .held (.response hid hpend hdec)
  | reply hp =>
    refine hcalls hp hid fun he => ?_
    rw [← (Event.call.inj he).2, State.ofEntries_toEntries hjson] at hdec
    obtain rfl := Option.some.inj hdec
    exact .held (.signer _)
  | report hp =>
    refine hcalls hp hid fun he => ?_
    rw [← (Event.call.inj he).2] at hdec
    obtain rfl := Option.some.inj hdec
    exact .empty
  | plugin hno hp => exact hcalls hp hid fun he => absurd he (hno _ _)

theorem derived_step (hjson : json.RoundTrip) (hinv : net.plugin.Inv json) (h : net.step json e = some net')
    {s : State Value} (hs : net'.Holds json s) : Derived json net e s := by
  cases hs with
  | plugin => exact derived_plugin hinv h
  | signer j => exact derived_signer h j
  | request hmem hdec => exact derived_request hjson h hmem hdec
  | response hid hpend hdec => exact derived_response hjson h hid hpend hdec

theorem Derived.agree_held (hcoh : net.Coherent json) (hfresh : net.FreshUpdate json e) {s t : State Value}
    (hs : Derived json net e s) (ht : net.Holds json t) : s.Agree t := by
  cases hs with
  | held hs => exact hcoh _ _ hs ht
  | merged ha hb => exact State.agree_merge (hcoh _ _ ha ht) (hcoh _ _ hb ht)
  | empty => exact State.new_agree t
  | @updated i u s he hu =>
    rw [Update.apply_eq] at hu
    obtain ⟨v, hv, hself, hother⟩ := State.bump_eq_some hu
    intro k
    by_cases hk : u.stateKey = k
    · subst hk
      rw [hself]
      intro x hx w hw hver
      obtain rfl := Option.mem_some_iff.1 hx
      have hval := hfresh i u v he hv t w ht hw hver.symm
      exact Prod.ext hver hval.symm
    · rw [hother k hk]
      exact hcoh _ _ (.signer i) ht k

theorem Derived.agree (hcoh : net.Coherent json) (hfresh : net.FreshUpdate json e) {s t : State Value}
    (hs : Derived json net e s) (ht : Derived json net e t) : s.Agree t := by
  cases ht with
  | held ht => exact hs.agree_held hcoh hfresh ht
  | merged ha hb =>
    exact (State.agree_merge (hs.agree_held hcoh hfresh ha).symm (hs.agree_held hcoh hfresh hb).symm).symm
  | empty => exact (State.new_agree s).symm
  | @updated i u t he hu =>
    have ht : Derived json net e t := .updated he hu
    cases hs with
    | held hs => exact (ht.agree_held hcoh hfresh hs).symm
    | merged ha hb =>
      exact State.agree_merge (ht.agree_held hcoh hfresh ha).symm (ht.agree_held hcoh hfresh hb).symm
    | empty => exact State.new_agree t
    | updated he' hu' =>
      obtain ⟨rfl, rfl⟩ := NetEvent.update.inj (he.symm.trans he')
      obtain rfl := Option.some.inj (hu.symm.trans hu')
      exact State.Agree.refl _

theorem coherent_step (hjson : json.RoundTrip) (hinv : net.plugin.Inv json) (hcoh : net.Coherent json)
    (hfresh : net.FreshUpdate json e) (h : net.step json e = some net') : net'.Coherent json :=
  fun _ _ ha hb => (derived_step hjson hinv h ha).agree hcoh hfresh (derived_step hjson hinv h hb)

/-! ### The hand-over -/

/-- Nothing is under way, and the plugin and the signers agree on the versions they share. -/
def Initial (net : Net Value) : Prop :=
  net.plugin.Initial ∧ (∀ i, net.requests i = []) ∧ (∀ i, net.plugin.signerState.Agree (net.signers i)) ∧
    ∀ i j, (net.signers i).Agree (net.signers j)

theorem Initial.holds (h₀ : net.Initial) {s : State Value} (hs : net.Holds json s) :
    s = net.plugin.signerState ∨ ∃ i, s = net.signers i := by
  obtain ⟨⟨hcalls, -, -⟩, hreq, -, -⟩ := h₀
  cases hs with
  | plugin => exact Or.inl rfl
  | signer i => exact Or.inr ⟨i, rfl⟩
  | request hmem _ =>
    rw [hreq] at hmem
    cases hmem
  | response hid _ _ =>
    rw [hcalls] at hid
    cases hid

theorem Initial.coherent (h₀ : net.Initial) : net.Coherent json := by
  intro a b ha hb
  obtain ⟨-, -, hplugin, hsigners⟩ := id h₀
  rcases h₀.holds ha with rfl | ⟨i, rfl⟩ <;> rcases h₀.holds hb with rfl | ⟨j, rfl⟩
  · exact State.Agree.refl _
  · exact hplugin j
  · exact (hplugin i).symm
  · exact hsigners i j

theorem coherent_run (hjson : json.RoundTrip) {es : List (NetEvent Value)} (h₀ : net.Initial)
    (hr : Run (step json) net es net') (hfresh : AllSteps (step json) (FreshUpdate json) net es) :
    net'.Coherent json := by
  have hboth := hr.invariant_of (I := fun net => net.plugin.Inv json ∧ net.Coherent json)
    (fun hI hP h => ⟨inv_step hI.1 h, coherent_step hjson hI.1 hI.2 hP h⟩) ⟨h₀.1.inv, h₀.coherent⟩ hfresh
  exact hboth.2

/-- **What is stored when a response is handed over.**  The store covers the state of the response exactly if
the plugin agreed with it when it merged it, and it always does in a run of fresh updates. -/
theorem respond_covers (hjson : json.RoundTrip) {net₀ : Net Value} {es : List (NetEvent Value)}
    (h₀ : net₀.Initial) (hr : Run (step json) net₀ es net)
    (h : net.step json (.plugin (.respond id)) = some net') :
    ∃ c new, net.plugin.calls id = some c ∧ State.ofEntries json c.response.signerState = some new ∧
      (∃ pre mid net₁, es = pre ++ .plugin (.merge id) :: mid ∧ Run (step json) net₀ pre net₁ ∧
        (net'.plugin.stored.Covers new ↔ net₁.plugin.signerState.Agree new)) ∧
      (AllSteps (step json) (FreshUpdate json) net₀ es → net'.plugin.stored.Covers new) := by
  have hinv := inv_run h₀.1.inv hr
  cases step_outcome h with
  | plugin _ hp =>
    cases PluginNodeServer.step_outcome hp with
    | @respond _ response new hid =>
      have hok := hinv _ _ hid
      obtain ⟨pre, mid, net₁, hes, hpre, hnew, hmerge⟩ := mergedIn_of_merged? h₀.1 hr _ new hid rfl
      have hiff : net.plugin.stored.Covers new ↔ net₁.plugin.signerState.Agree new := by
        rw [hok.written new rfl, hmerge]
        exact State.covers_merge_right_iff
      refine ⟨_, new, hid, hok.decoded new rfl, ⟨pre, mid, net₁, hes, hpre, hiff⟩, fun hfresh => ?_⟩
      subst hes
      -- with fresh updates all states of the system agree, that of the response too
      have hcoh := coherent_run hjson h₀ hpre ((allSteps_append hpre).1 hfresh).1
      exact hiff.2 (hcoh _ _ .plugin hnew)

def attached (s : State Value) : Net Value where
  plugin := .idle s
  signers := fun _ => s
  requests := fun _ => []

theorem initial_attached (s : State Value) : (attached s).Initial :=
  ⟨PluginNodeServer.initial_idle s, fun _ => rfl, fun _ => .refl s, fun _ _ => .refl s⟩

def nodeState : State Bool := State.new.insert "nodestates/a" (0, false)

/-- One exchange with the signer `i`, which updates the entry of the node. -/
def exchange (i : SignerId) (id : CallId) (nodeState : Bool) : List (NetEvent Bool) :=
  [.send i, .deliver i, .update i (.node "a" nodeState), .reply i id 1000 []]

/-- The first request comes to the signer `0`. -/
def delivered : List (NetEvent Bool) := [.send 0, .deliver 0]

/-- Then the next version of the entry of the node is new. -/
theorem freshUpdate_delivered : ∃ net, Run (step SerdeJson.bool) (attached nodeState) delivered net ∧
    net.FreshUpdate SerdeJson.bool (.update 0 (.node "a" true)) := by
  have hrun : ∃ net : Net Bool, Run (step SerdeJson.bool) (attached nodeState) delivered net ∧
      (∀ i, (net.signers i).get? "nodestates/a" = some (0, false)) ∧
      net.plugin.signerState.get? "nodestates/a" = some (0, false) ∧ (∀ i, net.requests i = []) ∧
      ∀ id, net.plugin.calls id = none := by
    refine ⟨_, rfl, fun i => ?_, rfl, fun i => ?_, fun _ => rfl⟩
    · rcases eq_or_ne i 0 with rfl | hne
      · rfl
      · show State.get? (Function.update (fun _ => nodeState) 0 _ i) _ = _
        rw [Function.update_of_ne hne]
        rfl
    · rcases eq_or_ne i 0 with rfl | hne
      · rfl
      · show Function.update (Function.update (fun _ => []) 0 _) 0 _ i = _
        rw [Function.update_of_ne hne, Function.update_of_ne hne]
  obtain ⟨net, hr, hsigners, hplugin, hrequests, hcalls⟩ := hrun
  refine ⟨net, hr, fun i u v he hv t w ht hw hversion => ?_⟩
  obtain ⟨rfl, rfl⟩ := NetEvent.update.inj he
  -- every state of the system has the first version
  have hfirst : t.get? "nodestates/a" = some (0, false) := by
    cases ht with
    | plugin => exact hplugin
    | signer j => exact hsigners j
    | request hmem _ =>
      rw [hrequests] at hmem
      cases hmem
    | response hid _ _ =>
      rw [hcalls] at hid
      cases hid
  obtain rfl := Option.some.inj (hv.symm.trans (hsigners 0))
  obtain rfl := Option.some.inj (hw.symm.trans hfirst)
  cases hversion

/-- The signers `0` and `1` answer side by side, and the write of the first response fails. -/
def failedWrite : List (NetEvent Bool) :=
  [.reply 0 0 1000 [], .send 1, .deliver 1, .plugin (.decode 0), .reply 1 1 1001 [], .plugin (.lockState 0),
    .plugin (.decode 1), .plugin (.merge 0), .plugin (.lockStore 0), .plugin (.write 0 false),
    .plugin (.lockState 1), .plugin (.merge 1), .plugin (.lockStore 1), .plugin (.write 1 true)]

theorem respond_covers_failedWrite : ∃ net net' : Net Bool,
    Run (step SerdeJson.bool) (attached nodeState)
      (delivered ++ .update 0 (.node "a" true) :: failedWrite) net ∧
    net.step SerdeJson.bool (.plugin (.respond 1)) = some net' ∧
    ∃ c new, net.plugin.calls 1 = some c ∧
      State.ofEntries SerdeJson.bool c.response.signerState = some new ∧
      (∃ pre mid net₁, delivered ++ .update 0 (.node "a" true) :: failedWrite =
          pre ++ .plugin (.merge 1) :: mid ∧ Run (step SerdeJson.bool) (attached nodeState) pre net₁ ∧
        (net'.plugin.stored.Covers new ↔ net₁.plugin.signerState.Agree new)) ∧
      net'.plugin.stored.Covers new := by
  obtain ⟨net', hrun⟩ : ∃ net', Run (step SerdeJson.bool) (attached nodeState)
      (delivered ++ .update 0 (.node "a" true) :: failedWrite ++ [NetEvent.plugin (.respond 1)]) net' :=
    Option.isSome_iff_exists.1 (by decide +kernel)
  obtain ⟨net, hnet, hstep⟩ := run_concat.1 hrun
  obtain ⟨mid, hmid, hfresh⟩ := freshUpdate_delivered
  have hall : AllSteps (step SerdeJson.bool) (FreshUpdate SerdeJson.bool) (attached nodeState)
      (delivered ++ .update 0 (.node "a" true) :: failedWrite) := by
    refine allSteps_of_single hmid hfresh (fun f hf net i u v he => ?_) fun f hf net i u v he => ?_
    · simp [he, delivered] at hf
    · simp [he, failedWrite] at hf
  obtain ⟨c, new, hid, hdec, hmerge, hcovers⟩ :=
    respond_covers SerdeJson.roundTrip_bool (initial_attached nodeState) hnet hstep
  exact ⟨net, net', hnet, hstep, c, new, hid, hdec, hmerge, hcovers hall⟩

/-- Two signers update the entry of the node after the same request: the plugin keeps the value of the first
response and hands over the second one all the same. -/
theorem respond_loses_update : ¬ ∀ (net₀ net net' : Net Bool) (es : List (NetEvent Bool)) (id : CallId),
    net₀.Initial → Run (step SerdeJson.bool) net₀ es net →
    net.step SerdeJson.bool (.plugin (.respond id)) = some net' →
    ∀ c new, net.plugin.calls id = some c →
      State.ofEntries SerdeJson.bool c.response.signerState = some new → net'.plugin.stored.Covers new := by
  intro hall
  -- both signers bump the entry to version 1, the second one with another value
  have hlost : ∃ (net net' : Net Bool) (c : Call Bool)
      (new : State Bool), Run (step SerdeJson.bool) (attached nodeState)
        (exchange 0 0 true ++ exchange 1 1 false ++
          (PluginNodeServer.beforeRespond 0 ++ [Event.respond 0] ++
            PluginNodeServer.beforeRespond 1).map NetEvent.plugin) net ∧
      net.step SerdeJson.bool (.plugin (.respond 1)) = some net' ∧ net.plugin.calls 1 = some c ∧
      State.ofEntries SerdeJson.bool c.response.signerState = some new ∧
      net'.plugin.stored.get? "nodestates/a" = some (1, true) ∧ new.get? "nodestates/a" = some (1, false) :=
    ⟨_, _, _, _, rfl, rfl, rfl, rfl, rfl, rfl⟩
  obtain ⟨net, net', c, new, hrun, hstep, hid, hdec, hstored, hnew⟩ := hlost
  obtain ⟨f, hf, hcov⟩ := hall _ _ _ _ _ (initial_attached nodeState) hrun hstep c new hid hdec _ _ hnew
  rw [hstored] at hf
  obtain rfl := Option.mem_some_iff.1 hf
  exact absurd hcov (by decide)

end Greenlight.Plugin.Net
