import Greenlight.Persist.Memory
import Greenlight.Plugin.SignerSync

/-!
# What becomes of a deletion

A response lists the entries that a signer has, so the plugin never learns that one was deleted, and its own state
never loses a key.  The next request carries the whole state of the plugin, and with it the deleted entry comes
back, unless the plugin has never had it (`deletion_undone`).
-/

namespace Greenlight.Plugin

open Greenlight.Lib Greenlight.Persist

/-- An event of the system, or an operation that a handler runs on the state of its signer. -/
inductive HandlerEvent (Value : Type) where
  | net (e : NetEvent Value)
  | persist (i : SignerId) (op : PersistOp Value)

namespace Net

variable {Value : Type}

def handlerStep (json : SerdeJson Value) (nodeChannelId : Bytes → Bytes → Bytes) (net : Net Value) :
    HandlerEvent Value → Option (Net Value)
  | .net e => net.step json e
  | .persist i op =>
    (op.apply nodeChannelId (net.signers i)).map fun s =>
      { net with signers := Function.update net.signers i s }

/-- No handler of the signer inserts the key where it is missing. -/
def NoInsert (nodeChannelId : Bytes → Bytes → Bytes) (i : SignerId) (k : String) (net : Net Value)
    (e : HandlerEvent Value) : Prop :=
  ∀ op s, e = .persist i op → op.apply nodeChannelId (net.signers i) = some s →
    (net.signers i).get? k = none → s.get? k = none

/-- The requests on their way to a signer are states of the plugin, each at least as new as those before it. -/
structure InOrder (json : SerdeJson Value) (i : SignerId) (net : Net Value) (sent : List (State Value)) : Prop where
  requests : net.requests i = sent.map (State.toEntries json)
  newer : (sent ++ [net.plugin.signerState]).Pairwise fun a b => b.AtLeast a

variable {json : SerdeJson Value} {nodeChannelId : Bytes → Bytes → Bytes} {net net' : Net Value}
  {i : SignerId} {k : String}

theorem has_of_atLeast {a b : State Value} (h : b.AtLeast a) (ha : a.get? k ≠ none) : b.get? k ≠ none := by
  obtain ⟨v, hv⟩ := Option.ne_none_iff_exists'.1 ha
  obtain ⟨w, hw, -⟩ := h k v hv
  exact Option.ne_none_iff_exists'.2 ⟨w, hw⟩

theorem plugin_atLeast {e : NetEvent Value} (h : net.step json e = some net') :
    net'.plugin.signerState.AtLeast net.plugin.signerState := by
  rcases plugin_step h with hsame | ⟨e', hp⟩
  · rw [hsame]
    exact fun k => Versioned.atLeast_refl _
  · rcases PluginNodeServer.signerState_step hp with hsame | ⟨id, response, new, -, hmerge⟩
    · rw [hsame]
      exact fun k => Versioned.atLeast_refl _
    · rw [hmerge]
      exact fun k => (State.covers_merge_left _ new k).atLeast

theorem plugin_atLeast_run {es : List (HandlerEvent Value)} (hr : Run (handlerStep json nodeChannelId) net es net') :
    net'.plugin.signerState.AtLeast net.plugin.signerState := by
  refine hr.induction (motive := fun _ net' => net'.plugin.signerState.AtLeast net.plugin.signerState)
    (fun k => Versioned.atLeast_refl _) fun es net₁ e net₂ _ ih h => ?_
  cases e with
  | net e => exact fun k => (plugin_atLeast h k).trans (ih k)
  | persist j op =>
    obtain ⟨s, -, rfl⟩ := Option.map_eq_some_iff.1 h
    exact ih

theorem InOrder.of_plugin {sent : List (State Value)} (h : InOrder json i net sent)
    (hreq : net'.requests i = net.requests i)
    (hplugin : net'.plugin.signerState.AtLeast net.plugin.signerState) : InOrder json i net' sent := by
  refine ⟨hreq.trans h.requests, ?_⟩
  obtain ⟨hsent, -, hlast⟩ := List.pairwise_append.1 h.newer
  refine List.pairwise_append.2 ⟨hsent, List.pairwise_singleton _ _, fun a ha b hb => ?_⟩
  obtain rfl := List.mem_singleton.1 hb
  exact fun k => (hplugin k).trans (hlast a ha _ (List.mem_singleton_self _) k)

theorem atLeast_of_plugin (sent : List (State Value))
    (hplugin : net'.plugin.signerState.AtLeast net.plugin.signerState) :
    ∀ s' ∈ sent ++ [net'.plugin.signerState], ∃ s ∈ sent ++ [net.plugin.signerState], s'.AtLeast s := by
  intro s' hs'
  rcases List.mem_append.1 hs' with hs' | hs'
  · exact ⟨s', List.mem_append_left _ hs', fun k => Versioned.atLeast_refl _⟩
  · obtain rfl := List.mem_singleton.1 hs'
    exact ⟨_, List.mem_append_right _ (List.mem_singleton_self _), hplugin⟩

/-- The signer gets a key by what it is sent, and then everything sent after that has the key as well. -/
def Spreads (i : SignerId) (k : String) (net net' : Net Value) (sent' : List (State Value)) : Prop :=
  (net'.signers i).get? k ≠ none → (net.signers i).get? k ≠ none ∨
    ∀ s ∈ sent' ++ [net'.plugin.signerState], s.get? k ≠ none

theorem send_step {j : SignerId} {sent : List (State Value)} (h : InOrder json i net sent)
    (hstep : net.step json (.send j) = some net') : ∃ sent', InOrder json i net' sent' ∧
      ∀ s ∈ sent' ++ [net'.plugin.signerState], s ∈ sent ++ [net.plugin.signerState] := by
  obtain ⟨hreq, hplugin⟩ : net'.requests = Function.update net.requests j
      (net.requests j ++ [net.plugin.signerState.toEntries json]) ∧ net'.plugin = net.plugin := by
    cases step_outcome hstep with
    | send _ => exact ⟨rfl, rfl⟩
  by_cases hj : i = j
  · subst hj
    refine ⟨sent ++ [net.plugin.signerState], ⟨?_, ?_⟩, ?_⟩
    · rw [hreq, Function.update_self, h.requests, List.map_append]
      rfl
    · rw [hplugin]
      refine List.pairwise_append.2 ⟨h.newer, List.pairwise_singleton _ _, fun a ha b hb => ?_⟩
      obtain rfl := List.mem_singleton.1 hb
      -- the state of the plugin is newer than those it has sent
      rcases List.mem_append.1 ha with ha | ha
      · exact (List.pairwise_append.1 h.newer).2.2 a ha _ (List.mem_singleton_self _)
      · obtain rfl := List.mem_singleton.1 ha
        exact fun k => Versioned.atLeast_refl _
    · intro s hs
      rw [hplugin] at hs
      rcases List.mem_append.1 hs with hs | hs
      · exact hs
      · exact List.mem_append_right _ hs
  · refine ⟨sent, ⟨?_, by rw [hplugin]; exact h.newer⟩, fun s hs => by rwa [hplugin] at hs⟩
    rw [hreq, Function.update_of_ne hj, h.requests]

theorem deliver_step (hjson : json.RoundTrip) {sent : List (State Value)} (h : InOrder json i net sent)
    {entries : List SignerStateEntry} {rest : List (List SignerStateEntry)} {diff : State Value}
    (hreq : net.requests i = entries :: rest) (hdiff : State.ofEntries json entries = some diff) :
    ∃ sent', sent = diff :: sent' ∧ rest = sent'.map (State.toEntries json) := by
  obtain ⟨q, sent', rfl, hq, hrest⟩ := List.map_eq_cons_iff.1 (h.requests.symm.trans hreq)
  rw [← hq, State.ofEntries_toEntries hjson] at hdiff
  obtain rfl := Option.some.inj hdiff
  exact ⟨sent', rfl, hrest.symm⟩

theorem update_apply_has {u : Update Value} {s s' : State Value} (h : u.apply s = some s') (hk : s'.get? k ≠ none) :
    s.get? k ≠ none := by
  rw [Update.apply_eq] at h
  obtain ⟨v, hv, -, hother⟩ := State.bump_eq_some h
  by_cases hkey : u.stateKey = k
  · subst hkey
    simp [hv]
  · rwa [hother k hkey] at hk

/-- What a step does to the requests of a signer, and to the keys the signer has. -/
theorem inOrder_step (hjson : json.RoundTrip) {e : HandlerEvent Value} {sent : List (State Value)}
    (h : InOrder json i net sent) (hstep : net.handlerStep json nodeChannelId e = some net') :
    ∃ sent', InOrder json i net' sent' ∧
      (∀ s' ∈ sent' ++ [net'.plugin.signerState], ∃ s ∈ sent ++ [net.plugin.signerState], s'.AtLeast s) ∧
      ∀ k, NoInsert nodeChannelId i k net e → Spreads i k net net' sent' := by
  -- most steps leave the requests of the signer alone
  have hkept : net'.requests i = net.requests i → net'.plugin.signerState.AtLeast net.plugin.signerState →
      (∀ k, NoInsert nodeChannelId i k net e → (net'.signers i).get? k ≠ none → (net.signers i).get? k ≠ none) →
      ∃ sent', InOrder json i net' sent' ∧
        (∀ s' ∈ sent' ++ [net'.plugin.signerState], ∃ s ∈ sent ++ [net.plugin.signerState], s'.AtLeast s) ∧
        ∀ k, NoInsert nodeChannelId i k net e → Spreads i k net net' sent' := fun hreq hplugin hsigner =>
    ⟨sent, h.of_plugin hreq hplugin, atLeast_of_plugin sent hplugin, fun k hno hk => Or.inl (hsigner k hno hk)⟩
  cases e with
  | persist j op =>
    obtain ⟨s, hs, rfl⟩ := Option.map_eq_some_iff.1 hstep
    refine hkept rfl (fun k => Versioned.atLeast_refl _) fun k hno hk => ?_
    by_cases hj : i = j
    · subst hj
      simp only [Function.update_self] at hk
      exact fun hnone => hk (hno op s rfl hs hnone)
    · simpa only [Function.update_of_ne hj] using hk
  | net e =>
    have hplugin := plugin_atLeast hstep
    cases step_outcome hstep with
    | reply _ | report _ | plugin _ _ => exact hkept rfl hplugin fun k _ hk => hk
    | @update j u s hu =>
      refine hkept rfl hplugin fun k _ hk => ?_
      by_cases hj : i = j
      · subst hj
        simp only [Function.update_self] at hk
        exact update_apply_has hu hk
      · simpa only [Function.update_of_ne hj] using hk
    | @send j _ =>
      obtain ⟨sent', hsent', hsub⟩ := send_step h hstep
      exact ⟨sent', hsent', fun s hs => ⟨s, hsub s hs, fun k => Versioned.atLeast_refl _⟩,
        fun k _ hk => Or.inl hk⟩
    | @deliver j entries rest diff hreq hdiff =>
      by_cases hj : i = j
      · subst hj
        obtain ⟨sent', rfl, hrest⟩ := deliver_step hjson h hreq hdiff
        have hnewer := List.pairwise_cons.1 h.newer
        refine ⟨sent', ⟨by simp [hrest], hnewer.2⟩, fun s hs => ?_, fun k _ hk => ?_⟩
        · exact ⟨s, List.mem_cons_of_mem _ hs, fun k => Versioned.atLeast_refl _⟩
        · simp only [Function.update_self, State.get?_merge] at hk
          by_cases hold : (net.signers i).get? k = none
          · rw [hold, Versioned.join_none_left] at hk
            exact Or.inr fun s hs => has_of_atLeast (hnewer.1 s hs) hk
          · exact Or.inl hold
      · exact hkept (Function.update_of_ne hj _ _) hplugin fun k _ hk => by
          simpa only [Function.update_of_ne hj] using hk

/-- As long as no handler inserts the key, a signer that has it again got it from the plugin, and then every request
on its way has it. -/
structure Tracked (json : SerdeJson Value) (i : SignerId) (k : String) (net : Net Value)
    (sent : List (State Value)) : Prop extends InOrder json i net sent where
  known : (net.signers i).get? k ≠ none → ∀ s ∈ sent ++ [net.plugin.signerState], s.get? k ≠ none

theorem tracked_step (hjson : json.RoundTrip) {e : HandlerEvent Value} {sent : List (State Value)}
    (h : Tracked json i k net sent) (hno : NoInsert nodeChannelId i k net e)
    (hstep : net.handlerStep json nodeChannelId e = some net') : ∃ sent', Tracked json i k net' sent' := by
  obtain ⟨sent', horder, hnewer, hspreads⟩ := inOrder_step hjson h.toInOrder hstep
  refine ⟨sent', horder, fun hk s' hs' => ?_⟩
  rcases hspreads k hno hk with hold | hall
  · obtain ⟨s, hs, hle⟩ := hnewer s' hs'
    exact has_of_atLeast hle (h.known hold s hs)
  · exact hall s' hs'

theorem tracked_run (hjson : json.RoundTrip) {es : List (HandlerEvent Value)} {sent : List (State Value)}
    (h : Tracked json i k net sent) (hr : Run (handlerStep json nodeChannelId) net es net')
    (hno : AllSteps (handlerStep json nodeChannelId) (NoInsert nodeChannelId i k) net es) :
    ∃ sent', Tracked json i k net' sent' :=
  hr.invariant_of (I := fun net => ∃ sent, Tracked json i k net sent)
    (fun ⟨_, hI⟩ hP h => tracked_step hjson hI hP h) ⟨sent, h⟩ hno

theorem inOrder_run (hjson : json.RoundTrip) {es : List (HandlerEvent Value)} (h₀ : net.requests i = [])
    (hr : Run (handlerStep json nodeChannelId) net es net') : ∃ sent, InOrder json i net' sent := by
  refine hr.invariant (I := fun net => ∃ sent, InOrder json i net sent) ?_ ⟨[], h₀, List.pairwise_singleton _ _⟩
  rintro net e net' ⟨sent, h⟩ hstep
  obtain ⟨sent', h', -, -⟩ := inOrder_step hjson h hstep
  exact ⟨sent', h'⟩

/-- **A deletion lasts until the next request.**  A handler has left the signer without the key, and no handler
inserts it again. After the next request that the plugin sends is merged the key is missing exactly if the plugin did
not have it, which it does if it ever had it; and what the signer has is at least as new as what the plugin had. -/
theorem deletion_undone (hjson : json.RoundTrip) {net₀ net₁ net₂ net₃ net₄ : Net Value}
    {es mid post : List (HandlerEvent Value)} {op : PersistOp Value} (h₀ : net₀.requests i = [])
    (hr : Run (handlerStep json nodeChannelId) net₀ (es ++ [.persist i op]) net₁)
    (hgone : (net₁.signers i).get? k = none)
    (hmid : Run (handlerStep json nodeChannelId) net₁ mid net₂)
    (hpost : Run (handlerStep json nodeChannelId) net₂ (.net (.send i) :: post) net₃)
    (hno : AllSteps (handlerStep json nodeChannelId) (NoInsert nodeChannelId i k) net₁
      (mid ++ .net (.send i) :: post))
    (hnext : (net₃.requests i).head? = some (net₂.plugin.signerState.toEntries json))
    (hdeliver : net₃.step json (.deliver i) = some net₄) :
    ((net₄.signers i).get? k = none ↔ net₂.plugin.signerState.get? k = none) ∧
      (net₁.plugin.signerState.get? k ≠ none → net₂.plugin.signerState.get? k ≠ none) ∧
      (net₄.signers i).AtLeast net₂.plugin.signerState := by
  obtain ⟨sent₁, horder⟩ := inOrder_run hjson h₀ hr
  have htracked : Tracked json i k net₁ sent₁ := ⟨horder, fun hk => absurd hgone hk⟩
  obtain ⟨sent₃, h₃⟩ := tracked_run hjson htracked (run_append.2 ⟨net₂, hmid, hpost⟩) hno
  cases step_outcome hdeliver with
  | @deliver _ entries rest diff hreq hdiff =>
    rw [hreq, List.head?_cons] at hnext
    obtain rfl := Option.some.inj hnext
    obtain ⟨sent', rfl, -⟩ := deliver_step hjson h₃.toInOrder hreq hdiff
    obtain rfl : net₂.plugin.signerState = diff := by
      rw [State.ofEntries_toEntries hjson] at hdiff
      exact Option.some.inj hdiff
    simp only [Function.update_self]
    refine ⟨?_, has_of_atLeast (plugin_atLeast_run hmid), State.atLeast_merge _ _⟩
    rw [State.get?_merge]
    constructor
    · intro hk
      by_contra hplugin
      exact has_of_atLeast (State.atLeast_merge (net₃.signers i) _) hplugin (by rw [State.get?_merge, hk])
    · intro hplugin
      -- the signer has not got the key meanwhile, or this request would have it
      have hsigner : (net₃.signers i).get? k = none := by
        by_contra hk
        exact h₃.known hk _ List.mem_cons_self hplugin
      rw [hsigner, hplugin]
      rfl

/-- A state with the entries of one node. -/
def registered : State Bool := (State.new.insert "nodes/ab" (0, true)).insert "nodestates/ab" (0, true)

/-- The response of the signer, up to its hand-over. -/
def replyToDeletion : List (HandlerEvent Bool) :=
  .net (.reply 0 0 1000 []) :: (PluginNodeServer.beforeRespond 0 ++ [Event.respond 0]).map fun e => .net (.plugin e)

/-- A handler deletes the node, the response is merged, and the next request arrives. -/
theorem run_deletion : ∃ net₁ net₂ net₃ net₄ : Net Bool,
    Run (handlerStep SerdeJson.bool (· ++ ·)) (attached registered) ([] ++ [.persist 0 (.deleteNode [0xab])]) net₁ ∧
    (net₁.signers 0).get? "nodes/ab" = none ∧
    Run (handlerStep SerdeJson.bool (· ++ ·)) net₁ replyToDeletion net₂ ∧
    Run (handlerStep SerdeJson.bool (· ++ ·)) net₂ [.net (.send 0)] net₃ ∧
    (net₃.requests 0).head? = some (net₂.plugin.signerState.toEntries SerdeJson.bool) ∧
    net₃.step SerdeJson.bool (.deliver 0) = some net₄ ∧
    (net₄.signers 0).get? "nodes/ab" = some (0, true) :=
  ⟨_, _, _, _, rfl, rfl, rfl, rfl, rfl, rfl, rfl⟩

theorem noInsert_replyToDeletion (net : Net Bool) :
    AllSteps (handlerStep SerdeJson.bool (· ++ ·)) (NoInsert (· ++ ·) 0 "nodes/ab") net
      (replyToDeletion ++ [.net (.send 0)]) := by
  refine allSteps_of_forall fun e he s op t heq => ?_
  subst heq
  simp [replyToDeletion, PluginNodeServer.beforeRespond] at he

theorem deletion_undone_node : ∃ net₁ net₂ net₃ net₄ : Net Bool,
    Run (handlerStep SerdeJson.bool (· ++ ·)) (attached registered) ([] ++ [.persist 0 (.deleteNode [0xab])]) net₁ ∧
    Run (handlerStep SerdeJson.bool (· ++ ·)) net₁ replyToDeletion net₂ ∧
    net₃.step SerdeJson.bool (.deliver 0) = some net₄ ∧
    ((net₄.signers 0).get? "nodes/ab" = none ↔ net₂.plugin.signerState.get? "nodes/ab" = none) ∧
    (net₁.plugin.signerState.get? "nodes/ab" ≠ none → net₂.plugin.signerState.get? "nodes/ab" ≠ none) ∧
    (net₄.signers 0).AtLeast net₂.plugin.signerState := by
  obtain ⟨net₁, net₂, net₃, net₄, hr, hgone, hmid, hpost, hnext, hdeliver, -⟩ := run_deletion
  exact ⟨net₁, net₂, net₃, net₄, hr, hmid, hdeliver, deletion_undone SerdeJson.roundTrip_bool rfl hr hgone hmid hpost
    (noInsert_replyToDeletion net₁) hnext hdeliver⟩

/-- A deleted node is back after the next request. -/
theorem deletion_lost : ¬ ∀ (net₀ net₁ net₂ net₃ net₄ : Net Bool) (es mid post : List (HandlerEvent Bool))
    (i : SignerId) (op : PersistOp Bool) (k : String) (id : CallId) (requestId : UInt32) (raw : Bytes),
    net₀.Initial → Run (handlerStep SerdeJson.bool (· ++ ·)) net₀ (es ++ [.persist i op]) net₁ →
    (net₁.signers i).get? k = none → Run (handlerStep SerdeJson.bool (· ++ ·)) net₁ mid net₂ →
    .net (.reply i id requestId raw) ∈ mid → .net (.plugin (.merge id)) ∈ mid →
    Run (handlerStep SerdeJson.bool (· ++ ·)) net₂ (.net (.send i) :: post) net₃ →
    AllSteps (handlerStep SerdeJson.bool (· ++ ·)) (NoInsert (· ++ ·) i k) net₁ (mid ++ .net (.send i) :: post) →
    (net₃.requests i).head? = some (net₂.plugin.signerState.toEntries SerdeJson.bool) →
    net₃.step SerdeJson.bool (.deliver i) = some net₄ → (net₄.signers i).get? k = none := by
  intro hall
  obtain ⟨net₁, net₂, net₃, net₄, hr, hgone, hmid, hpost, hnext, hdeliver, hback⟩ := run_deletion
  have hnone := hall (attached registered) net₁ net₂ net₃ net₄ [] replyToDeletion [] 0 _ "nodes/ab" 0 1000 []
    (initial_attached registered) hr hgone hmid (by simp [replyToDeletion])
    (by simp [replyToDeletion, PluginNodeServer.beforeRespond]) hpost (noInsert_replyToDeletion net₁) hnext
    hdeliver
  rw [hback] at hnone
  cases hnone

end Net

end Greenlight.Plugin
