import Greenlight.Plugin.Respond

/-!
# Durability of the signer state

`Inv` is what the two locks give.  A call that has merged is the only one to change the signer state, so the
state stays the result of its merge, and a call that has written still finds its write in the store.  Hence a
response is handed to the stage only after the store has all of its versions or higher ones (`respond_durable`).
-/

namespace Greenlight.Plugin.PluginNodeServer

open Greenlight.Lib Greenlight.Persist

variable {Value : Type} {json : SerdeJson Value} {p p' : PluginNodeServer Value} {e : Event} {id : CallId}

/-! ### The invariant -/

/-- What holds of one call. -/
structure CallOk (json : SerdeJson Value) (p : PluginNodeServer Value) (id : CallId) (c : Call Value) :
    Prop where
  decoded : ∀ new, c.phase.decoded? = some new → State.ofEntries json c.response.signerState = some new
  stateLock : c.phase.HoldsState → p.stateLock = some id
  storeLock : c.phase.HoldsStore → p.storeLock = some id
  merged : ∀ new, c.phase.merged? = some new → ∃ q, p.signerState = (State.merge q new).1
  written : ∀ new, c.phase.written? = some new → p.stored = p.signerState

def Inv (json : SerdeJson Value) (p : PluginNodeServer Value) : Prop :=
  ∀ id c, p.calls id = some c → CallOk json p id c

/-- No call is running. -/
def Initial (p : PluginNodeServer Value) : Prop :=
  (∀ id, p.calls id = none) ∧ p.stateLock = none ∧ p.storeLock = none

theorem Initial.inv (h : p.Initial) : Inv json p := fun id c hc => by
  rw [h.1 id] at hc
  cases hc

/-! ### What a step preserves -/

/-- A step of the call `id` leaves alone what another call holds. -/
structure Frame (p p' : PluginNodeServer Value) (id : CallId) : Prop where
  state : ∀ i, i ≠ id → p.stateLock = some i → p'.stateLock = some i ∧ p'.signerState = p.signerState
  store : ∀ i, i ≠ id → p.storeLock = some i → p'.storeLock = some i ∧ p'.stored = p.stored

theorem CallOk.frame {i : CallId} {c : Call Value} (h : CallOk json p i c) (hf : Frame p p' id)
    (hi : i ≠ id) : CallOk json p' i c where
  decoded := h.decoded
  stateLock hs := (hf.state i hi (h.stateLock hs)).1
  storeLock hs := (hf.store i hi (h.storeLock hs)).1
  merged new hm := by
    rw [(hf.state i hi (h.stateLock (Phase.holdsState_of_merged? hm))).2]
    exact h.merged new hm
  written new hw := by
    have hheld := h.stateLock (Phase.holdsState_of_merged? (Phase.merged?_of_written? hw))
    rw [(hf.state i hi hheld).2, (hf.store i hi (h.storeLock (Phase.holdsStore_of_written? hw))).2]
    exact h.written new hw

theorem frame_setCall (p : PluginNodeServer Value) (id : CallId) (response : HsmResponse)
    (phase : Phase Value) : Frame p (p.setCall id response phase) id where
  state _ _ h := ⟨h, rfl⟩
  store _ _ h := ⟨h, rfl⟩

theorem frame_finish (p : PluginNodeServer Value) (id : CallId) (response : HsmResponse) (handed : Bool) :
    Frame p (p.finish id response handed) id where
  state i hi h := ⟨by simp [finish, h, hi], rfl⟩
  store i hi h := ⟨by simp [finish, h, hi], rfl⟩

/-- The step `e` is one of the call `id`, of which `c` is the record after it. -/
structure Acts (json : SerdeJson Value) (p : PluginNodeServer Value) (e : Event) (p' : PluginNodeServer Value)
    (id : CallId) (c : Call Value) : Prop where
  calls : p'.calls = Function.update p.calls id (some c)
  frame : Frame p p' id
  ok : CallOk json p' id c
  /-- What the call has merged it merges now, or it has before and the signer state is as it was. -/
  merged : ∀ new, c.phase.merged? = some new →
    (e = .merge id ∧ p.calls id = some ⟨c.response, .locked new⟩ ∧
        p'.signerState = (p.signerState.merge new).1) ∨
      (p'.signerState = p.signerState ∧ ∃ c₀, p.calls id = some c₀ ∧ c₀.phase.merged? = some new)

theorem acts_finish (p : PluginNodeServer Value) (e : Event) (id : CallId) (response : HsmResponse)
    (handed : Bool) : Acts json p e (p.finish id response handed) id ⟨response, .finished handed⟩ where
  calls := rfl
  frame := frame_finish p id response handed
  ok := ⟨nofun, nofun, nofun, nofun, nofun⟩
  merged := nofun

theorem step_acts (hinv : Inv json p) (h : p.step json e = some p') : ∃ id c, Acts json p e p' id c := by
  cases step_outcome h with
  | call hid => exact ⟨_, _, rfl, frame_setCall _ _ _ _, ⟨nofun, nofun, nofun, nofun, nofun⟩, nofun⟩
  | reject hid => exact ⟨_, _, acts_finish _ _ _ _ _⟩
  | decode hid hnew =>
    refine ⟨_, _, rfl, frame_setCall _ _ _ _, ⟨?_, nofun, nofun, nofun, nofun⟩, nofun⟩
    rintro _ ⟨⟩
    exact hnew
  | lockState hid hfree =>
    have hok := hinv _ _ hid
    refine ⟨_, _, rfl, ⟨fun i _ h => ?_, fun i _ h => ⟨h, rfl⟩⟩,
      ⟨hok.decoded, fun _ => rfl, nofun, nofun, nofun⟩, nofun⟩
    rw [hfree] at h
    cases h
  | @merge id response new hid =>
    have hok := hinv _ _ hid
    have hmine := hok.stateLock trivial
    refine ⟨_, _, rfl, ⟨fun i hi h => ?_, fun i _ h => ⟨h, rfl⟩⟩,
      ⟨hok.decoded, fun _ => hmine, nofun, ?_, nofun⟩, ?_⟩
    · rw [hmine] at h
      exact absurd (Option.some.inj h).symm hi
    · rintro _ ⟨⟩
      exact ⟨p.signerState, rfl⟩
    · rintro _ ⟨⟩
      exact Or.inl ⟨rfl, hid, rfl⟩
  | lockStore hid hfree =>
    have hok := hinv _ _ hid
    refine ⟨_, _, rfl, ⟨fun i _ h => ⟨h, rfl⟩, fun i _ h => ?_⟩,
      ⟨hok.decoded, fun _ => hok.stateLock trivial, fun _ => rfl, hok.merged, nofun⟩,
      fun _ hm => Or.inr ⟨rfl, _, hid, hm⟩⟩
    rw [hfree] at h
    cases h
  | write hid =>
    have hok := hinv _ _ hid
    have hmine := hok.storeLock trivial
    refine ⟨_, _, rfl, ⟨fun i _ h => ⟨h, rfl⟩, fun i hi h => ?_⟩,
      ⟨hok.decoded, fun _ => hok.stateLock trivial, fun _ => hmine, hok.merged, fun _ _ => rfl⟩,
      fun _ hm => Or.inr ⟨rfl, _, hid, hm⟩⟩
    rw [hmine] at h
    exact absurd (Option.some.inj h).symm hi
  | writeFailed hid => exact ⟨_, _, acts_finish _ _ _ _ _⟩
  | respond hid => exact ⟨_, _, acts_finish _ _ _ _ _⟩
  | drop hid _ => exact ⟨_, _, acts_finish _ _ _ _ _⟩

theorem inv_step (hinv : Inv json p) (h : p.step json e = some p') : Inv json p' := by
  obtain ⟨id, c, hacts⟩ := step_acts hinv h
  intro i c' hi
  rw [hacts.calls] at hi
  by_cases hne : i = id
  · subst hne
    obtain rfl : c = c' := by simpa using hi
    exact hacts.ok
  · rw [Function.update_of_ne hne] at hi
    exact (hinv i c' hi).frame hacts.frame hne

theorem merged_step (hinv : Inv json p) (h : p.step json e = some p') {c' : Call Value} {new : State Value}
    (hid : p'.calls id = some c') (hm : c'.phase.merged? = some new) :
    (e = .merge id ∧ p.calls id = some ⟨c'.response, .locked new⟩ ∧
        p'.signerState = (p.signerState.merge new).1) ∨
      (p'.signerState = p.signerState ∧ ∃ c, p.calls id = some c ∧ c.phase.merged? = some new) := by
  obtain ⟨i, c, hacts⟩ := step_acts hinv h
  rw [hacts.calls] at hid
  by_cases hne : id = i
  · subst hne
    obtain rfl : c = c' := by simpa using hid
    exact hacts.merged new hm
  · rw [Function.update_of_ne hne] at hid
    have hheld := (hinv id c' hid).stateLock (Phase.holdsState_of_merged? hm)
    exact Or.inr ⟨(hacts.frame.state id hne hheld).2, c', hid, hm⟩

theorem inv_run {es : List Event} (hinv : Inv json p) (hr : Run (step json) p es p') : Inv json p' :=
  hr.invariant inv_step hinv

/-! ### The hand-over -/

def Ended (id : CallId) (p : PluginNodeServer Value) : Prop :=
  ∃ response handed, p.calls id = some ⟨response, .finished handed⟩

theorem ended_finish (p : PluginNodeServer Value) (id : CallId) (response : HsmResponse) (handed : Bool) :
    Ended id (p.finish id response handed) :=
  ⟨response, handed, by simp [finish, setCall]⟩

theorem Ended.step (hend : Ended id p) (h : p.step json e = some p') : Ended id p' := by
  obtain ⟨response, handed, hid⟩ := hend
  obtain ⟨i, c, hcalls, hnot⟩ := step_calls h
  refine ⟨response, handed, ?_⟩
  have hi : id ≠ i := by
    rintro rfl
    exact hnot _ hid trivial
  rw [hcalls, Function.update_of_ne hi, hid]

theorem Ended.write_eq_none (hend : Ended id p) (ok : Bool) : p.step json (.write id ok) = none := by
  obtain ⟨response, handed, hid⟩ := hend
  simp [PluginNodeServer.step, hid]

theorem Ended.respond_eq_none (hend : Ended id p) : p.step json (.respond id) = none := by
  obtain ⟨response, handed, hid⟩ := hend
  simp [PluginNodeServer.step, hid]

/-- The store has, for every key of the entries, an entry of at least the version they give it; of several
entries of one key the last one counts, as in the conversion to a `State`. -/
def StoredAtLeast (stored : State Value) (entries : List SignerStateEntry) : Prop :=
  ∀ pre entry post, entries = pre ++ entry :: post → (∀ f ∈ post, f.key ≠ entry.key) →
    ∃ v, stored.get? entry.key = some v ∧ entry.version ≤ v.1

/-- A call that is about to hand its response over finds its own write in the store. -/
theorem Inv.storedAtLeast (hinv : Inv json p) {response : HsmResponse} {new : State Value}
    (hid : p.calls id = some ⟨response, .written new⟩) : StoredAtLeast p.stored response.signerState := by
  have hok := hinv _ _ hid
  intro pre entry post hsplit hlast
  have hdec := hok.decoded new rfl
  rw [hsplit] at hdec
  obtain ⟨v, -, hv⟩ := State.get?_ofEntries hdec hlast
  obtain ⟨q, hq⟩ := hok.merged new rfl
  obtain ⟨w, hw, hle⟩ := State.atLeast_merge q new entry.key _ hv
  rw [hok.written new rfl, hq]
  exact ⟨w, hw, hle⟩

/-- **A response is handed over after its state is stored.**  At every hand-over the last state written has
every key of the response at least as new, and a call whose write failed never hands its response over. -/
theorem respond_durable {p₀ : PluginNodeServer Value} {es : List Event} (h₀ : p₀.Initial)
    (hr : Run (step json) p₀ es p) (id : CallId) :
    (∀ p', p.step json (.respond id) = some p' →
      ∃ c, p.calls id = some c ∧ StoredAtLeast p.stored c.response.signerState) ∧
    (.write id false ∈ es → .respond id ∉ es) := by
  have hinv : Inv json p := inv_run h₀.inv hr
  constructor
  · intro p' h
    cases step_outcome h with
    | respond hid => exact ⟨_, hid, hinv.storedAtLeast hid⟩
  · refine hr.not_mem_of_mem Ended.step (fun q q' h => ?_) (fun q q' h => ?_)
      (fun q hq => hq.write_eq_none false) (fun q hq => hq.respond_eq_none) (by simp)
    · cases step_outcome h with
      | writeFailed hid => exact ended_finish q _ _ _
    · cases step_outcome h with
      | respond hid => exact ended_finish q _ _ _

/-- The pieces of a call up to the hand-over of its response. -/
def beforeRespond (id : CallId) : List Event :=
  [.decode id, .lockState id, .merge id, .lockStore id, .write id true]

/-- A server that no call has reached yet. -/
def idle (signerState : State Value) : PluginNodeServer Value where
  signerState := signerState
  stored := signerState
  stateLock := none
  storeLock := none
  calls := fun _ => none

theorem initial_idle (signerState : State Value) : (idle signerState).Initial :=
  ⟨fun _ => rfl, rfl, rfl⟩

/-- Two calls side by side, up to the hand-over of the second one; the write of the first one fails. -/
def failedWrite : List Event :=
  [.call 0 ⟨1000, [], [⟨7, "nodestates/a", SerdeJson.bool.toVec true⟩], ""⟩,
    .call 1 ⟨1001, [], [⟨6, "nodestates/a", SerdeJson.bool.toVec false⟩,
      ⟨2, "nodestates/b", SerdeJson.bool.toVec false⟩], ""⟩,
    .decode 1, .decode 0, .lockState 0, .merge 0, .lockStore 0, .write 0 false, .lockState 1, .merge 1, .lockStore 1,
    .write 1 true]

theorem respond_durable_failedWrite :
    ∃ p p' : PluginNodeServer Bool, Run (step SerdeJson.bool) (idle .new) failedWrite p ∧
      p.step SerdeJson.bool (.respond 1) = some p' ∧
      (∃ c, p.calls 1 = some c ∧ StoredAtLeast p.stored c.response.signerState) ∧
      .respond 0 ∉ failedWrite ++ [.respond 1] := by
  obtain ⟨p', hrun⟩ : ∃ p', Run (step SerdeJson.bool) (idle .new) (failedWrite ++ [Event.respond 1]) p' :=
    ⟨_, rfl⟩
  obtain ⟨p, hp, hstep⟩ := run_concat.1 hrun
  exact ⟨p, p', hp, hstep, (respond_durable (initial_idle _) hp 1).1 p' hstep,
    (respond_durable (initial_idle _) hrun 0).2 (by simp [failedWrite])⟩

end Greenlight.Plugin.PluginNodeServer
