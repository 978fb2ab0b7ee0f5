import Mathlib.Data.List.Sort
import Greenlight.Persist.Channels

/-!
# The channels of different nodes

What `get_node_channels` lists of a node after any run of calls is what the calls have stored for it: the channels
that were created, each with the entry of the last call that stored one.  A call for another node does not show
(`channels_isolated`).  Two calls are left out, `delete_channel` and `clear_database`.
-/

namespace Greenlight.Persist

open Greenlight.Lib

variable {Value : Type} {M : ChannelModel Value}

/-- The entry that was stored last for a channel. -/
def lastEntry (calls : List (PersistCall M)) (n : NodeId) (c : Bytes) : Option M.Entry :=
  calls.reverse.findSome? (PersistCall.entryFor n c)

/-- The channel was created with `new_channel`. -/
def Created (calls : List (PersistCall M)) (n : NodeId) (c : Bytes) : Prop :=
  ∃ stub, .newChannel n stub ∈ calls ∧ stub.id0 = c

/-- The calls that drop channels. -/
def PersistCall.DropsChannels : PersistCall M → Prop
  | .deleteChannel _ _ | .clearDatabase => True
  | _ => False

variable {calls : List (PersistCall M)} {call : PersistCall M} {s s' : State Value}

theorem lastEntry_concat (n : NodeId) (c : Bytes) :
    lastEntry (calls ++ [call]) n c = (call.entryFor n c).or (lastEntry calls n c) := by
  rw [lastEntry, List.reverse_concat, List.findSome?_cons, lastEntry]
  cases call.entryFor n c <;> rfl

theorem isSome_lastEntry_of_created {n : NodeId} {c : Bytes} (h : Created calls n c) :
    (lastEntry calls n c).isSome := by
  obtain ⟨stub, hmem, rfl⟩ := h
  rw [lastEntry, List.findSome?_isSome_iff]
  exact ⟨_, List.mem_reverse.2 hmem, by simp [PersistCall.entryFor]⟩

/-! ### Runs of calls -/

theorem PersistCall.entryFor_isSome {n : NodeId} {c : Bytes} (h : call.step s = some s')
    (hentry : (call.entryFor n c).isSome) :
    (∃ stub, call = .newChannel n stub ∧ stub.id0 = c) ∨ (s.get? (M.channelKey n c)).isSome := by
  cases call with
  | newChannel n' stub =>
    by_cases hkey : n' = n ∧ stub.id0 = c
    · obtain ⟨rfl, rfl⟩ := hkey
      exact Or.inl ⟨stub, rfl, rfl⟩
    · simp [entryFor, hkey] at hentry
  | updateChannel n' channel =>
    by_cases hkey : n' = n ∧ channel.id0 = c
    · obtain ⟨rfl, rfl⟩ := hkey
      obtain ⟨v, hv, -⟩ := State.bump_eq_some h
      exact Or.inr (Option.isSome_of_eq_some hv)
    · simp [entryFor, hkey] at hentry
  | _ => cases hentry

/-- What a run leaves of a channel: the entry that was stored last, if the channel was created. -/
structure Stored (M : ChannelModel Value) (calls : List (PersistCall M)) (s : State Value) : Prop where
  value : ∀ n c, (s.get? (M.channelKey n c)).map (·.2) = (lastEntry calls n c).map M.toValue
  created : ∀ n c, (lastEntry calls n c).isSome → Created calls n c

theorem stored_run (hM : M.Layout) (hkeep : ∀ call ∈ calls, ¬ call.DropsChannels)
    (hr : Run PersistCall.step .new calls s) : Stored M calls s := by
  refine Run.induction (motive := fun calls s => (∀ call ∈ calls, ¬ call.DropsChannels) → Stored M calls s)
    hr ?_ ?_ hkeep
  · intro _
    exact ⟨fun n c => by simp [lastEntry], fun n c h => by simp [lastEntry] at h⟩
  · intro calls s call s' _ ih hstep hkeep
    have hs := ih fun call hmem => hkeep call (List.mem_append_left _ hmem)
    have hclear : call ≠ .clearDatabase := by
      rintro rfl
      exact hkeep .clearDatabase (by simp) trivial
    refine ⟨fun n c => ?_, fun n c h => ?_⟩
    · rw [PersistCall.get?_channelKey hM hstep hclear, lastEntry_concat]
      cases call.entryFor n c with
      | none => simpa using hs.value n c
      | some entry => rfl
    · have hold : (lastEntry calls n c).isSome → Created (calls ++ [call]) n c := by
        intro hold
        obtain ⟨stub, hmem, hid⟩ := hs.created n c hold
        exact ⟨stub, List.mem_append_left _ hmem, hid⟩
      rw [lastEntry_concat, Option.isSome_or, Bool.or_eq_true] at h
      rcases h with hentry | hlast
      · rcases PersistCall.entryFor_isSome hstep hentry with ⟨stub, rfl, hid⟩ | hex
        · exact ⟨stub, List.mem_append_right _ (List.mem_singleton_self _), hid⟩
        · apply hold
          have hvalue := congrArg Option.isSome (hs.value n c)
          rw [Option.isSome_map, Option.isSome_map] at hvalue
          exact hvalue ▸ hex
      · exact hold hlast

theorem reachableBy_run (hr : Run PersistCall.step .new calls s) : ReachableBy M s :=
  hr.invariant (I := ReachableBy M) (fun hs h => .call _ hs h) .new

theorem getChannel_run (hM : M.Layout) (hjson : M.RoundTrip) (hkeep : ∀ call ∈ calls, ¬ call.DropsChannels)
    (hr : Run PersistCall.step .new calls s) (n : NodeId) (c : Bytes) :
    s.getChannel M (hexEncode (M.nodeChannelId n.1 c)) = (lastEntry calls n c).map M.into := by
  have hvalue := (stored_run hM hkeep hr).value n c
  rw [ChannelModel.channelKey] at hvalue
  unfold State.getChannel
  cases hlast : lastEntry calls n c with
  | none =>
    rw [hlast, Option.map_none, Option.map_eq_none_iff] at hvalue
    rw [hvalue]
    rfl
  | some entry =>
    rw [hlast, Option.map_some, Option.map_eq_some_iff] at hvalue
    obtain ⟨v, hv, hentry⟩ := hvalue
    rw [hv]
    simp only [Option.bind_eq_bind, Option.bind_some, hentry, hjson entry, Option.pure_def, Option.map_some]

/-! ### Isolation -/

theorem PersistCall.get?_of_ne (hM : M.Layout) {m n : NodeId} (hnode : call.node? = some m) (hne : m ≠ n)
    (h : call.step s = some s') (c : Bytes) : s'.get? (M.channelKey n c) = s.get? (M.channelKey n c) := by
  have hclear : call ≠ .clearDatabase := by
    rintro rfl
    cases hnode
  have hentry : call.entryFor n c = none := by
    cases call with
    | newChannel n' stub =>
      obtain rfl := Option.some.inj hnode
      exact if_neg fun hkey => hne hkey.1
    | updateChannel n' channel =>
      obtain rfl := Option.some.inj hnode
      exact if_neg fun hkey => hne hkey.1
    | _ => rfl
  rw [get?_channelKey hM h hclear, hentry]

theorem getNodeChannels_of_ne (hM : M.Layout) (hjson : M.RoundTrip) (hs : s.ChannelsKept M) {m n : NodeId}
    (hnode : call.node? = some m) (hne : m ≠ n) (h : call.step s = some s') :
    s'.getNodeChannels M n.1 = s.getNodeChannels M n.1 := by
  obtain ⟨l, hl, hsorted, hmem⟩ := hs.getNodeChannels hM hjson n
  obtain ⟨l', hl', hsorted', hmem'⟩ := (channelsKept_step hM hs h).getNodeChannels hM hjson n
  have hsame : ∀ p, p ∈ l' ↔ p ∈ l := by
    rintro ⟨c, e⟩
    rw [hmem, hmem', call.get?_of_ne hM hnode hne h]
  let before := fun p q : Bytes × M.CoreChannelEntry => compare (M.channelKey n p.1) (M.channelKey n q.1) = .lt
  have hirrefl : Std.Irrefl before := ⟨fun p => by simp [before]⟩
  have hantisymm : Std.Antisymm before := ⟨fun p q hpq hqp => absurd hqp (Std.OrientedCmp.not_lt_of_lt hpq)⟩
  rw [hl, hl', hsorted'.eq_of_mem_iff hsorted hsame]

/-- **The channels of a node are its own.**  After every run of calls without `delete_channel` and `clear_database`,
the listing of a node has the channels that were created for it, each one once, in the order of their keys and with
the entry that was stored last; and a call for another node does not change it. -/
theorem channels_isolated (hM : M.Layout) (hjson : M.RoundTrip) (hkeep : ∀ call ∈ calls, ¬ call.DropsChannels)
    (hr : Run PersistCall.step .new calls s) (n : NodeId) :
    (∃ l, s.getNodeChannels M n.1 = some l ∧
      l.Pairwise (fun p q => compare (M.channelKey n p.1) (M.channelKey n q.1) = .lt) ∧
      (∀ c, (∃ e, (c, e) ∈ l) ↔ Created calls n c) ∧
      ∀ c e, (c, e) ∈ l → ∃ entry, lastEntry calls n c = some entry ∧ e = M.into entry) ∧
      ∀ (m : NodeId) (call : PersistCall M) (s' : State Value), call.node? = some m → m ≠ n →
        call.step s = some s' → s'.getNodeChannels M n.1 = s.getNodeChannels M n.1 := by
  have hkept := channelsKept_of_reachable hM (reachableBy_run hr)
  have hstored := stored_run hM hkeep hr
  obtain ⟨l, hl, hsorted, hmem⟩ := hkept.getNodeChannels hM hjson n
  refine ⟨⟨l, hl, hsorted, fun c => ⟨?_, fun hcreated => ?_⟩, fun c e h => ?_⟩,
    fun m call s' hnode hne h => getNodeChannels_of_ne hM hjson hkept hnode hne h⟩
  · rintro ⟨e, h⟩
    obtain ⟨version, entry, hget, -⟩ := (hmem c e).1 h
    have hvalue := hstored.value n c
    rw [hget] at hvalue
    exact hstored.created n c (by simpa using congrArg Option.isSome hvalue.symm)
  · obtain ⟨entry, hlast⟩ := Option.isSome_iff_exists.1 (isSome_lastEntry_of_created hcreated)
    have hvalue := hstored.value n c
    rw [hlast, Option.map_some, Option.map_eq_some_iff] at hvalue
    obtain ⟨v, hget, hv⟩ := hvalue
    exact ⟨M.into entry, (hmem c _).2 ⟨v.1, entry, by rw [hget, ← hv], rfl⟩⟩
  · obtain ⟨version, entry, hget, rfl⟩ := (hmem c e).1 h
    have hvalue := hstored.value n c
    rw [hget] at hvalue
    obtain ⟨entry', hlast, hsame⟩ := Option.map_eq_some_iff.1 hvalue.symm
    -- two entries with one value in the table are the same, since a value is read back
    have hread := congrArg M.fromValue hsame
    rw [hjson, hjson, Option.some.injEq] at hread
    exact ⟨entry', hlast, congrArg M.into hread.symm⟩

/-- Two nodes that both have a channel of the id `[7]`. -/
def twoNodes : List (PersistCall plainChannels) :=
  [.newChannel (plainNode 2) ⟨[7], 100⟩, .newChannel (plainNode 3) ⟨[7], 200⟩]

theorem run_twoNodes : ∃ s, Run PersistCall.step .new twoNodes s := by
  obtain ⟨s₁, hs₁⟩ := Option.isSome_iff_exists.1
    ((isSome_newChannel_iff (M := plainChannels) .new (plainNode 2) ⟨[7], 100⟩).2 (State.get?_new _))
  have hfree : s₁.get? (plainChannels.channelKey (plainNode 3) [7]) = none := by
    rw [PersistCall.get?_of_ne layout_plainChannels (m := plainNode 2) rfl (by decide) hs₁, State.get?_new]
  obtain ⟨s₂, hs₂⟩ := Option.isSome_iff_exists.1
    ((isSome_newChannel_iff (M := plainChannels) s₁ (plainNode 3) ⟨[7], 200⟩).2 hfree)
  exact ⟨s₂, run_cons.2 ⟨s₁, hs₁, run_singleton.2 hs₂⟩⟩

theorem channels_isolated_twoNodes : ∃ s, Run PersistCall.step .new twoNodes s ∧
    (∃ l, s.getNodeChannels plainChannels (plainNode 2).1 = some l ∧
      l.Pairwise (fun p q => compare (plainChannels.channelKey (plainNode 2) p.1)
        (plainChannels.channelKey (plainNode 2) q.1) = .lt) ∧
      (∀ c, (∃ e, (c, e) ∈ l) ↔ Created twoNodes (plainNode 2) c) ∧
      ∀ c e, (c, e) ∈ l → ∃ entry, lastEntry twoNodes (plainNode 2) c = some entry ∧
        e = plainChannels.into entry) := by
  obtain ⟨s, hr⟩ := run_twoNodes
  refine ⟨s, hr, (channels_isolated layout_plainChannels roundTrip_plainChannels ?_ hr (plainNode 2)).1⟩
  simp [twoNodes, PersistCall.DropsChannels]

end Greenlight.Persist
