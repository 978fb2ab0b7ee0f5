import Greenlight.Persist.Channels

/-!
# Deleting channels and nodes

`delete_channel` removes the id of the channel and not `channels/` with the id, the key that every other operation
makes; no state that signers reach has such a key, so nothing is deleted (`deleteChannel_eq_self`).  `delete_node`
removes the two records of the node, and leaves its allowlist, its tracker and its channels.  Each of the two does
what it is for exactly if there is nothing of the kind that it misses.
-/

namespace Greenlight.Persist

open Greenlight.Lib

variable {Value : Type} {M : ChannelModel Value} {s : State Value}

/-! ### Channels -/

/-- What is left when a channel was deleted: it is not listed any more, it can be created anew, and everything else is
as it was. -/
structure ChannelDeleted (M : ChannelModel Value) (n : NodeId) (c : Bytes) (s s' : State Value) : Prop where
  unlisted : ∃ l, s'.getNodeChannels M n.1 = some l ∧ ∀ p ∈ l, p.1 ≠ c
  renewable : ∀ stub : ChannelStub, stub.id0 = c →
    (PersistCall.step s' (.newChannel (M := M) n stub)).isSome
  others : ∀ k, k ≠ M.channelKey n c → s'.get? k = s.get? k

/-- An id in hex is no key, so its removal changes nothing. -/
theorem deleteChannel_eq_self (hs : s.WellKept) (id : Bytes) : s.deleteChannel (hexEncode id) = s := by
  have hnone : s.get? (hexEncode id) = none := by
    by_contra hsome
    obtain ⟨table, htable, b, hkey⟩ := hs.keys _ (Option.isSome_iff_ne_none.2 hsome)
    have hslash : '/' ∈ (hexEncode id).toList := by
      have htableSlash : '/' ∈ table.toList := by
        simp only [tables, List.mem_cons, List.not_mem_nil, or_false] at htable
        rcases htable with rfl | rfl | rfl | rfl | rfl <;> decide
      simp [hkey, htableSlash]
    exact absurd (hexEncode_isAlphanum id '/' hslash) (by decide)
  apply State.ext_get?
  intro k
  rw [State.deleteChannel, State.get?_remove]
  split_ifs with hk
  · rw [← hk, hnone]
  · rfl

/-- **`delete_channel` deletes a channel exactly if there is none.** -/
theorem deleteChannel_iff (hM : M.Layout) (hjson : M.RoundTrip) (h : ReachableBy M s) (n : NodeId) (c : Bytes) :
    ChannelDeleted M n c s (s.deleteChannel (hexEncode (M.nodeChannelId n.1 c))) ↔
      s.get? (M.channelKey n c) = none := by
  have hself : s.deleteChannel (hexEncode (M.nodeChannelId n.1 c)) = s :=
    deleteChannel_eq_self (wellKept_of_reachable h.reachable) _
  rw [hself]
  constructor
  · intro hdeleted
    exact (isSome_newChannel_iff s n ⟨c, 0⟩).1 (hdeleted.renewable ⟨c, 0⟩ rfl)
  · intro hnone
    obtain ⟨l, hl, -, hmem⟩ := (channelsKept_of_reachable hM h).getNodeChannels hM hjson n
    refine ⟨⟨l, hl, ?_⟩, ?_, fun k _ => rfl⟩
    · rintro ⟨c', e⟩ hp rfl
      obtain ⟨version, entry, hget, -⟩ := (hmem _ e).1 hp
      cases hnone.symm.trans hget
    · rintro stub rfl
      exact (isSome_newChannel_iff s n stub).2 hnone

/-- With one channel that was created, a channel is deleted exactly if it is not that one. -/
theorem deleteChannel_iff_created : ∃ s,
    PersistCall.step .new (.newChannel (M := plainChannels) (plainNode 2) ⟨[7], 100⟩) = some s ∧
      ∀ c, ChannelDeleted plainChannels (plainNode 2) c s
          (s.deleteChannel (hexEncode (plainChannels.nodeChannelId (plainNode 2).1 c))) ↔ c ≠ [7] := by
  obtain ⟨s, hstep⟩ := Option.isSome_iff_exists.1 ((isSome_newChannel_iff _ (plainNode 2) ⟨[7], 100⟩).2
    (State.get?_new (plainChannels.channelKey (plainNode 2) [7])))
  refine ⟨s, hstep, fun c => ?_⟩
  rw [deleteChannel_iff layout_plainChannels roundTrip_plainChannels (.call _ .new hstep) (plainNode 2) c,
    PersistCall.get?_channelKey layout_plainChannels hstep nofun, PersistCall.entryFor]
  by_cases hc : c = [7]
  · subst hc
    simp
  · rw [if_neg fun h => hc h.2.symm]
    exact iff_of_true (State.get?_new _) hc

theorem deleteChannel_keeps : ¬ ∀ s : State (Option (ChannelEntry Unit Unit)), ReachableBy plainChannels s →
    ∀ (n : NodeId) (c : Bytes),
      ChannelDeleted plainChannels n c s (s.deleteChannel (hexEncode (plainChannels.nodeChannelId n.1 c))) := by
  intro hall
  obtain ⟨s, hstep⟩ := Option.isSome_iff_exists.1 ((isSome_newChannel_iff _ (plainNode 2) ⟨[7], 100⟩).2
    (State.get?_new (plainChannels.channelKey (plainNode 2) [7])))
  have hreach : ReachableBy plainChannels s := .call _ .new hstep
  have hnone := (deleteChannel_iff layout_plainChannels roundTrip_plainChannels hreach (plainNode 2) [7]).1
    (hall s hreach (plainNode 2) [7])
  rw [PersistCall.get?_channelKey layout_plainChannels hstep nofun, PersistCall.entryFor, if_pos ⟨rfl, rfl⟩] at hnone
  cases hnone

/-! ### Nodes -/

def BelongsTo (M : ChannelModel Value) (n : NodeId) (k : String) : Prop :=
  k = "nodes/" ++ hexEncode n.1 ∨ k = "nodestates/" ++ hexEncode n.1 ∨ k = "allowlists/" ++ hexEncode n.1 ∨
    k = "trackers/" ++ hexEncode n.1 ∨ ∃ c, k = M.channelKey n c

/-- What is left when a node was deleted: nothing of it, everything of the others, and room for the node with its
tracker and a channel. -/
structure NodeDeleted (M : ChannelModel Value) (n : NodeId) (s s' : State Value) : Prop where
  gone : ∀ k, BelongsTo M n k → s'.get? k = none
  others : ∀ k, ¬ BelongsTo M n k → s'.get? k = s.get? k
  renewable : ∀ (nodeEntry nodeStateEntry tracker : Value) (stub : ChannelStub), ∃ t,
    Run PersistCall.step s' [.newNode (M := M) n nodeEntry nodeStateEntry, .newTracker n tracker,
      .newChannel n stub] t

theorem get?_deleteNode (n : NodeId) (k : String) : (s.deleteNode (hexEncode n.1)).get? k =
    if k = "nodes/" ++ hexEncode n.1 ∨ k = "nodestates/" ++ hexEncode n.1 then none else s.get? k := by
  rw [State.deleteNode, State.get?_remove, State.get?_remove]
  by_cases hnode : k = "nodes/" ++ hexEncode n.1
  · simp [hnode]
  · by_cases hstate : k = "nodestates/" ++ hexEncode n.1
    · simp [hstate]
    · simp [hnode, hstate, Ne.symm hnode, Ne.symm hstate]

theorem renewable_of_gone {n : NodeId} (hgone : ∀ k, BelongsTo M n k → s.get? k = none)
    (nodeEntry nodeStateEntry tracker : Value) (stub : ChannelStub) : ∃ t,
    Run PersistCall.step s [.newNode (M := M) n nodeEntry nodeStateEntry, .newTracker n tracker,
      .newChannel n stub] t := by
  have hnode : s.get? ("nodes/" ++ hexEncode n.1) = none := hgone _ (Or.inl rfl)
  have hstate : s.get? ("nodestates/" ++ hexEncode n.1) = none := hgone _ (Or.inr (Or.inl rfl))
  have htracker : s.get? ("trackers/" ++ hexEncode n.1) = none :=
    hgone _ (Or.inr (Or.inr (Or.inr (Or.inl rfl))))
  have hchannel : s.get? (M.channelKey n stub.id0) = none :=
    hgone _ (Or.inr (Or.inr (Or.inr (Or.inr ⟨_, rfl⟩))))
  obtain ⟨s₁, hs₁⟩ : ∃ s₁, PersistCall.step s (.newNode (M := M) n nodeEntry nodeStateEntry) = some s₁ := by
    simp [PersistCall.step, PersistCall.toOp, PersistOp.apply, State.insertNode, hnode, hstate]
  have hframe₁ : ∀ k, k ≠ "nodes/" ++ hexEncode n.1 → k ≠ "nodestates/" ++ hexEncode n.1 →
      s₁.get? k = s.get? k := by
    intro k h1 h2
    refine PersistOp.get?_of_not_touched hs₁ (by simp [PersistCall.toOp]) ?_
    simp [PersistCall.toOp, PersistOp.touched, h1, h2]
  obtain ⟨s₂, hs₂⟩ : ∃ s₂, PersistCall.step s₁ (.newTracker (M := M) n tracker) = some s₂ := by
    have hnone : s₁.get? ("trackers/" ++ hexEncode n.1) = none := by
      rw [hframe₁ _ (by simp [String.ext_iff]) (by simp [String.ext_iff]), htracker]
    simp [PersistCall.step, PersistCall.toOp, PersistOp.apply, State.newChainTracker, hnone]
  obtain ⟨s₃, hs₃⟩ : ∃ s₃, PersistCall.step s₂ (.newChannel (M := M) n stub) = some s₃ := by
    rw [← Option.isSome_iff_exists, isSome_newChannel_iff]
    have hkey : M.channelKey n stub.id0 ∉ PersistOp.touched M.nodeChannelId (.newTracker n.1 tracker) := by
      simp [PersistOp.touched, ChannelModel.channelKey, String.ext_iff]
    rw [PersistOp.get?_of_not_touched hs₂ (by simp [PersistCall.toOp]) hkey,
      hframe₁ _ (by simp [ChannelModel.channelKey, String.ext_iff])
        (by simp [ChannelModel.channelKey, String.ext_iff]), hchannel]
  exact ⟨s₃, run_cons.2 ⟨s₁, hs₁, run_cons.2 ⟨s₂, hs₂, run_singleton.2 hs₃⟩⟩⟩

/-- **`delete_node` deletes a node exactly if it has no allowlist, no tracker and no channel.** -/
theorem deleteNode_iff (M : ChannelModel Value) (s : State Value) (n : NodeId) :
    NodeDeleted M n s (s.deleteNode (hexEncode n.1)) ↔
      s.get? ("allowlists/" ++ hexEncode n.1) = none ∧ s.get? ("trackers/" ++ hexEncode n.1) = none ∧
        ∀ c, s.get? (M.channelKey n c) = none := by
  -- only two of the entries of the node are removed
  have hkept : ∀ k, k ≠ "nodes/" ++ hexEncode n.1 → k ≠ "nodestates/" ++ hexEncode n.1 →
      (s.deleteNode (hexEncode n.1)).get? k = s.get? k := by
    intro k h1 h2
    rw [get?_deleteNode, if_neg (by simp [h1, h2])]
  have hallowlist := hkept ("allowlists/" ++ hexEncode n.1) (by simp [String.ext_iff]) (by simp [String.ext_iff])
  have htracker := hkept ("trackers/" ++ hexEncode n.1) (by simp [String.ext_iff]) (by simp [String.ext_iff])
  have hchannel : ∀ c, (s.deleteNode (hexEncode n.1)).get? (M.channelKey n c) = s.get? (M.channelKey n c) :=
    fun c => hkept _ (by simp [ChannelModel.channelKey, String.ext_iff])
      (by simp [ChannelModel.channelKey, String.ext_iff])
  constructor
  · intro hdeleted
    refine ⟨?_, ?_, fun c => ?_⟩
    · rw [← hallowlist]
      exact hdeleted.gone _ (Or.inr (Or.inr (Or.inl rfl)))
    · rw [← htracker]
      exact hdeleted.gone _ (Or.inr (Or.inr (Or.inr (Or.inl rfl))))
    · rw [← hchannel]
      exact hdeleted.gone _ (Or.inr (Or.inr (Or.inr (Or.inr ⟨c, rfl⟩))))
  · rintro ⟨hallow, htrack, hchan⟩
    have hgone : ∀ k, BelongsTo M n k → (s.deleteNode (hexEncode n.1)).get? k = none := by
      rintro k (rfl | rfl | rfl | rfl | ⟨c, rfl⟩)
      · rw [get?_deleteNode, if_pos (Or.inl rfl)]
      · rw [get?_deleteNode, if_pos (Or.inr rfl)]
      · rw [hallowlist, hallow]
      · rw [htracker, htrack]
      · rw [hchannel, hchan]
    refine ⟨hgone, fun k hk => hkept k ?_ ?_, renewable_of_gone hgone⟩
    · rintro rfl
      exact hk (Or.inl rfl)
    · rintro rfl
      exact hk (Or.inr (Or.inl rfl))

theorem deleteNode_keeps : ¬ ∀ s : State (Option (ChannelEntry Unit Unit)), ReachableBy plainChannels s →
    ∀ n : NodeId, NodeDeleted plainChannels n s (s.deleteNode (hexEncode n.1)) := by
  intro hall
  obtain ⟨s', hr⟩ := renewable_of_gone (M := plainChannels) (s := .new) (n := plainNode 2)
    (fun k _ => State.get?_new k) none none none ⟨[7], 100⟩
  obtain ⟨s₁, hs₁, hr⟩ := run_cons.1 hr
  obtain ⟨s, hs, -⟩ := run_cons.1 hr
  have hreach : ReachableBy plainChannels s := .call _ (.call _ .new hs₁) hs
  have hsome : (s.get? ("trackers/" ++ hexEncode (plainNode 2).1)).isSome :=
    (PersistOp.isSome_get?_apply hs _).2 (Or.inl (List.mem_singleton_self _))
  have hnone := ((deleteNode_iff plainChannels s (plainNode 2)).1 (hall s hreach (plainNode 2))).2.1
  rw [hnone] at hsome
  cases hsome

end Greenlight.Persist
