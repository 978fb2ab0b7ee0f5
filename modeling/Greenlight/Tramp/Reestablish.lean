import Greenlight.Plugin.Awaitables
import Greenlight.Tramp.Allocation
import Mathlib.Data.List.Enum

/-!
# Waiting for channels to re-establish

`reestablished_channels` of `tramp.rs` joins one `timeout_at` for each channel and keeps the channels whose
result is `Ok`.  What the timeout guards is the call of `AwaitableChannel::new`, whose future is ready at once
with the struct; the struct, which is the future that waits, is never polled.  So every channel is kept,
whatever its peer does and whatever the deadline is, and the function does what it is for exactly if there is
nothing to filter out.
-/

namespace Greenlight.Tramp

open Greenlight.Lib Greenlight.Plugin

/-- The worlds that the futures of the channels meet in one poll of the join, by position. -/
abbrev JoinWorld := ℕ → ChannelWorld

def channelFutures (nodeId : PublicKey) (deadline : ℕ) (channels : List Channel) :
    List (Future JoinWorld Unit (Option AwaitableChannel)) :=
  channels.zipIdx.map fun (c, i) =>
    Future.timeoutAt (fun w => (w i).now) deadline (AwaitableChannel.new nodeId c.shortChannelId)

/-- The filter on the results: `Ok` keeps the channel. -/
def keepOk : Option AwaitableChannel × Channel → Option Channel
  | (some _amount, channelData) => some channelData
  | (none, _) => none

/-- `reestablished_channels`, from the futures before their first poll on. -/
def reestablishedChannels (nodeId : PublicKey) (deadline : ℕ) (channels : List Channel) :
    Future JoinWorld (List (Unit ⊕ Option AwaitableChannel)) (List Channel) := fun w s =>
  match Future.joinAll (channelFutures nodeId deadline channels) w s with
  | (.pending, s) => (.pending, s)
  | (.ready results, s) => (.ready ((results.zip channels).filterMap keepOk), s)

/-- The futures before their first poll. -/
def unpolled (channels : List Channel) : List (Unit ⊕ Option AwaitableChannel) :=
  channels.zipIdx.map fun _ => .inl ()

/-- The future of the channel itself is ready with an amount, in a poll before the deadline. -/
def ResolvesBefore (nodeId : PublicKey) (deadline : ℕ) (ws : ℕ → ChannelWorld) (ch : Channel) : Prop :=
  ∃ n amount, AwaitableChannel.poll.ReadyAt (AwaitableChannel.init nodeId ch.shortChannelId)
    ((List.range n).map ws) (ws n) (.ok amount) ∧ (ws n).now < deadline

open Classical in
/-- The channels that have become usable in time. -/
noncomputable def usableChannels (nodeId : PublicKey) (deadline : ℕ) (ws : ℕ → JoinWorld)
    (channels : List Channel) : List Channel :=
  (channels.zipIdx.filter fun (c, i) => ResolvesBefore nodeId deadline (fun n => ws n i) c).map Prod.fst

/-! ### Every channel is kept -/

section Join

variable (nodeId : PublicKey) (deadline : ℕ) (channels : List Channel)

theorem joinAll_channelFutures (w : JoinWorld) :
    (Future.joinAll (channelFutures nodeId deadline channels) w (unpolled channels)).1 =
      .ready (channels.zipIdx.map fun ci => some (AwaitableChannel.init nodeId ci.1.shortChannelId)) := by
  refine Future.joinAll_of_ready fun ci _ => ?_
  exact Future.timeoutAt_of_ready rfl _ _

theorem filterMap_keepOk (f : Channel → AwaitableChannel) :
    ((channels.map fun c => some (f c)).zip channels).filterMap keepOk = channels := by
  induction channels with
  | nil => rfl
  | cons c channels ih => rw [List.map_cons, List.zip_cons_cons, List.filterMap_cons, keepOk, ih]

/-- **The join is ready at its first poll, with all channels.** -/
theorem reestablishedChannels_ready (w : JoinWorld) :
    (reestablishedChannels nodeId deadline channels w (unpolled channels)).1 = .ready channels := by
  have hjoin := joinAll_channelFutures nodeId deadline channels w
  have hinits : (channels.zipIdx.map fun ci => some (AwaitableChannel.init nodeId ci.1.shortChannelId)) =
      channels.map fun c => some (AwaitableChannel.init nodeId c.shortChannelId) := by
    conv_rhs => rw [← List.zipIdx_map_fst 0 channels, List.map_map]
    rfl
  rw [hinits] at hjoin
  rw [reestablishedChannels]
  split
  · rename_i heq
    rw [heq] at hjoin
    cases hjoin
  · rename_i heq
    rw [heq] at hjoin
    cases hjoin
    exact congrArg Poll.ready (filterMap_keepOk channels _)

theorem usableChannels_eq_iff (ws : ℕ → JoinWorld) :
    usableChannels nodeId deadline ws channels = channels ↔
      ∀ ci ∈ channels.zipIdx, ResolvesBefore nodeId deadline (fun n => ws n ci.2) ci.1 := by
  classical
  unfold usableChannels
  constructor
  · intro h
    have hlen := congrArg List.length h
    rw [List.length_map] at hlen
    have hall := List.length_filter_eq_length_iff.1 (hlen.trans (List.length_zipIdx (i := 0)).symm)
    intro ci hci
    exact of_decide_eq_true (hall ci hci)
  · intro h
    rw [List.filter_eq_self.2 fun ci hci => decide_eq_true (h ci hci)]
    exact List.zipIdx_map_fst 0 channels

/-- **When the filter is right.**  `reestablished_channels` returns the channels that became usable in time
exactly if all of them did. -/
theorem reestablishedChannels_iff (ws : ℕ → JoinWorld) :
    (reestablishedChannels nodeId deadline channels).Returns (unpolled channels) ws
        (usableChannels nodeId deadline ws channels) ↔
      ∀ ci ∈ channels.zipIdx, ResolvesBefore nodeId deadline (fun n => ws n ci.2) ci.1 :=
  (Future.returns_iff_of_ready (reestablishedChannels_ready nodeId deadline channels (ws 0))).trans
    (usableChannels_eq_iff nodeId deadline channels ws)

end Join

def silentWorld : ChannelWorld := ⟨100, 100, .pending, .pending, .pending, .pending, .pending⟩

theorem run_silent (ch : AwaitableChannel) (hv : ch.version = none) (hc : ch.lastCheck = none) (n : ℕ) :
    (AwaitableChannel.poll.run (List.replicate n silentWorld) ch).1 = .pending ∧
      (AwaitableChannel.poll silentWorld (AwaitableChannel.poll.run (List.replicate n silentWorld) ch).2).1 =
        .pending := by
  have hpoll : ∀ ch : AwaitableChannel, ch.version = none → ch.lastCheck = none →
      AwaitableChannel.poll silentWorld ch = (.pending, { ch with getVersion := true }) := fun ch hv hc => by
    simp only [AwaitableChannel.poll, AwaitableChannel.tracedPoll, hc, AwaitableChannel.pollVersion, hv, silentWorld]
  induction n generalizing ch with
  | zero =>
    refine ⟨rfl, ?_⟩
    rw [List.replicate_zero, Future.run, hpoll ch hv hc]
  | succ n ih =>
    rw [List.replicate_succ, Future.run, hpoll ch hv hc]
    exact ih _ hv hc

/-- A channel whose peer never answers is returned as usable. -/
theorem reestablishedChannels_keeps_silent : ¬ ∀ (nodeId : PublicKey) (deadline : ℕ) (channels : List Channel)
    (ws : ℕ → JoinWorld), (reestablishedChannels nodeId deadline channels).Returns (unpolled channels) ws
      (usableChannels nodeId deadline ws channels) := by
  intro h
  have hall := (reestablishedChannels_iff [2] 20100 [⟨"1x1x1", 1000, 1⟩] fun _ _ => silentWorld).1 (h _ _ _ _)
  obtain ⟨n, amount, ⟨-, hready⟩, -⟩ := hall (⟨"1x1x1", 1000, 1⟩, 0) (List.mem_singleton_self _)
  have hworlds : (List.range n).map (fun _ => silentWorld) = List.replicate n silentWorld := by simp
  have hsilent := run_silent (AwaitableChannel.init [2] "1x1x1") rfl rfl n
  rw [hworlds, hsilent.2] at hready
  cases hready

end Greenlight.Tramp
