import Greenlight.Lib.Transition
import Greenlight.Plugin.Awaitables

/-!
# The waker of a waiting channel

A task that a future keeps waiting is polled again when its waker is called.  The waker is passed on with the poll of
a call, and a call that is pending has it stored; `AwaitableChannel::poll` starts no timer.  So the exits of `poll`
that return `Pending` without a pending call leave the task asleep: the one before the delay has passed, and those
after a billboard that does not report the channel as ready or a route that is not found.  Along a run the first
exit comes only after one of the others (`channel_woken_iff`).
-/

namespace Greenlight.Plugin

open Greenlight.Lib

namespace AwaitableChannel

/-- What a waker can be registered with. -/
inductive Waiter where
  | call (c : Call)
  | timer
  deriving DecidableEq, Repr

/-- How the poll of a call ends. -/
def Call.poll (w : ChannelWorld) : Call → Poll Replies
  | getVersion => w.getVersion
  | ensurePeerConnection => w.ensurePeerConnection
  | billboard => w.billboard
  | getRoute => w.getRoute
  | spendableMsat => w.spendableMsat

/-- A waker that is registered here is called without an outside event: by a call that is still pending or by a
timer. -/
def Waiter.Live (w : ChannelWorld) : Waiter → Prop
  | call c => c.poll w = .pending
  | timer => True

/-- A poll that finds a call pending has registered the waker with it. -/
def Polled.wakers (p : Polled) : List Waiter :=
  p.events.filterMap fun
    | .waits c => some (.call c)
    | _ => none

/-- A poll that returns `Pending` has left the waker behind. -/
def Polled.Woken (w : ChannelWorld) (p : Polled) : Prop :=
  p.result = .pending → ∃ x ∈ p.wakers, x.Live w

/-! ### The exits that leave the task asleep -/

/-- The delay after the last check has not passed. -/
def Early (w : ChannelWorld) (self : AwaitableChannel) : Prop :=
  ∃ lastCheck, self.lastCheck = some lastCheck ∧ w.now - lastCheck < self.rpcCallDelay

/-- The first stage is passed with this version. -/
def VersionKnown (w : ChannelWorld) (self : AwaitableChannel) (version : String) : Prop :=
  self.version = some version ∨
    self.version = none ∧ ∃ r, w.getVersion = .ready r ∧ Awaitables.getVersion r = .ok version

/-- The second stage is passed. -/
def PeerReached (w : ChannelWorld) (self : AwaitableChannel) : Prop :=
  self.peerConnected ∨ ∃ r, w.ensurePeerConnection = .ready r ∧
    Awaitables.ensurePeerConnection self.peerId r = .ok ()

/-- The billboard of the channel is read in this poll. -/
def BillboardReads (version : String) (w : ChannelWorld) (self : AwaitableChannel) (status : List String) : Prop :=
  ¬ self.channelReady ∧ ∃ r, w.billboard = .ready r ∧ Awaitables.billboard version self.scid r = .ok status

/-- The third stage is passed. -/
def ChannelUsable (version : String) (w : ChannelWorld) (self : AwaitableChannel) : Prop :=
  self.channelReady ∨ ∃ status, BillboardReads version w self status ∧ status.any reportsReady

def RouteFails (w : ChannelWorld) (self : AwaitableChannel) : Prop :=
  ¬ self.routeFound ∧ ∃ r e, w.getRoute = .ready r ∧ Awaitables.getRoute r = .error e

/-- The third or the fourth stage sets the future back. -/
def NotUsable (version : String) (w : ChannelWorld) (self : AwaitableChannel) : Prop :=
  (∃ status, BillboardReads version w self status ∧ ¬ status.any reportsReady) ∨
    ChannelUsable version w self ∧ RouteFails w self

/-- **The poll sets the future back**: it gets as far as a billboard that does not report the channel as ready, or
as a route that is not found. -/
def SetsBack (w : ChannelWorld) (self : AwaitableChannel) : Prop :=
  ¬ Early w self ∧ PeerReached w self ∧ ∃ version, VersionKnown w self version ∧ NotUsable version w self

/-- A poll that leaves the waker behind and sets nothing back. -/
def Polled.Fine (w : ChannelWorld) (self : AwaitableChannel) (p : Polled) : Prop :=
  p.Woken w ∧ p.self.lastCheck = self.lastCheck

/-- A poll that leaves the task asleep. -/
def Polled.Asleep (p : Polled) : Prop := p.result = .pending ∧ p.wakers = []

/-- The condition `A` decides how a poll leaves the task. -/
def Polled.DecidedBy (A : Prop) (w : ChannelWorld) (self : AwaitableChannel) (p : Polled) : Prop :=
  (A ∧ p.Asleep) ∨ (¬ A ∧ p.Fine w self)

theorem Polled.DecidedBy.congr {A B : Prop} {w : ChannelWorld} {self : AwaitableChannel} {p : Polled}
    (h : p.DecidedBy A w self) (hiff : A ↔ B) : p.DecidedBy B w self := by
  rw [DecidedBy, ← hiff]
  exact h

theorem Polled.Asleep.not_woken {p : Polled} (h : p.Asleep) (w : ChannelWorld) : ¬ p.Woken w := by
  intro hwoken
  obtain ⟨x, hx, -⟩ := hwoken h.1
  rw [h.2] at hx
  cases hx

@[simp] theorem wakers_completed (stored : Bool) (c : Call) (now : ℕ) (o : Outcome) (time : ℕ)
    (x : Poll (Except AwaitableError ℕ)) (self : AwaitableChannel) :
    Polled.wakers ⟨x, self, begun stored c now ++ [.completed o time]⟩ = [] := by
  cases stored <;> rfl

theorem Polled.wakers_after (stored : Bool) (c : Call) (now : ℕ) (o : Outcome) (time : ℕ) (p : Polled) :
    (p.after (begun stored c now ++ [.completed o time])).wakers = p.wakers := by
  cases stored <;> rfl

theorem woken_of_call {w : ChannelWorld} {c : Call} {stored : Bool} {self : AwaitableChannel}
    (h : c.poll w = .pending) : Polled.Woken w ⟨.pending, self, begun stored c w.now ++ [.waits c]⟩ := fun _ =>
  ⟨.call c, by cases stored <;> simp [Polled.wakers, begun], h⟩

theorem woken_of_ready {w : ChannelWorld} {x : Except AwaitableError ℕ} {self : AwaitableChannel}
    {events : List Event} : Polled.Woken w ⟨.ready x, self, events⟩ := nofun

theorem Polled.Fine.after {w : ChannelWorld} {self : AwaitableChannel} {p : Polled} (h : p.Fine w self)
    {stored : Bool} {c : Call} {now : ℕ} {o : Outcome} {time : ℕ} :
    (p.after (begun stored c now ++ [.completed o time])).Fine w self := by
  refine ⟨fun hpending => ?_, h.2⟩
  rw [p.wakers_after]
  exact h.1 hpending

/-- What was done before does not bear on how the rest of a poll leaves the task. -/
theorem Polled.DecidedBy.after {A : Prop} {w : ChannelWorld} {self : AwaitableChannel} {p : Polled}
    (h : p.DecidedBy A w self) {stored : Bool} {c : Call} {now : ℕ} {o : Outcome} {time : ℕ} :
    (p.after (begun stored c now ++ [.completed o time])).DecidedBy A w self := by
  rcases h with ⟨hA, hpending, hwakers⟩ | ⟨hA, hfine⟩
  · exact Or.inl ⟨hA, hpending, by rw [p.wakers_after, hwakers]⟩
  · exact Or.inr ⟨hA, hfine.after⟩

section

variable {version : String} {w : ChannelWorld} {self : AwaitableChannel}

theorem fine_pollSpendable : (pollSpendable version w self).Fine w self := by
  unfold pollSpendable
  dsimp only
  split
  · rename_i hw
    exact ⟨woken_of_call (c := .spendableMsat) hw, rfl⟩
  · exact ⟨woken_of_ready, rfl⟩

theorem BillboardReads.unique {status status' : List String} (h : BillboardReads version w self status)
    (h' : BillboardReads version w self status') : status = status' := by
  obtain ⟨-, r, hr, hs⟩ := h
  obtain ⟨-, r', hr', hs'⟩ := h'
  cases hr.symm.trans hr'
  exact Except.ok.inj (hs.symm.trans hs')

variable (version w self)

theorem pollRoute_decided : (pollRoute version w self).DecidedBy (RouteFails w self) w self := by
  unfold pollRoute
  split_ifs with hfound
  · exact Or.inr ⟨fun h => h.1 hfound, fine_pollSpendable⟩
  dsimp only
  split
  · rename_i hw
    refine Or.inr ⟨?_, woken_of_call (c := .getRoute) hw, rfl⟩
    rintro ⟨-, r, e, hr, -⟩
    cases hw.symm.trans hr
  rename_i r hr
  split
  · rename_i hok
    let found : AwaitableChannel := { self with routeFound := true, getRoute := true }
    have hrest : (pollSpendable version w found).Fine w found := fine_pollSpendable
    refine Or.inr ⟨?_, hrest.after⟩
    rintro ⟨-, r', e, hr', he⟩
    cases hr.symm.trans hr'
    cases hok.symm.trans he
  · rename_i e he
    exact Or.inl ⟨⟨hfound, r, e, hr, he⟩, rfl, wakers_completed _ _ _ _ _ _ _⟩

theorem pollBillboard_decided :
    (pollBillboard version w self).DecidedBy (NotUsable version w self) w self := by
  unfold pollBillboard
  split_ifs with hready
  · -- nothing is read, so what matters is the route
    refine (pollRoute_decided version w self).congr ⟨fun h => Or.inr ⟨Or.inl hready, h⟩, ?_⟩
    rintro (⟨status, hreads, -⟩ | ⟨-, h⟩)
    · exact absurd hready hreads.1
    · exact h
  dsimp only
  have hnone : (∀ status, ¬ BillboardReads version w self status) → ¬ NotUsable version w self := by
    rintro hno (⟨status, hreads, -⟩ | ⟨h | ⟨status, hreads, -⟩, -⟩)
    · exact hno status hreads
    · exact hready h
    · exact hno status hreads
  split
  · rename_i hw
    refine Or.inr ⟨hnone ?_, woken_of_call (c := .billboard) hw, rfl⟩
    rintro status ⟨-, r, hr, -⟩
    cases hw.symm.trans hr
  rename_i r hr
  split
  · rename_i e he
    refine Or.inr ⟨hnone ?_, woken_of_ready, rfl⟩
    rintro status ⟨-, r', hr', hs⟩
    cases hr.symm.trans hr'
    cases he.symm.trans hs
  · rename_i status hs
    have hreads : BillboardReads version w self status := ⟨hready, r, hr, hs⟩
    split_ifs with hany
    · have hroute := pollRoute_decided version w { self with channelReady := true, billboard := true }
      refine hroute.after.congr ⟨fun h => Or.inr ⟨Or.inr ⟨status, hreads, hany⟩, h⟩, ?_⟩
      rintro (⟨status', hreads', hnot⟩ | ⟨-, h⟩)
      · exact absurd (hreads.unique hreads' ▸ hany) hnot
      · exact h
    · exact Or.inl ⟨Or.inl ⟨status, hreads, hany⟩, rfl, wakers_completed _ _ _ _ _ _ _⟩

theorem pollPeer_decided :
    (pollPeer version w self).DecidedBy (PeerReached w self ∧ NotUsable version w self) w self := by
  unfold pollPeer
  split_ifs with hconnected
  · exact (pollBillboard_decided version w self).congr ⟨fun h => ⟨Or.inl hconnected, h⟩, fun h => h.2⟩
  dsimp only
  have hnone : (∀ r, w.ensurePeerConnection = .ready r → Awaitables.ensurePeerConnection self.peerId r ≠ .ok ()) →
      ¬ PeerReached w self := by
    rintro hno (h | ⟨r, hr, hok⟩)
    · exact hconnected h
    · exact hno r hr hok
  split
  · rename_i hw
    refine Or.inr ⟨fun h => hnone ?_ h.1, woken_of_call (c := .ensurePeerConnection) hw, rfl⟩
    intro r hr
    cases hw.symm.trans hr
  rename_i r hr
  split
  · rename_i e he
    refine Or.inr ⟨fun h => hnone ?_ h.1, woken_of_ready, rfl⟩
    intro r' hr' hok
    cases hr.symm.trans hr'
    cases he.symm.trans hok
  · rename_i hok
    have hboard := pollBillboard_decided version w { self with ensurePeerConnection := true, peerConnected := true }
    exact hboard.after.congr ⟨fun h => ⟨Or.inr ⟨r, hr, hok⟩, h⟩, fun h => h.2⟩

theorem pollVersion_decided :
    (pollVersion w self).DecidedBy
      (PeerReached w self ∧ ∃ version, VersionKnown w self version ∧ NotUsable version w self) w self := by
  unfold pollVersion
  split
  · rename_i version hversion
    have honly : ∀ version', VersionKnown w self version' → version' = version := by
      rintro version' (h | ⟨h, -⟩)
      · exact Option.some.inj (h.symm.trans hversion)
      · cases h.symm.trans hversion
    refine (pollPeer_decided version w self).congr ⟨fun h => ⟨h.1, version, Or.inl hversion, h.2⟩, ?_⟩
    rintro ⟨hpeer, version', hknown, h⟩
    exact ⟨hpeer, honly version' hknown ▸ h⟩
  rename_i hversion
  dsimp only
  have hknown : ∀ version, VersionKnown w self version →
      ∃ r, w.getVersion = .ready r ∧ Awaitables.getVersion r = .ok version := by
    rintro version (h | ⟨-, h⟩)
    · cases h.symm.trans hversion
    · exact h
  split
  · rename_i hw
    refine Or.inr ⟨?_, woken_of_call (c := .getVersion) hw, rfl⟩
    rintro ⟨-, version, h, -⟩
    obtain ⟨r, hr, -⟩ := hknown version h
    cases hw.symm.trans hr
  rename_i r hr
  split
  · rename_i e he
    refine Or.inr ⟨?_, woken_of_ready, rfl⟩
    rintro ⟨-, version, h, -⟩
    obtain ⟨r', hr', hok⟩ := hknown version h
    cases hr.symm.trans hr'
    cases he.symm.trans hok
  · rename_i version hok
    have hpeer := pollPeer_decided version w { self with getVersion := true, version := some version }
    refine hpeer.after.congr ⟨fun h => ⟨h.1, version, Or.inr ⟨hversion, r, hr, hok⟩, h.2⟩, ?_⟩
    rintro ⟨hreached, version', h, hnot⟩
    obtain ⟨r', hr', hok'⟩ := hknown version' h
    cases hr.symm.trans hr'
    obtain rfl := Except.ok.inj (hok.symm.trans hok')
    exact ⟨hreached, hnot⟩

/-- **How a poll leaves the task**: asleep if it comes too early or sets the future back, and otherwise with its waker
registered and without a new delay. -/
theorem poll_cases : ((Early w self ∨ SetsBack w self) ∧ (tracedPoll w self).Asleep) ∨
    (¬ Early w self ∧ ¬ SetsBack w self ∧ (tracedPoll w self).Fine w self) := by
  have hlate : ¬ Early w self → tracedPoll w self = pollVersion w self := by
    intro hearly
    unfold tracedPoll
    split
    · rfl
    · rename_i lastCheck hlast
      exact if_neg fun h => hearly ⟨lastCheck, hlast, h⟩
  by_cases hearly : Early w self
  · refine Or.inl ⟨Or.inl hearly, ?_⟩
    obtain ⟨lastCheck, hlast, hlt⟩ := hearly
    have heq : tracedPoll w self = ⟨.pending, self, []⟩ := by
      unfold tracedPoll
      rw [hlast]
      exact if_pos hlt
    rw [heq]
    exact ⟨rfl, rfl⟩
  · rw [hlate hearly]
    rcases pollVersion_decided w self with ⟨h, hp⟩ | ⟨h, hp⟩
    · exact Or.inl ⟨Or.inr ⟨hearly, h⟩, hp⟩
    · exact Or.inr ⟨hearly, fun hback => h hback.2, hp⟩

end

/-! ### Runs of polls -/

/-- If `poll` returns `Pending`, the waker is registered where it is called without an outside event. -/
def Woken (self : AwaitableChannel) (w : ChannelWorld) : Prop :=
  (poll w self).1 = .pending → ∃ x ∈ (tracedPoll w self).wakers, x.Live w

def pollStep (self : AwaitableChannel) (w : ChannelWorld) : Option AwaitableChannel := some (poll w self).2

theorem woken_iff {self : AwaitableChannel} {w : ChannelWorld} :
    self.Woken w ↔ ¬ Early w self ∧ ¬ SetsBack w self := by
  show (tracedPoll w self).Woken w ↔ _
  rcases poll_cases w self with ⟨h, hp⟩ | ⟨hearly, hback, hp⟩
  · refine iff_of_false (hp.not_woken w) ?_
    rintro ⟨hearly, hback⟩
    exact h.elim hearly hback
  · exact iff_of_true hp.1 ⟨hearly, hback⟩

theorem lastCheck_pollStep {self self' : AwaitableChannel} {w : ChannelWorld} (hlast : self.lastCheck = none)
    (hback : ¬ SetsBack w self) (h : self.pollStep w = some self') : self'.lastCheck = none := by
  cases h
  rcases poll_cases w self with ⟨⟨lastCheck, hsome, -⟩ | hsets, -⟩ | ⟨-, -, hp⟩
  · cases hlast.symm.trans hsome
  · exact absurd hsets hback
  · exact hp.2.trans hlast

/-- **A waiting channel is woken exactly as long as nothing sets it back.**  Along every sequence of polls, each one
that returns `Pending` has left the waker with a pending call if and only if none of them meets a billboard that
does not report the channel as ready, or a route that is not found. -/
theorem channel_woken_iff (peerId : PublicKey) (scid : String) (ws : List ChannelWorld) :
    AllSteps pollStep Woken (init peerId scid) ws ↔
      AllSteps pollStep (fun self w => ¬ SetsBack w self) (init peerId scid) ws := by
  constructor
  · intro h
    rw [allSteps_iff] at h ⊢
    intro pre w post self hws hr
    exact (woken_iff.1 (h pre w post self hws hr)).2
  · intro h
    rw [allSteps_iff]
    rintro pre w post self rfl hr
    obtain ⟨hpre, hw⟩ := (allSteps_append hr).1 h
    -- the delay runs only after the future was set back
    have hlast : self.lastCheck = none :=
      hr.invariant_of (I := fun self => self.lastCheck = none) lastCheck_pollStep rfl hpre
    refine woken_iff.2 ⟨?_, hw.1⟩
    rintro ⟨lastCheck, hsome, -⟩
    cases hlast.symm.trans hsome

/-- A peer that is connected and whose channel is still being reestablished. -/
def reconnecting : ChannelWorld :=
  let replies : Replies :=
    { connect := .ok ()
      getinfo := .ok "v24.02"
      listpeers := .ok [⟨true, none⟩]
      connectPeer := .ok ()
      listpeerchannels := .ok [⟨some "1x1x1", none, some ["Attempting to reconnect"], none, none⟩]
      getroute := .ok () }
  { now := 0
    backOff := 0
    getVersion := .ready replies
    ensurePeerConnection := .ready replies
    billboard := .ready replies
    getRoute := .pending
    spendableMsat := .pending }

/-- The first poll of a channel that is not ready leaves nobody to wake the task. -/
theorem channel_not_woken : ¬ ∀ (peerId : PublicKey) (scid : String) (ws : List ChannelWorld),
    AllSteps pollStep Woken (init peerId scid) ws := by
  intro hall
  have hwoken : (init [2] "1x1x1").Woken reconnecting := (hall [2] "1x1x1" [reconnecting]).1
  obtain ⟨x, hx, -⟩ := hwoken (by decide +kernel)
  have hnone : (tracedPoll reconnecting (init [2] "1x1x1")).wakers = [] := by decide +kernel
  rw [hnone] at hx
  cases hx

end AwaitableChannel

end Greenlight.Plugin
