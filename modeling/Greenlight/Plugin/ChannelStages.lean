import Greenlight.Lib.Staged
import Greenlight.Plugin.Waker

/-!
# The stages of a waiting channel

`AwaitableChannel::poll` keeps the stage it is in, and the call it waits for, in ten fields.  What it does to the
calls, that it starts one, finds it pending or completes it, keeps to a plan of five stages (`kept_poll`): the flags
say which stages are passed, the futures that are stored which call is under way, and the last check how long nothing
starts.  So whatever the calls answer and however often the future is polled, it follows its stages
(`channel_follows_stages`).
-/

namespace Greenlight.Plugin

open Greenlight.Lib

namespace AwaitableChannel

namespace Outcome

def call : Outcome → Call
  | getVersion _ => .getVersion
  | ensurePeerConnection _ => .ensurePeerConnection
  | billboard _ => .billboard
  | getRoute _ => .getRoute
  | spendableMsat _ => .spendableMsat

/-- The call succeeded, and a billboard reports the channel as ready. -/
def succeeds : Outcome → Bool
  | getVersion r => r.isOk
  | ensurePeerConnection r => r.isOk
  | billboard (.ok status) => status.any reportsReady
  | billboard (.error _) => false
  | getRoute r => r.isOk
  | spendableMsat r => r.isOk

/-- A billboard that does not report the channel as ready, and a route that is not found. -/
def setsBack : Outcome → Bool
  | billboard (.ok status) => !status.any reportsReady
  | getRoute (.error _) => true
  | _ => false

end Outcome

/-- What a waiting channel is to do. -/
def plan : Plan Call Outcome where
  stages := [.getVersion, .ensurePeerConnection, .billboard, .getRoute, .spendableMsat]
  call := Outcome.call
  passes := Outcome.succeeds
  setsBack := Outcome.setsBack
  delay := rpcCallDelayMsec

/-! ### The fields and the plan -/

def Call.place : Call → ℕ
  | getVersion => 0
  | ensurePeerConnection => 1
  | billboard => 2
  | getRoute => 3
  | spendableMsat => 4

theorem Call.place_injective : Function.Injective Call.place := by
  intro c d
  cases c <;> cases d <;> decide

@[simp] theorem stages_place (c : Call) : plan.stages[c.place]? = some c := by cases c <;> rfl

theorem place_of_stages {n : ℕ} {c : Call} (h : plan.stages[n]? = some c) : n = c.place := by
  obtain ⟨hn, -⟩ := List.getElem?_eq_some_iff.1 h
  have hnodup : plan.stages.Nodup := by decide
  exact (List.getElem?_inj hn hnodup).1 (h.trans (stages_place c).symm)

/-- The stage of the call is marked as passed; that of the last call never is. -/
def flag (self : AwaitableChannel) : Call → Bool
  | .getVersion => self.version.isSome
  | .ensurePeerConnection => self.peerConnected
  | .billboard => self.channelReady
  | .getRoute => self.routeFound
  | .spendableMsat => false

def stored (self : AwaitableChannel) : Call → Bool
  | .getVersion => self.getVersion
  | .ensurePeerConnection => self.ensurePeerConnection
  | .billboard => self.billboard
  | .getRoute => self.getRoute
  | .spendableMsat => self.spendableMsat

/-- **The fields and the progress agree**: the flags are those of the stages that are passed, the future of a later
stage is not stored, that of the present one is if its call is under way, and nothing is put off for longer than the
delay after the last check. -/
structure Matches (channel : AwaitableChannel) (p : Progress Call Outcome) : Prop where
  flag : ∀ c, channel.flag c = true ↔ c.place < p.passed.length
  later : ∀ c, p.passed.length < c.place → channel.stored c = false
  running : ∀ c, p.running = some c ↔ channel.stored c = true ∧ c.place = p.passed.length
  delay : channel.rpcCallDelay = rpcCallDelayMsec
  notBefore : p.notBefore ≤ channel.lastCheck.elim 0 (· + rpcCallDelayMsec)

/-- A poll that goes through the stages: the delay has passed when it starts, and the clock does not go back. -/
structure Due (w : ChannelWorld) (channel : AwaitableChannel) (p : Progress Call Outcome) : Prop
    extends Matches channel p where
  now : p.notBefore ≤ w.now
  clock : w.now ≤ w.backOff

/-- What a stage leaves of the fields: the flags, the futures that are stored and the last check. -/
structure Leaves (before after : AwaitableChannel) (flag stored : Call → Bool) (lastCheck : Option ℕ) : Prop where
  flag : after.flag = flag
  stored : after.stored = stored
  delay : after.rpcCallDelay = before.rpcCallDelay
  lastCheck : after.lastCheck = lastCheck

theorem matches_init (peerId : PublicKey) (scid : String) : Matches (init peerId scid) .start where
  flag c := by cases c <;> simp [AwaitableChannel.flag, init, Progress.start]
  later c _ := by cases c <;> rfl
  running c := by cases c <;> simp [stored, init, Progress.start]
  delay := rfl
  notBefore := le_rfl

/-- How a poll keeps to the plan from the progress `p`: it leaves fields that agree with the progress, or an amount
that is the result of the last stage. -/
def Kept (p : Progress Call Outcome) (t : Polled) : Prop :=
  ∃ q, Run plan.step p t.events q ∧
    (t.result = .pending → Matches t.self q) ∧
    ∀ amount, t.result = .ready (.ok amount) → ∃ before, q.passed = before ++ [.spendableMsat (.ok amount)]

theorem Kept.after {p q : Progress Call Outcome} {es : List Event} {t : Polled} (h : Kept q t)
    (hr : Run plan.step p es q) : Kept p (t.after es) := by
  obtain ⟨q', hr', hpending, hready⟩ := h
  exact ⟨q', run_append.2 ⟨q, hr, hr'⟩, hpending, hready⟩

section

variable {version : String} {w : ChannelWorld} {self self' : AwaitableChannel} {p : Progress Call Outcome} {c : Call}
  {o : Outcome}

/-- The call of the present stage is under way after it was started, unless it was before. -/
theorem Due.run_begun (h : Due w self p) (hc : c.place = p.passed.length) :
    Run plan.step p (begun (self.stored c) c w.now) { p with running := some c } := by
  cases hstored : self.stored c with
  | true =>
    have hrunning : p.running = some c := (h.running c).2 ⟨hstored, hc⟩
    simp [begun, ← hrunning]
  | false =>
    have hidle : p.running = none := by
      refine Option.eq_none_iff_forall_ne_some.2 fun d hd => ?_
      obtain ⟨hd, hplace⟩ := (h.running d).1 hd
      obtain rfl := Call.place_injective (hplace.trans hc.symm)
      rw [hstored] at hd
      cases hd
    exact run_singleton.2 (Plan.step_started.2 ⟨⟨hidle, hc ▸ stages_place c, h.now⟩, rfl⟩)

theorem Due.run_waits (h : Due w self p) (hc : c.place = p.passed.length) :
    Run plan.step p (begun (self.stored c) c w.now ++ [.waits c]) { p with running := some c } :=
  run_concat.2 ⟨_, h.run_begun hc, Plan.step_waits.2 ⟨rfl, rfl⟩⟩

theorem Due.run_completed (h : Due w self p) (hc : o.call.place = p.passed.length) :
    Run plan.step p (begun (self.stored o.call) o.call w.now ++ [.completed o w.backOff])
      (plan.complete o w.backOff p) :=
  run_concat.2 ⟨_, h.run_begun hc, Plan.step_completed.2 ⟨rfl, rfl⟩⟩

theorem Due.waits (h : Due w self p) (hc : c.place = p.passed.length)
    (hl : Leaves self self' self.flag (Function.update self.stored c true) self.lastCheck) :
    Matches self' { p with running := some c } where
  flag d := hl.flag ▸ h.flag d
  later d hd := by
    have hne : d ≠ c := by
      rintro rfl
      exact absurd hc hd.ne'
    rw [hl.stored, Function.update_of_ne hne]
    exact h.later d hd
  running d := by
    constructor
    · intro hd
      obtain rfl := Option.some.inj hd
      exact ⟨by simp [hl.stored], hc⟩
    · rintro ⟨-, hplace⟩
      exact congrArg some (Call.place_injective (hc.trans hplace.symm))
  delay := hl.delay.trans h.delay
  notBefore := hl.lastCheck ▸ h.notBefore

theorem Due.passes (h : Due w self p) (hc : o.call.place = p.passed.length) (hpass : o.succeeds = true)
    (hback : o.setsBack = false) (hl : Leaves self self' (Function.update self.flag o.call true)
      (Function.update self.stored o.call true) self.lastCheck) :
    Due w self' (plan.complete o w.backOff p) := by
  have hp : plan.complete o w.backOff p = ⟨p.passed ++ [o], none, p.notBefore⟩ := by
    simp [Plan.complete, plan, hpass, hback]
  rw [hp]
  -- the calls of the later stages are others than the one that is marked as passed
  have hlater : ∀ d : Call, p.passed.length < d.place → d ≠ o.call := by
    rintro d hd rfl
    exact absurd hc hd.ne'
  refine ⟨⟨fun d => ?_, fun d hd => ?_, fun d => ?_, hl.delay.trans h.delay, hl.lastCheck ▸ h.notBefore⟩, h.now,
    h.clock⟩
  · rw [List.length_append, List.length_singleton, hl.flag]
    by_cases hd : d = o.call
    · subst hd
      simp [hc]
    · have hne : d.place ≠ p.passed.length := fun heq => hd (Call.place_injective (heq.trans hc.symm))
      rw [Function.update_of_ne hd, h.flag d]
      omega
  · rw [List.length_append, List.length_singleton] at hd
    rw [hl.stored, Function.update_of_ne (hlater d (by omega))]
    exact h.later d (by omega)
  · rw [List.length_append, List.length_singleton]
    refine iff_of_false (by simp) ?_
    rintro ⟨hd, hplace⟩
    rw [hl.stored, Function.update_of_ne (hlater d (by omega)), h.later d (by omega)] at hd
    cases hd

theorem Due.setsBack (h : Due w self p) (hc : o.call.place = p.passed.length) (hpass : o.succeeds = false)
    (hback : o.setsBack = true)
    (hl : Leaves self self' self.flag (Function.update self.stored o.call false) (some w.backOff)) :
    Matches self' (plan.complete o w.backOff p) := by
  have hp : plan.complete o w.backOff p =
      ⟨p.passed, none, max p.notBefore (w.backOff + rpcCallDelayMsec)⟩ := by
    simp [Plan.complete, plan, hpass, hback]
  rw [hp]
  refine ⟨fun d => hl.flag ▸ h.flag d, fun d hd => ?_, fun d => ?_, hl.delay.trans h.delay, ?_⟩
  · have hne : d ≠ o.call := by
      rintro rfl
      exact absurd hc (Nat.ne_of_gt hd)
    rw [hl.stored, Function.update_of_ne hne]
    exact h.later d hd
  · refine iff_of_false (by simp) ?_
    rintro ⟨hd, hplace⟩
    obtain rfl := Call.place_injective (hplace.trans hc.symm)
    simp [hl.stored] at hd
  · have hput : p.notBefore ≤ w.backOff + rpcCallDelayMsec := (h.now.trans h.clock).trans (Nat.le_add_right _ _)
    simpa [hl.lastCheck] using hput

theorem Due.kept_of_waits (h : Due w self p) (hc : c.place = p.passed.length)
    (hl : Leaves self self' self.flag (Function.update self.stored c true) self.lastCheck) :
    Kept p ⟨.pending, self', begun (self.stored c) c w.now ++ [.waits c]⟩ :=
  ⟨_, h.run_waits hc, fun _ => h.waits hc hl, nofun⟩

theorem Due.kept_of_error (h : Due w self p) (hc : o.call.place = p.passed.length) (e : AwaitableError) :
    Kept p ⟨.ready (.error e), self', begun (self.stored o.call) o.call w.now ++ [.completed o w.backOff]⟩ :=
  ⟨_, h.run_completed hc, nofun, nofun⟩

theorem Due.kept_of_setsBack (h : Due w self p) (hc : o.call.place = p.passed.length) (hpass : o.succeeds = false)
    (hback : o.setsBack = true)
    (hl : Leaves self self' self.flag (Function.update self.stored o.call false) (some w.backOff)) :
    Kept p ⟨.pending, self', begun (self.stored o.call) o.call w.now ++ [.completed o w.backOff]⟩ :=
  ⟨_, h.run_completed hc, fun _ => h.setsBack hc hpass hback hl, nofun⟩

/-- A poll that passes the present stage and goes on from the next one. -/
theorem Due.kept_of_passes {t : Polled} (h : Due w self p) (hc : o.call.place = p.passed.length)
    (hpass : o.succeeds = true) (hback : o.setsBack = false)
    (hnext : ∀ q, Due w self' q → o.call.place < q.passed.length → Kept q t)
    (hl : Leaves self self' (Function.update self.flag o.call true) (Function.update self.stored o.call true)
      self.lastCheck) :
    Kept p (t.after (begun (self.stored o.call) o.call w.now ++ [.completed o w.backOff])) := by
  have hdue := h.passes hc hpass hback hl
  refine (hnext _ hdue ?_).after (h.run_completed hc)
  have hmarked : self'.flag o.call = true := by simp [hl.flag]
  exact (hdue.flag o.call).1 hmarked

/-! ### The stages -/

theorem Due.place_eq (h : Due w self p) (hle : c.place ≤ p.passed.length) (hflag : ¬ self.flag c = true) :
    c.place = p.passed.length :=
  hle.antisymm (not_lt.1 fun hlt => hflag ((h.flag c).2 hlt))

theorem kept_pollSpendable (h : Due w self p) (hle : Call.spendableMsat.place ≤ p.passed.length) :
    Kept p (pollSpendable version w self) := by
  have hc : Call.spendableMsat.place = p.passed.length := h.place_eq hle (by simp [flag])
  unfold pollSpendable
  dsimp only
  split
  · exact h.kept_of_waits hc ⟨rfl, by funext d; cases d <;> rfl, rfl, rfl⟩
  · rename_i r _
    cases hamount : Awaitables.spendableMsat version self.scid r with
    | error e => exact h.kept_of_error (o := .spendableMsat (.error e)) hc e
    | ok amount =>
      refine ⟨_, h.run_completed (o := .spendableMsat (.ok amount)) hc, nofun, ?_⟩
      rintro amount' heq
      cases heq
      exact ⟨p.passed, rfl⟩

theorem kept_pollRoute (h : Due w self p) (hle : Call.getRoute.place ≤ p.passed.length) :
    Kept p (pollRoute version w self) := by
  unfold pollRoute
  split_ifs with hfound
  · exact kept_pollSpendable h ((h.flag .getRoute).1 hfound)
  have hc : Call.getRoute.place = p.passed.length := h.place_eq hle hfound
  dsimp only
  split
  · exact h.kept_of_waits hc ⟨rfl, by funext d; cases d <;> rfl, rfl, rfl⟩
  split
  · rename_i route _
    exact h.kept_of_passes (o := .getRoute (.ok route)) hc rfl rfl (fun q hq hlt => kept_pollSpendable hq hlt)
      ⟨by funext d; cases d <;> rfl, by funext d; cases d <;> rfl, rfl, rfl⟩
  · rename_i e _
    exact h.kept_of_setsBack (o := .getRoute (.error e)) hc rfl rfl ⟨rfl, by funext d; cases d <;> rfl, rfl, rfl⟩

theorem kept_pollBillboard (h : Due w self p) (hle : Call.billboard.place ≤ p.passed.length) :
    Kept p (pollBillboard version w self) := by
  unfold pollBillboard
  split_ifs with hready
  · exact kept_pollRoute h ((h.flag .billboard).1 hready)
  have hc : Call.billboard.place = p.passed.length := h.place_eq hle hready
  dsimp only
  split
  · exact h.kept_of_waits hc ⟨rfl, by funext d; cases d <;> rfl, rfl, rfl⟩
  split
  · rename_i e _
    exact h.kept_of_error (o := .billboard (.error e)) hc e
  rename_i status _
  split_ifs with hany
  · exact h.kept_of_passes (o := .billboard (.ok status)) hc hany (by simp [Outcome.setsBack, hany])
      (fun q hq hlt => kept_pollRoute hq hlt)
      ⟨by funext d; cases d <;> rfl, by funext d; cases d <;> rfl, rfl, rfl⟩
  · have hnone : status.any reportsReady = false := Bool.eq_false_iff.2 hany
    exact h.kept_of_setsBack (o := .billboard (.ok status)) hc hnone (by simp [Outcome.setsBack, hnone])
      ⟨rfl, by funext d; cases d <;> rfl, rfl, rfl⟩

theorem kept_pollPeer (h : Due w self p) (hle : Call.ensurePeerConnection.place ≤ p.passed.length) :
    Kept p (pollPeer version w self) := by
  unfold pollPeer
  split_ifs with hconnected
  · exact kept_pollBillboard h ((h.flag .ensurePeerConnection).1 hconnected)
  have hc : Call.ensurePeerConnection.place = p.passed.length := h.place_eq hle hconnected
  dsimp only
  split
  · exact h.kept_of_waits hc ⟨rfl, by funext d; cases d <;> rfl, rfl, rfl⟩
  split
  · rename_i e _
    exact h.kept_of_error (o := .ensurePeerConnection (.error e)) hc e
  · rename_i connected _
    exact h.kept_of_passes (o := .ensurePeerConnection (.ok connected)) hc rfl rfl
      (fun q hq hlt => kept_pollBillboard hq hlt)
      ⟨by funext d; cases d <;> rfl, by funext d; cases d <;> rfl, rfl, rfl⟩

theorem kept_pollVersion (h : Due w self p) : Kept p (pollVersion w self) := by
  unfold pollVersion
  split
  · rename_i version hversion
    have hmarked : self.flag .getVersion = true := by simp [flag, hversion]
    exact kept_pollPeer h ((h.flag .getVersion).1 hmarked)
  rename_i hversion
  have hc : Call.getVersion.place = p.passed.length := h.place_eq (Nat.zero_le _) (by simp [flag, hversion])
  dsimp only
  split
  · exact h.kept_of_waits hc ⟨rfl, by funext d; cases d <;> rfl, rfl, rfl⟩
  split
  · rename_i e _
    exact h.kept_of_error (o := .getVersion (.error e)) hc e
  · rename_i version _
    exact h.kept_of_passes (o := .getVersion (.ok version)) hc rfl rfl (fun q hq hlt => kept_pollPeer hq hlt)
      ⟨by funext d; cases d <;> rfl, by funext d; cases d <;> rfl, rfl, rfl⟩

/-- **A poll keeps to the plan.** -/
theorem kept_poll (h : Matches self p) (hclock : w.now ≤ w.backOff) : Kept p (tracedPoll w self) := by
  have hbefore := h.notBefore
  unfold tracedPoll
  split
  · rename_i hlast
    rw [hlast] at hbefore
    exact kept_pollVersion ⟨h, hbefore.trans (Nat.zero_le _), hclock⟩
  · rename_i lastCheck hlast
    rw [hlast] at hbefore
    split_ifs with hearly
    · exact ⟨p, run_nil.2 rfl, fun _ => h, nofun⟩
    · have hlate : lastCheck + rpcCallDelayMsec ≤ w.now := by
        rw [h.delay, rpcCallDelayMsec] at hearly
        rw [rpcCallDelayMsec]
        omega
      exact kept_pollVersion ⟨h, hbefore.trans hlate, hclock⟩

end

/-! ### Runs of polls -/

/-- A waiting channel, what its polls have done to the calls so far, and the result once there is one. -/
structure Watched where
  self : AwaitableChannel
  trace : List Event
  result : Option (Except AwaitableError ℕ)

namespace Watched

def start (peerId : PublicKey) (scid : String) : Watched := ⟨init peerId scid, [], none⟩

/-- The next poll; there is none after the first that is ready. -/
def step (s : Watched) (w : ChannelWorld) : Option Watched :=
  match s.result with
  | some _ => none
  | none =>
    let p := tracedPoll w s.self
    match p.result with
    | .pending => some ⟨p.self, s.trace ++ p.events, none⟩
    | .ready result => some ⟨p.self, s.trace ++ p.events, some result⟩

/-- What holds of a waiting channel along its polls: its trace keeps to the plan, the fields agree with the progress
as long as there is no result, and an amount is the result of the last stage. -/
def Follows (s : Watched) : Prop :=
  ∃ p, Run plan.step .start s.trace p ∧ (s.result = none → Matches s.self p) ∧
    ∀ amount, s.result = some (.ok amount) → ∃ before, p.passed = before ++ [.spendableMsat (.ok amount)]

theorem follows_step {s t : Watched} {w : ChannelWorld} (hs : s.Follows) (hclock : w.now ≤ w.backOff)
    (h : s.step w = some t) : t.Follows := by
  obtain ⟨p, hrun, hmatches, -⟩ := hs
  unfold step at h
  split at h
  · cases h
  rename_i hresult
  obtain ⟨q, hr, hpending, hready⟩ := kept_poll (hmatches hresult) hclock
  have hall := run_append.2 ⟨p, hrun, hr⟩
  dsimp only at h
  split at h
  · rename_i hres
    obtain rfl := Option.some.inj h
    exact ⟨q, hall, fun _ => hpending hres, nofun⟩
  · rename_i result hres
    obtain rfl := Option.some.inj h
    refine ⟨q, hall, nofun, fun amount hamount => hready amount ?_⟩
    rw [hres, Option.some.inj hamount]

theorem follows_run {peerId : PublicKey} {scid : String} {ws : List ChannelWorld} {s : Watched}
    (hclock : ∀ w ∈ ws, w.now ≤ w.backOff) (h : Run step (start peerId scid) ws s) : s.Follows := by
  refine h.invariant_of (P := fun _ w => w.now ≤ w.backOff) (fun hs hw hstep => follows_step hs hw hstep) ?_
    (allSteps_of_forall fun w hw _ => hclock w hw)
  exact ⟨.start, run_nil.2 rfl, fun _ => matches_init peerId scid, nofun⟩

end Watched

/-- The calls of the five stages succeeded in this order, and the last one returned the amount. -/
def Succeeded (amount : ℕ) (es : List Event) : Prop :=
  ∃ version status, status.any reportsReady = true ∧
    [.getVersion (.ok version), .ensurePeerConnection (.ok ()), .billboard (.ok status), .getRoute (.ok ()),
      .spendableMsat (.ok amount)].Sublist (outcomes es)

theorem outcomes_of_calls {os : List Outcome} (hpass : ∀ o ∈ os, o.succeeds)
    (hcalls : os.map Outcome.call = [.getVersion, .ensurePeerConnection, .billboard, .getRoute]) :
    ∃ version status, status.any reportsReady = true ∧ os = [.getVersion (.ok version),
      .ensurePeerConnection (.ok ()), .billboard (.ok status), .getRoute (.ok ())] := by
  obtain ⟨o₁, os₁, rfl, h₁, htail₁⟩ := List.map_eq_cons_iff.1 hcalls
  obtain ⟨o₂, os₂, rfl, h₂, htail₂⟩ := List.map_eq_cons_iff.1 htail₁
  obtain ⟨o₃, os₃, rfl, h₃, htail₃⟩ := List.map_eq_cons_iff.1 htail₂
  obtain ⟨o₄, os₄, rfl, h₄, htail₄⟩ := List.map_eq_cons_iff.1 htail₃
  obtain rfl := List.map_eq_nil_iff.1 htail₄
  have hpass₁ := hpass o₁ (by simp)
  have hpass₂ := hpass o₂ (by simp)
  have hpass₃ := hpass o₃ (by simp)
  have hpass₄ := hpass o₄ (by simp)
  -- the call of an outcome says of which stage it is
  rcases o₁ with (_ | version) | _ | _ | _ | _ <;> cases h₁
  · cases hpass₁
  rcases o₂ with _ | (_ | _) | _ | _ | _ <;> cases h₂
  · cases hpass₂
  rcases o₃ with _ | _ | (_ | status) | _ | _ <;> cases h₃
  · cases hpass₃
  rcases o₄ with _ | _ | _ | (_ | _) | _ <;> cases h₄
  · cases hpass₄
  exact ⟨version, status, hpass₃, rfl⟩

theorem succeeded_of_passed {p : Progress Call Outcome} {before : List Outcome} {amount : ℕ} {es : List Event}
    (hsub : p.passed.Sublist (outcomes es)) (horder : plan.InOrder p)
    (hlast : p.passed = before ++ [.spendableMsat (.ok amount)]) : Succeeded amount es := by
  have hcalls := horder.calls
  rw [hlast, List.map_append, List.length_append, List.length_singleton] at hcalls
  have hplace : before.length = 4 := by
    have hget : (plan.stages.take (before.length + 1))[before.length]? = some Call.spendableMsat := by
      rw [← hcalls, List.getElem?_append_right (by simp)]
      simp [plan, Outcome.call]
    rw [List.getElem?_take_of_lt (Nat.lt_succ_self _)] at hget
    exact place_of_stages hget
  rw [hplace] at hcalls
  have hfirst : before.map Outcome.call = [.getVersion, .ensurePeerConnection, .billboard, .getRoute] :=
    List.append_cancel_right (show before.map Outcome.call ++ [Call.spendableMsat] = _ ++ [Call.spendableMsat]
      from hcalls)
  obtain ⟨version, status, hready, rfl⟩ :=
    outcomes_of_calls (fun o ho => horder.passes o (hlast ▸ List.mem_append_left _ ho)) hfirst
  rw [hlast] at hsub
  exact ⟨version, status, hready, hsub⟩

/-- **A waiting channel follows its stages**, whatever its calls are answered and however the time passes between
the polls, as long as the clock, an `Instant`, does not go back during one.  Up to the first poll that is ready, it
returns an amount only if the calls of the five stages succeeded in their order and the amount is the result of the
last; a call that is completed is not polled again; at any time at most one call is unfinished; and after a
billboard that does not report the channel as ready, or a failed route, no call starts before the delay has
passed. -/
theorem channel_follows_stages (peerId : PublicKey) (scid : String) (ws : List ChannelWorld) (s : Watched)
    (hclock : ∀ w ∈ ws, w.now ≤ w.backOff) (h : Run Watched.step (Watched.start peerId scid) ws s) :
    (∀ amount, s.result = some (.ok amount) → Succeeded amount s.trace) ∧
      plan.NeverRepolled s.trace ∧
      (∀ es, es <+: s.trace → (plan.unfinished es).length ≤ 1) ∧
      plan.DelayKept s.trace := by
  obtain ⟨p, hrun, -, hready⟩ := Watched.follows_run hclock h
  obtain ⟨hsub, horder⟩ := Plan.passed_of_run hrun
  refine ⟨fun amount hamount => ?_, Plan.neverRepolled_of_run hrun, fun es hes => Plan.unfinished_of_run hrun hes,
    Plan.delayKept_of_run hrun⟩
  obtain ⟨before, hlast⟩ := hready amount hamount
  exact succeeded_of_passed hsub horder hlast

/-- The peer of `reconnecting` when its channel is reestablished, at the end of the delay. -/
def reestablished : ChannelWorld :=
  let replies : Replies :=
    { connect := .ok ()
      getinfo := .ok "v24.02"
      listpeers := .ok [⟨true, none⟩]
      connectPeer := .ok ()
      listpeerchannels := .ok [⟨some "1x1x1", none, some ["Channel ready for use"], some 1000, none⟩]
      getroute := .ok () }
  { now := rpcCallDelayMsec
    backOff := rpcCallDelayMsec
    getVersion := .ready replies
    ensurePeerConnection := .ready replies
    billboard := .ready replies
    getRoute := .ready replies
    spendableMsat := .ready replies }

/-- A channel that is set back once and then returns its amount. -/
theorem channel_follows_stages_reestablished :
    ∃ s, Run Watched.step (Watched.start [2] "1x1x1") [reconnecting, reestablished] s ∧
      s.result = some (.ok 1000) ∧ Succeeded 1000 s.trace ∧ plan.NeverRepolled s.trace ∧
      (∀ es, es <+: s.trace → (plan.unfinished es).length ≤ 1) ∧ plan.DelayKept s.trace := by
  have hresult : ([reconnecting, reestablished].foldlM Watched.step (Watched.start [2] "1x1x1")).bind
      Watched.result = some (.ok 1000) := by decide +kernel
  obtain ⟨s, hrun, hs⟩ := Option.bind_eq_some_iff.1 hresult
  obtain ⟨hsucceeded, hrest⟩ := channel_follows_stages [2] "1x1x1" [reconnecting, reestablished] s
    (by simp [reconnecting, reestablished]) hrun
  exact ⟨s, hrun, hs, hsucceeded 1000 hs, hrest⟩

end AwaitableChannel

end Greenlight.Plugin
