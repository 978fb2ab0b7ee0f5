import Greenlight.Lib.Transition
import Greenlight.Tramp.AllocationSpec
import Greenlight.Tramp.Idempotence
import Mathlib.Algebra.Order.BigOperators.Group.List
import Mathlib.Algebra.Order.Ring.Nat
import Mathlib.Data.List.Perm.Subperm

/-!
# Trampoline payments side by side

Any number of calls of `trampolinepay` on one lightningd, step by step, with the tasks they spawn, other commands that
pay, clients that go away and restarts of the plugin.  A call looks once whether the payment has a part that has not
failed, long before it sends its own, and nothing is locked in between.  So it never pays what an earlier call has
paid or still may pay, and what it sends is at most what it has allocated (`sendpay_of_run`); but two calls that look
before either sends both send (`overlap_sends_twice`).  As long as no call looks while another one is still to send,
a payment is made at most once, however often it is tried again (`paid_once`).  lightningd keeps all parts here; a
call by itself is `trampolinepay` (`exists_run_trampolinepay`).
-/

namespace Greenlight.Tramp

open Greenlight.Lib Greenlight.Plugin Greenlight.Util

abbrev PayId := ℕ

/-- What a call has when it goes on to send. -/
structure LookedUp where
  req : TrampolinePayRequest
  nodeId : PublicKey
  decoded : Decodepay
  maxGroupId : UInt64
  /-- How many parts lightningd had, which no step reads. -/
  seen : ℕ

/-- How a call splits its payment. -/
structure Plan extends LookedUp, Prepared

def Plan.parts (plan : Plan) : List (ChannelContribution × ℕ) := plan.alloc.zip (partIds plan.alloc.length)

/-- Where a call is: before the allocation, in the loop that spawns the tasks, or at its end.  A call that waits for
its tasks has no more parts. -/
inductive PayPhase where
  | preparing (a : LookedUp)
  | spawning (plan : Plan) (parts : List (ChannelContribution × ℕ))
  | ended

/-- The task of a part, up to its `sendpay`. -/
structure PartTask where
  call : PayId
  plan : Plan
  part : ChannelContribution × ℕ

/-- A part that lightningd has, with the task that has sent it unless it is that of another command. -/
structure SentPart where
  sender : Option PartTask
  part : SendPay

/-- What the part pays the trampoline node; a part of another command is not counted. -/
def SentPart.amountMsat (s : SentPart) : ℕ := (s.sender.map (·.part.1.contribMsat)).getD 0

structure PayWorld where
  payments : List SentPart
  calls : PayId → Option PayPhase
  tasks : List PartTask
  /-- The plans that the calls have made, which no step reads. -/
  plans : PayId → Option Plan

inductive PayEvent where
  /-- The start of a call, up to `listsendpays`. -/
  | lookUp (id : PayId) (env : CallAnswers) (req : TrampolinePayRequest)
  | prepare (id : PayId) (env : CallAnswers)
  /-- A connection for the next part, and its task. -/
  | spawn (id : PayId) (connect : Except String Unit)
  | sendpay (i : ℕ) (env : CallAnswers)
  /-- lightningd settles a part. -/
  | resolve (i : ℕ) (status : SendPayStatus)
  /-- Another command sends a part. -/
  | other (p : SendPay)
  | drop (id : PayId)
  | restart

namespace PayWorld

variable (build : Build) (ld : Lightningd)

def start : PayWorld := ⟨[], fun _ => none, [], fun _ => none⟩

def setPhase (w : PayWorld) (id : PayId) (ph : PayPhase) : PayWorld :=
  { w with calls := Function.update w.calls id (some ph) }

/-- The parts as `listsendpays` has them. -/
def sendPays (w : PayWorld) : List SendPay := w.payments.map SentPart.part

def step (w : PayWorld) : PayEvent → Option PayWorld
  | .lookUp id env req =>
    match w.calls id with
    | some _ => none
    | none =>
      match lookUp ld env req w.sendPays with
      | .error _ => some (w.setPhase id .ended)
      | .ok (nodeId, decoded, sendPays) =>
        if sendPays.any (·.status ≠ .failed) then some (w.setPhase id .ended)
        else
          let maxGroupId := maxGroupId w.sendPays decoded.paymentHash
          some (w.setPhase id (.preparing ⟨req, nodeId, decoded, maxGroupId, w.payments.length⟩))
  | .prepare id env =>
    match w.calls id with
    | some (.preparing a) =>
      match prepare build env a.req a.nodeId a.decoded a.maxGroupId with
      | .error _ => some (w.setPhase id .ended)
      | .ok prepared =>
        let plan : Plan := ⟨a, prepared⟩
        some { w.setPhase id (.spawning plan plan.parts) with plans := Function.update w.plans id (some plan) }
    | _ => none
  | .spawn id connect =>
    match w.calls id with
    | some (.spawning plan (part :: parts)) =>
      match connect with
      | .error _ => some (w.setPhase id .ended)
      | .ok _ => some { w.setPhase id (.spawning plan parts) with tasks := w.tasks ++ [⟨id, plan, part⟩] }
    | _ => none
  | .sendpay i env =>
    match w.tasks[i]? with
    | none => none
    | some t =>
      match sendPart env t.plan.req t.plan.nodeId t.plan.decoded t.plan.toPrepared t.part with
      | .error _ => some { w with tasks := w.tasks.eraseIdx i }
      | .ok p => some { w with tasks := w.tasks.eraseIdx i, payments := w.payments ++ [⟨some t, p⟩] }
  | .resolve i status =>
    match w.payments[i]? with
    | none => none
    | some s =>
      if s.part.status = .pending then
        some { w with payments := w.payments.set i { s with part := { s.part with status := status } } }
      else none
  | .other p => some { w with payments := w.payments ++ [⟨none, p⟩] }
  | .drop id =>
    match w.calls id with
    | none => none
    | some _ => some (w.setPhase id .ended) -- the tasks go on
  | .restart => some { w with calls := fun id => (w.calls id).map fun _ => .ended, tasks := [] }

variable {build} {ld} {w w' : PayWorld} {e : PayEvent} {es : List PayEvent}

inductive StepOutcome (build : Build) (ld : Lightningd) (w : PayWorld) : PayEvent → PayWorld → Prop where
  | ended {e : PayEvent} (id : PayId) : StepOutcome build ld w e (w.setPhase id .ended)
  | lookedUp {id : PayId} {env : CallAnswers} {a : LookedUp} {sendPays : List SendPay} (hid : w.calls id = none)
      (hlook : lookUp ld env a.req w.sendPays = .ok (a.nodeId, a.decoded, sendPays))
      (hfailed : ∀ p ∈ w.sendPays, p.paymentHash = a.decoded.paymentHash → p.status = .failed)
      (hmax : a.maxGroupId = maxGroupId w.sendPays a.decoded.paymentHash) (hseen : a.seen = w.payments.length) :
      StepOutcome build ld w (.lookUp id env a.req) (w.setPhase id (.preparing a))
  | prepared {id : PayId} {env : CallAnswers} {plan : Plan} (hid : w.calls id = some (.preparing plan.toLookedUp))
      (hplan : prepare build env plan.req plan.nodeId plan.decoded plan.maxGroupId = .ok plan.toPrepared) :
      StepOutcome build ld w (.prepare id env)
        { w.setPhase id (.spawning plan plan.parts) with plans := Function.update w.plans id (some plan) }
  | spawned {id : PayId} {connect : Except String Unit} {plan : Plan} {part : ChannelContribution × ℕ}
      {parts : List (ChannelContribution × ℕ)} (hid : w.calls id = some (.spawning plan (part :: parts))) :
      StepOutcome build ld w (.spawn id connect)
        { w.setPhase id (.spawning plan parts) with tasks := w.tasks ++ [⟨id, plan, part⟩] }
  | refused {i : ℕ} {env : CallAnswers} :
      StepOutcome build ld w (.sendpay i env) { w with tasks := w.tasks.eraseIdx i }
  | sent {i : ℕ} {env : CallAnswers} {t : PartTask} {p : SendPay} (hi : w.tasks[i]? = some t)
      (hp : p.paymentHash = t.plan.decoded.paymentHash ∧ p.groupid = t.plan.groupId ∧ p.partid = t.part.2) :
      StepOutcome build ld w (.sendpay i env)
        { w with tasks := w.tasks.eraseIdx i, payments := w.payments ++ [⟨some t, p⟩] }
  | resolved {i : ℕ} {s : SentPart} (status : SendPayStatus) (hi : w.payments[i]? = some s)
      (hs : s.part.status = .pending) :
      StepOutcome build ld w (.resolve i status)
        { w with payments := w.payments.set i { s with part := { s.part with status := status } } }
  | other (p : SendPay) : StepOutcome build ld w (.other p) { w with payments := w.payments ++ [⟨none, p⟩] }
  | restart : StepOutcome build ld w .restart
      { w with calls := fun id => (w.calls id).map fun _ => .ended, tasks := [] }

theorem step_outcome (h : w.step build ld e = some w') : StepOutcome build ld w e w' := by
  cases e with
  | lookUp id env req =>
    simp only [step] at h
    split at h
    · cases h
    · rename_i hid
      split at h
      · cases h
        exact .ended id
      · rename_i nodeId decoded sendPays hlook
        split_ifs at h with hany
        · cases h
          exact .ended id
        · cases h
          obtain ⟨-, -, -, -, hpays⟩ := lookUp_eq_ok.1 hlook
          refine @StepOutcome.lookedUp build ld w id env ⟨req, nodeId, decoded, _, _⟩ _ hid hlook
            (fun p hp hhash => ?_) rfl rfl
          have hmem : p ∈ sendPays := hpays ▸ List.mem_filter.2 ⟨hp, by simpa using hhash⟩
          -- a payment that has not failed would have ended the call here
          by_contra hne
          exact hany (List.any_eq_true.2 ⟨p, hmem, by simpa using hne⟩)
  | prepare id env =>
    simp only [step] at h
    split at h
    · rename_i a hid
      split at h
      · cases h
        exact .ended id
      · rename_i prepared hplan
        cases h
        exact @StepOutcome.prepared build ld w id env ⟨a, prepared⟩ hid hplan
    · cases h
  | spawn id connect =>
    simp only [step] at h
    split at h
    · rename_i hid
      split at h
      · cases h
        exact .ended id
      · cases h
        exact .spawned hid
    · cases h
  | sendpay i env =>
    simp only [step] at h
    split at h
    · cases h
    · rename_i t hi
      split at h
      · cases h
        exact .refused
      · rename_i p hp
        cases h
        exact .sent hi (sendPart_eq_ok hp)
  | resolve i status =>
    simp only [step] at h
    split at h
    · cases h
    · rename_i s hi
      split_ifs at h with hs
      cases h
      exact .resolved status hi hs
  | other p =>
    cases h
    exact .other p
  | drop id =>
    simp only [step] at h
    split at h
    · cases h
    · cases h
      exact .ended id
  | restart =>
    cases h
    exact .restart

/-! ### A call by itself -/

variable (build ld) in
theorem exists_run_spawn {id : PayId} {plan : Plan} (env : CallAnswers) (parts : List (ChannelContribution × ℕ)) :
    ∀ {w : PayWorld}, w.calls id = some (.spawning plan parts) → ∃ es w', Run (step build ld) w es w' ∧
      w'.payments = w.payments ∧ w'.tasks = w.tasks ++
        (parts.takeWhile fun part => (env.partConnect part.2).toOption.isSome).map fun part => ⟨id, plan, part⟩ := by
  induction parts with
  | nil =>
    intro w _
    exact ⟨[], w, rfl, rfl, by simp⟩
  | cons part parts ih =>
    intro w hid
    -- the first part without a connection ends the call, and leaves the parts behind it
    cases hconnect : env.partConnect part.2 with
    | error e =>
      refine ⟨[.spawn id (env.partConnect part.2)], w.setPhase id .ended, run_singleton.2 ?_, rfl, ?_⟩
      · simp only [step, hid, hconnect]
      · simp [hconnect, Except.toOption, setPhase]
    | ok u =>
      obtain ⟨es, w', hr, hpayments, htasks⟩ := ih (w := { w.setPhase id (.spawning plan parts) with
        tasks := w.tasks ++ [⟨id, plan, part⟩] }) (Function.update_self _ _ _)
      refine ⟨.spawn id (env.partConnect part.2) :: es, w', run_cons.2 ⟨_, ?_, hr⟩, hpayments, ?_⟩
      · simp only [step, hid, hconnect]
      · rw [htasks]
        simp [hconnect, Except.toOption]

variable (build ld) in
theorem exists_run_sendpay {id : PayId} {plan : Plan} (env : CallAnswers)
    (parts : List (ChannelContribution × ℕ)) :
    ∀ {w : PayWorld}, w.tasks = (parts.map fun part => ⟨id, plan, part⟩) → ∃ es w', Run (step build ld) w es w' ∧
      w'.tasks = [] ∧ w'.sendPays = w.sendPays ++ (parts.map (sendPart env plan.req plan.nodeId plan.decoded
        plan.toPrepared)).filterMap Except.toOption := by
  induction parts with
  | nil =>
    intro w htasks
    exact ⟨[], w, rfl, htasks, by simp⟩
  | cons part parts ih =>
    intro w htasks
    have hfirst : w.tasks[0]? = some ⟨id, plan, part⟩ := by simp [htasks]
    have hrest : w.tasks.eraseIdx 0 = parts.map fun part => ⟨id, plan, part⟩ := by simp [htasks]
    cases hsend : sendPart env plan.req plan.nodeId plan.decoded plan.toPrepared part with
    | error e =>
      obtain ⟨es, w', hr, hnone, hsent⟩ := ih (w := { w with tasks := w.tasks.eraseIdx 0 }) hrest
      refine ⟨.sendpay 0 env :: es, w', run_cons.2 ⟨_, ?_, hr⟩, hnone, ?_⟩
      · simp only [step, hfirst, hsend]
      · rw [hsent, List.map_cons, List.filterMap_cons, hsend]
        rfl
    | ok p =>
      obtain ⟨es, w', hr, hnone, hsent⟩ := ih (w := { w with
        tasks := w.tasks.eraseIdx 0, payments := w.payments ++ [⟨some ⟨id, plan, part⟩, p⟩] }) hrest
      refine ⟨.sendpay 0 env :: es, w', run_cons.2 ⟨_, ?_, hr⟩, hnone, ?_⟩
      · simp only [step, hfirst, hsend]
      · rw [hsent, List.map_cons, List.filterMap_cons, hsend]
        simp [sendPays, Except.toOption]

theorem sendParts_snd (env : CallAnswers) (req : TrampolinePayRequest) (payments : List SendPay) (nodeId : PublicKey)
    (decoded : Decodepay) (plan : Prepared) :
    (sendParts ld env req payments nodeId decoded plan).2 =
      (((plan.alloc.zip (partIds plan.alloc.length)).takeWhile fun part =>
        (env.partConnect part.2).toOption.isSome).map (sendPart env req nodeId decoded plan)).filterMap
          Except.toOption := by
  simp only [sendParts]
  split <;> rfl

/-- **One call by itself.**  A call that nothing comes between sends what `trampolinepay` sends. -/
theorem exists_run_trampolinepay {id : PayId} {env : CallAnswers} {req : TrampolinePayRequest}
    (hid : w.calls id = none) (htasks : w.tasks = []) : ∃ es w', Run (step build ld) w es w' ∧ w'.tasks = [] ∧
      w'.sendPays = w.sendPays ++ (trampolinepay build ld env req w.sendPays).2 := by
  cases hlook : lookUp ld env req w.sendPays with
  | error e =>
    refine ⟨[.lookUp id env req], w.setPhase id .ended, run_singleton.2 ?_, htasks, ?_⟩
    · simp only [step, hid, hlook]
    · simp only [trampolinepay, hlook, List.append_nil]
      rfl
  | ok found =>
    obtain ⟨nodeId, decoded, pays⟩ := found
    by_cases hany : pays.any (·.status ≠ .failed)
    · refine ⟨[.lookUp id env req], w.setPhase id .ended, run_singleton.2 ?_, htasks, ?_⟩
      · simp only [step, hid, hlook, hany, if_true]
      · simp only [trampolinepay, hlook, hany, if_true, List.append_nil]
        rfl
    obtain ⟨w₁, hfirst, hid₁, hpayments₁, htasks₁⟩ : ∃ w₁, w.step build ld (.lookUp id env req) = some w₁ ∧
        w₁.calls id = some (.preparing ⟨req, nodeId, decoded, maxGroupId w.sendPays decoded.paymentHash,
          w.payments.length⟩) ∧ w₁.payments = w.payments ∧ w₁.tasks = [] := by
      refine ⟨w.setPhase id _, ?_, Function.update_self _ _ _, rfl, htasks⟩
      simp only [step, hid, hlook, if_neg hany]
    cases hprepare : prepare build env req nodeId decoded (maxGroupId w.sendPays decoded.paymentHash) with
    | error e =>
      refine ⟨[.lookUp id env req, .prepare id env], w₁.setPhase id .ended,
        run_cons.2 ⟨w₁, hfirst, run_singleton.2 ?_⟩, htasks₁, ?_⟩
      · simp only [step, hid₁, hprepare]
      · simp only [trampolinepay, hlook, if_neg hany, hprepare, List.append_nil]
        exact congrArg (List.map SentPart.part) hpayments₁
    | ok prepared =>
      obtain ⟨plan, hplan⟩ : ∃ plan : Plan, plan = ⟨⟨req, nodeId, decoded,
        maxGroupId w.sendPays decoded.paymentHash, w.payments.length⟩, prepared⟩ := ⟨_, rfl⟩
      obtain ⟨w₂, hsecond, hid₂, hpayments₂, htasks₂⟩ : ∃ w₂, w₁.step build ld (.prepare id env) = some w₂ ∧
          w₂.calls id = some (.spawning plan plan.parts) ∧ w₂.payments = w₁.payments ∧ w₂.tasks = [] := by
        refine ⟨{ w₁.setPhase id _ with plans := Function.update w₁.plans id (some plan) }, ?_,
          Function.update_self _ _ _, rfl, htasks₁⟩
        simp only [step, hid₁, hprepare, hplan]
      obtain ⟨es, w₃, hspawn, hpayments₃, htasks₃⟩ := exists_run_spawn build ld env _ hid₂
      rw [htasks₂, List.nil_append] at htasks₃
      obtain ⟨fs, w₄, hsend, htasks₄, hsent⟩ := exists_run_sendpay build ld env _ htasks₃
      refine ⟨.lookUp id env req :: .prepare id env :: (es ++ fs), w₄, ?_, htasks₄, ?_⟩
      · exact run_cons.2 ⟨w₁, hfirst, run_cons.2 ⟨w₂, hsecond, run_append.2 ⟨w₃, hspawn, hsend⟩⟩⟩
      · have hbefore : w₃.sendPays = w.sendPays := by
          rw [sendPays, hpayments₃, hpayments₂, hpayments₁, sendPays]
        rw [hsent, hbefore, hplan]
        simp only [trampolinepay, hlook, if_neg hany, hprepare, sendParts_snd]
        rfl

/-! ### What a call has seen -/

/-- All parts of the payment that the call has seen have failed, in groups up to the latest one. -/
structure Clear (w : PayWorld) (a : LookedUp) : Prop where
  seen : a.seen ≤ w.payments.length
  failed : ∀ i s, w.payments[i]? = some s → i < a.seen → s.part.paymentHash = a.decoded.paymentHash →
    s.part.status = .failed ∧ s.part.groupid ≤ a.maxGroupId
  latest : a.maxGroupId = 0 ∨ ∃ i s, w.payments[i]? = some s ∧ i < a.seen ∧
    s.part.paymentHash = a.decoded.paymentHash ∧ s.part.groupid = a.maxGroupId

theorem Clear.append {a : LookedUp} (h : w.Clear a) {new : List SentPart}
    (hw : w'.payments = w.payments ++ new) : w'.Clear a where
  seen := by
    rw [hw, List.length_append]
    exact h.seen.trans (Nat.le_add_right _ _)
  failed i s hi hseen := by
    rw [hw, List.getElem?_append_left (hseen.trans_le h.seen)] at hi
    exact h.failed i s hi hseen
  latest := h.latest.imp_right fun ⟨i, s, hi, hseen, hpart⟩ =>
    ⟨i, s, by rwa [hw, List.getElem?_append_left (hseen.trans_le h.seen)], hseen, hpart⟩

theorem Clear.resolved {a : LookedUp} (h : w.Clear a) {i : ℕ} {s : SentPart} (hi : w.payments[i]? = some s)
    (hs : s.part.status = .pending) {status : SendPayStatus}
    (hw : w'.payments = w.payments.set i { s with part := { s.part with status := status } }) : w'.Clear a where
  seen := by
    rw [hw, List.length_set]
    exact h.seen
  failed j s' hj hseen hhash := by
    rw [hw] at hj
    -- what the call has seen is failed, and only what is pending is resolved
    rcases eq_or_ne i j with rfl | hne
    · obtain ⟨hlt, rfl⟩ : i < w.payments.length ∧ _ = s' := by simpa [List.getElem?_set] using hj
      have hfailed := (h.failed i s hi hseen hhash).1
      rw [hs] at hfailed
      cases hfailed
    · rw [List.getElem?_set_ne hne] at hj
      exact h.failed j s' hj hseen hhash
  latest := h.latest.imp_right fun ⟨j, s', hj, hseen, hhash, hgroup⟩ => by
    have hne : i ≠ j := by
      rintro rfl
      obtain rfl := Option.some.inj (hj.symm.trans hi)
      cases hs.symm.trans (h.failed i s' hj hseen hhash).1
    exact ⟨j, s', by rwa [hw, List.getElem?_set_ne hne], hseen, hhash, hgroup⟩

theorem clear_step {a : LookedUp} (hclear : w.Clear a) (h : w.step build ld e = some w') : w'.Clear a := by
  cases step_outcome h with
  | resolved status hi hs => exact hclear.resolved hi hs rfl
  | sent hi hp => exact hclear.append rfl
  | other p => exact hclear.append rfl
  | ended id => exact ⟨hclear.seen, hclear.failed, hclear.latest⟩
  | lookedUp hid hlook hfailed hmax hseen => exact ⟨hclear.seen, hclear.failed, hclear.latest⟩
  | prepared hid hplan => exact ⟨hclear.seen, hclear.failed, hclear.latest⟩
  | spawned hid => exact ⟨hclear.seen, hclear.failed, hclear.latest⟩
  | refused => exact ⟨hclear.seen, hclear.failed, hclear.latest⟩
  | restart => exact ⟨hclear.seen, hclear.failed, hclear.latest⟩

/-- A call that goes on has seen nothing else. -/
theorem clear_of_lookedUp {a : LookedUp}
    (hfailed : ∀ p ∈ w.sendPays, p.paymentHash = a.decoded.paymentHash → p.status = .failed)
    (hmax : a.maxGroupId = maxGroupId w.sendPays a.decoded.paymentHash) (hseen : a.seen = w.payments.length) :
    w.Clear a where
  seen := hseen.le
  failed i s hi _ hhash := by
    have hmem : s.part ∈ w.sendPays := List.mem_map_of_mem (List.mem_of_getElem? hi)
    refine ⟨hfailed _ hmem hhash, ?_⟩
    rw [hmax]
    exact groupid_le_maxGroupId (List.mem_filter.2 ⟨hmem, by simpa using hhash⟩)
  latest := by
    rw [hmax]
    refine maxGroupId_eq_zero_or.imp_right fun ⟨p, hp, hhash, hgroup⟩ => ?_
    obtain ⟨s, hs, rfl⟩ := List.mem_map.1 hp
    obtain ⟨i, hi⟩ := List.mem_iff_getElem?.1 hs
    exact ⟨i, s, hi, hseen ▸ (List.getElem?_eq_some_iff.1 hi).1, hhash, hgroup⟩

/-! ### What a call sends -/

def senders (w : PayWorld) : List PartTask := w.payments.filterMap SentPart.sender

def partsOf (id : PayId) (tasks : List PartTask) : List (ChannelContribution × ℕ) :=
  (tasks.filter (·.call = id)).map PartTask.part

/-- The parts that the call still spawns. -/
def unspawned (w : PayWorld) (id : PayId) : List (ChannelContribution × ℕ) :=
  match w.calls id with
  | some (.spawning _ parts) => parts
  | _ => []

/-- The parts of a call, each of them sent, or with a task, or not spawned. -/
def allParts (w : PayWorld) (id : PayId) : List (ChannelContribution × ℕ) :=
  partsOf id (w.senders ++ w.tasks) ++ w.unspawned id

theorem of_calls_setPhase {id id' : PayId} {ph ph' : PayPhase} (h : (w.setPhase id ph).calls id' = some ph') :
    id' = id ∧ ph' = ph ∨ id' ≠ id ∧ w.calls id' = some ph' := by
  by_cases hne : id' = id
  · subst hne
    exact Or.inl ⟨rfl, Option.some.inj (h.symm.trans (Function.update_self _ _ _))⟩
  · exact Or.inr ⟨hne, (Function.update_of_ne hne _ _).symm.trans h⟩

theorem of_calls_setPhase_none {id id' : PayId} {ph : PayPhase} (h : (w.setPhase id ph).calls id' = none) :
    id' ≠ id ∧ w.calls id' = none := by
  by_cases hne : id' = id
  · subst hne
    cases (Function.update_self _ _ _).symm.trans h
  · exact ⟨hne, (Function.update_of_ne hne _ _).symm.trans h⟩

/-- The calls with a plan, and what they had seen when they made it. -/
structure Planned (build : Build) (w : PayWorld) : Prop where
  fresh : ∀ id, w.calls id = none → w.plans id = none
  looked : ∀ id a, w.calls id = some (.preparing a) → w.plans id = none ∧ w.Clear a
  spawning : ∀ id plan parts, w.calls id = some (.spawning plan parts) → w.plans id = some plan
  clear : ∀ id plan, w.plans id = some plan → w.Clear plan.toLookedUp
  prepared : ∀ id plan, w.plans id = some plan →
    ∃ env, prepare build env plan.req plan.nodeId plan.decoded plan.maxGroupId = .ok plan.toPrepared

theorem planned_start : start.Planned build where
  fresh _ _ := rfl
  looked _ _ h := by cases h
  spawning _ _ _ h := by cases h
  clear _ _ h := by cases h
  prepared _ _ h := by cases h

theorem Planned.frame (hw : w.Planned build) (hclear : ∀ {a}, w.Clear a → w'.Clear a) (hplans : w'.plans = w.plans)
    (hfresh : ∀ id, w'.calls id = none → w.calls id = none)
    (hlooked : ∀ id a, w'.calls id = some (.preparing a) →
      w.calls id = some (.preparing a) ∨ w.calls id = none ∧ w'.Clear a)
    (hspawning : ∀ id plan parts, w'.calls id = some (.spawning plan parts) →
      ∃ parts', w.calls id = some (.spawning plan parts')) : w'.Planned build where
  fresh id hid := by
    rw [hplans]
    exact hw.fresh id (hfresh id hid)
  looked id a hid := by
    rw [hplans]
    rcases hlooked id a hid with hid | ⟨hid, hclear'⟩
    · exact ⟨(hw.looked id a hid).1, hclear (hw.looked id a hid).2⟩
    · exact ⟨hw.fresh id hid, hclear'⟩
  spawning id plan parts hid := by
    rw [hplans]
    obtain ⟨parts', hid⟩ := hspawning id plan parts hid
    exact hw.spawning id plan parts' hid
  clear id plan hplan := hclear (hw.clear id plan (hplans ▸ hplan))
  prepared id plan hplan := hw.prepared id plan (hplans ▸ hplan)

/-- One call changes its phase, and makes no plan. -/
theorem Planned.setPhase {id : PayId} {ph : PayPhase} (hw : w.Planned build)
    (hclear : ∀ {a}, w.Clear a → w'.Clear a) (hplans : w'.plans = w.plans) (hcalls : w'.calls = (w.setPhase id ph).calls)
    (hlooked : ∀ a, ph = .preparing a → w.calls id = none ∧ w'.Clear a)
    (hspawning : ∀ plan parts, ph = .spawning plan parts → ∃ parts', w.calls id = some (.spawning plan parts')) :
    w'.Planned build := by
  refine hw.frame hclear hplans (fun id' hid' => ?_) (fun id' a hid' => ?_) fun id' plan parts hid' => ?_
  · rw [hcalls] at hid'
    exact (of_calls_setPhase_none hid').2
  · rw [hcalls] at hid'
    rcases of_calls_setPhase hid' with ⟨rfl, hph⟩ | ⟨-, hid'⟩
    · exact Or.inr (hlooked a hph.symm)
    · exact Or.inl hid'
  · rw [hcalls] at hid'
    rcases of_calls_setPhase hid' with ⟨rfl, hph⟩ | ⟨-, hid'⟩
    · exact hspawning plan parts hph.symm
    · exact ⟨parts, hid'⟩

theorem planned_step (hw : w.Planned build) (h : w.step build ld e = some w') : w'.Planned build := by
  have hkeep : ∀ {a : LookedUp}, w.Clear a → w'.Clear a := fun ha => clear_step ha h
  cases step_outcome h with
  | ended id => exact hw.setPhase hkeep rfl rfl nofun nofun
  | lookedUp hid hlook hfailed hmax hseen =>
    refine hw.setPhase hkeep rfl rfl (fun a ha => ?_) nofun
    cases ha
    exact ⟨hid, hkeep (clear_of_lookedUp hfailed hmax hseen)⟩
  | @prepared id env plan hid hplan =>
    have hplans : ∀ {id'}, id' ≠ id → Function.update w.plans id (some plan) id' = w.plans id' := fun hne =>
      Function.update_of_ne hne _ _
    -- only the plan of this call is new
    have hcases : ∀ {id' plan'}, Function.update w.plans id (some plan) id' = some plan' →
        id' = id ∧ plan' = plan ∨ w.plans id' = some plan' := by
      intro id' plan' hplan'
      rcases eq_or_ne id' id with rfl | hne
      · exact Or.inl ⟨rfl, Option.some.inj (hplan'.symm.trans (Function.update_self _ _ _))⟩
      · exact Or.inr ((hplans hne).symm.trans hplan')
    refine ⟨fun id' hid' => ?_, fun id' a hid' => ?_, fun id' plan' parts hid' => ?_, fun id' plan' hplan' => ?_,
      fun id' plan' hplan' => ?_⟩
    · obtain ⟨hne, hid'⟩ := of_calls_setPhase_none hid'
      exact (hplans hne).trans (hw.fresh id' hid')
    · rcases of_calls_setPhase hid' with ⟨-, hph⟩ | ⟨hne, hid'⟩
      · cases hph
      · exact ⟨(hplans hne).trans (hw.looked id' a hid').1, hkeep (hw.looked id' a hid').2⟩
    · rcases of_calls_setPhase hid' with ⟨rfl, hph⟩ | ⟨hne, hid'⟩
      · cases hph
        exact Function.update_self _ _ _
      · exact (hplans hne).trans (hw.spawning id' plan' parts hid')
    · rcases hcases hplan' with ⟨rfl, rfl⟩ | hplan'
      · exact hkeep (hw.looked _ _ hid).2
      · exact hkeep (hw.clear id' plan' hplan')
    · rcases hcases hplan' with ⟨rfl, rfl⟩ | hplan'
      · exact ⟨env, hplan⟩
      · exact hw.prepared id' plan' hplan'
  | spawned hid =>
    refine hw.setPhase hkeep rfl rfl nofun fun plan parts hph => ?_
    cases hph
    exact ⟨_, hid⟩
  | restart =>
    refine hw.frame hkeep rfl (fun id' hid' => Option.map_eq_none_iff.1 hid') (fun id' a hid' => ?_)
      fun id' plan parts hid' => ?_
    · obtain ⟨_, _, hph⟩ := Option.map_eq_some_iff.1 hid'
      cases hph
    · obtain ⟨_, _, hph⟩ := Option.map_eq_some_iff.1 hid'
      cases hph
  | _ =>
    exact hw.frame hkeep rfl (fun _ hid => hid) (fun _ _ hid => Or.inl hid) fun _ _ parts hid => ⟨parts, hid⟩

/-! ### The parts of a call -/

theorem senders_append (l new : List SentPart) (calls : PayId → Option PayPhase) (tasks : List PartTask)
    (plans : PayId → Option Plan) :
    senders ⟨l ++ new, calls, tasks, plans⟩ = l.filterMap SentPart.sender ++ new.filterMap SentPart.sender :=
  List.filterMap_append

theorem filterMap_sender_set {l : List SentPart} {i : ℕ} {s : SentPart} (hi : l[i]? = some s) (p : SendPay) :
    (l.set i { s with part := p }).filterMap SentPart.sender = l.filterMap SentPart.sender := by
  induction l generalizing i with
  | nil => rfl
  | cons x l ih =>
    cases i with
    | zero =>
      obtain rfl := Option.some.inj hi
      rfl
    | succ i =>
      have hi' : l[i]? = some s := by simpa using hi
      rw [List.set_cons_succ, List.filterMap_cons, List.filterMap_cons, ih hi']

theorem partsOf_append (id : PayId) (l l' : List PartTask) :
    partsOf id (l ++ l') = partsOf id l ++ partsOf id l' := by
  simp [partsOf]

theorem unspawned_setPhase_of_ne {id id' : PayId} (ph : PayPhase) (h : id' ≠ id) :
    (w.setPhase id ph).unspawned id' = w.unspawned id' := by
  simp only [unspawned, setPhase, Function.update_of_ne h]

theorem unspawned_setPhase_self (w : PayWorld) (id : PayId) (ph : PayPhase) :
    (w.setPhase id ph).unspawned id = match ph with
      | .spawning _ parts => parts
      | _ => [] := by
  simp only [unspawned, setPhase, Function.update_self]
  cases ph <;> rfl

/-- The tasks are those of the plans, and each part of a plan is sent at most once. -/
structure Sends (w : PayWorld) : Prop where
  tasks : ∀ t ∈ w.senders ++ w.tasks, w.plans t.call = some t.plan
  sent : ∀ s ∈ w.payments, ∀ t, s.sender = some t →
    s.part.paymentHash = t.plan.decoded.paymentHash ∧ s.part.groupid = t.plan.groupId ∧ s.part.partid = t.part.2
  parts : ∀ id plan, w.plans id = some plan → (w.allParts id).Subperm plan.parts

theorem sends_start : start.Sends where
  tasks _ ht := by cases ht
  sent _ hs := by cases hs
  parts _ _ h := by cases h

theorem Sends.frame (hw : w.Sends) (hplans : w'.plans = w.plans)
    (htasks : ∀ t ∈ w'.senders ++ w'.tasks, w.plans t.call = some t.plan)
    (hsent : ∀ s ∈ w'.payments, ∀ t, s.sender = some t →
      s.part.paymentHash = t.plan.decoded.paymentHash ∧ s.part.groupid = t.plan.groupId ∧ s.part.partid = t.part.2)
    (hparts : ∀ id, (w'.allParts id).Subperm (w.allParts id)) : w'.Sends where
  tasks := by
    rw [hplans]
    exact htasks
  sent := hsent
  parts id plan hplan := (hparts id).trans (hw.parts id plan (hplans ▸ hplan))

theorem partsOf_subperm (id : PayId) {l l' : List PartTask} (h : l.Subperm l') :
    (partsOf id l).Subperm (partsOf id l') := by
  obtain ⟨l₀, hperm, hsub⟩ := h.filter (·.call = id)
  exact ⟨_, hperm.map PartTask.part, hsub.map PartTask.part⟩

/-- The parts that are sent or have a task come from tasks that were there. -/
theorem allParts_subperm_of_tasks {id : PayId} (htasks : (w'.senders ++ w'.tasks).Subperm (w.senders ++ w.tasks))
    (hun : w'.unspawned id = w.unspawned id) : (w'.allParts id).Subperm (w.allParts id) := by
  rw [allParts, allParts, hun]
  exact List.Subperm.append (partsOf_subperm id htasks) (List.Subperm.refl _)

theorem allParts_setPhase_subperm (w : PayWorld) (id id' : PayId) {ph : PayPhase}
    (hph : ∀ plan parts, ph ≠ .spawning plan parts) :
    ((w.setPhase id ph).allParts id').Subperm (w.allParts id') := by
  have htasks : partsOf id' ((w.setPhase id ph).senders ++ (w.setPhase id ph).tasks) =
      partsOf id' (w.senders ++ w.tasks) := rfl
  rw [allParts, allParts, htasks]
  rcases eq_or_ne id' id with rfl | hne
  · have hnil : (w.setPhase id' ph).unspawned id' = [] := by
      rw [unspawned_setPhase_self]
      cases ph with
      | spawning plan parts => exact absurd rfl (hph plan parts)
      | _ => rfl
    rw [hnil, List.append_nil]
    exact (List.sublist_append_left _ _).subperm
  · rw [unspawned_setPhase_of_ne ph hne]

theorem partsOf_eq_nil {id : PayId} (hw : w.Sends) (hnone : w.plans id = none) :
    (∀ t ∈ w.senders ++ w.tasks, t.call ≠ id) ∧ partsOf id (w.senders ++ w.tasks) = [] := by
  have hother : ∀ t ∈ w.senders ++ w.tasks, t.call ≠ id := by
    rintro t ht rfl
    cases hnone.symm.trans (hw.tasks t ht)
  refine ⟨hother, ?_⟩
  rw [partsOf, List.filter_eq_nil_iff.2 fun t ht => by simpa using hother t ht, List.map_nil]

theorem sends_step (hplanned : w.Planned build) (hw : w.Sends) (h : w.step build ld e = some w') : w'.Sends := by
  cases step_outcome h with
  | ended id =>
    exact hw.frame rfl hw.tasks hw.sent fun id' => allParts_setPhase_subperm w id id' fun _ _ hph => by cases hph
  | @lookedUp id env a sendPays hid hlook hfailed hmax hseen =>
    exact hw.frame rfl hw.tasks hw.sent fun id' => allParts_setPhase_subperm w id id' fun _ _ hph => by cases hph
  | @prepared id env plan hid hplan =>
    obtain ⟨hother, hnil⟩ := partsOf_eq_nil hw (hplanned.looked id _ hid).1
    refine ⟨fun t ht => ?_, hw.sent, fun id' plan' hplan' => ?_⟩
    · exact (Function.update_of_ne (hother t ht) _ _).trans (hw.tasks t ht)
    · rcases eq_or_ne id' id with rfl | hne
      · have hself : Function.update w.plans id' (some plan) id' = some plan' := hplan'
        rw [Function.update_self] at hself
        obtain rfl : plan = plan' := Option.some.inj hself
        have hall : allParts { w.setPhase id' (.spawning plan plan.parts) with
            plans := Function.update w.plans id' (some plan) } id' = [] ++ plan.parts := by
          rw [← hnil]
          exact congrArg _ (unspawned_setPhase_self w id' _)
        rw [hall, List.nil_append]
      · have hun : (w.setPhase id (.spawning plan plan.parts)).unspawned id' = w.unspawned id' :=
          unspawned_setPhase_of_ne _ hne
        refine List.Subperm.trans ?_ (hw.parts id' plan' ((Function.update_of_ne hne _ _).symm.trans hplan'))
        exact allParts_subperm_of_tasks (List.Subperm.refl _) hun
  | @spawned id connect plan part parts hid =>
    refine hw.frame rfl (fun t ht => ?_) hw.sent fun id' => ?_
    · rcases List.mem_append.1 ht with ht | ht
      · exact hw.tasks t (List.mem_append_left _ ht)
      · rcases List.mem_append.1 ht with ht | ht
        · exact hw.tasks t (List.mem_append_right _ ht)
        · obtain rfl := List.mem_singleton.1 ht
          exact hplanned.spawning id plan _ hid
    · -- the part moves from those that are not spawned to the tasks
      have htasks : partsOf id' (w.senders ++ (w.tasks ++ [⟨id, plan, part⟩])) =
          partsOf id' (w.senders ++ w.tasks) ++ partsOf id' [⟨id, plan, part⟩] := by
        rw [← List.append_assoc, partsOf_append]
      have hall : allParts { w.setPhase id (.spawning plan parts) with tasks := w.tasks ++ [⟨id, plan, part⟩] } id' =
          partsOf id' (w.senders ++ w.tasks) ++ partsOf id' [⟨id, plan, part⟩] ++
            (w.setPhase id (.spawning plan parts)).unspawned id' := by
        rw [← htasks]
        rfl
      rw [hall]
      rcases eq_or_ne id' id with rfl | hne
      · have hself : w.unspawned id' = part :: parts := by simp only [unspawned, hid]
        rw [unspawned_setPhase_self, allParts, hself]
        simp [partsOf, List.Subperm.refl]
      · have hnil : partsOf id' [⟨id, plan, part⟩] = [] := by simp [partsOf, hne.symm]
        rw [hnil, List.append_nil, unspawned_setPhase_of_ne _ hne, allParts]
  | @refused i env =>
    have htasks : (w.senders ++ w.tasks.eraseIdx i).Sublist (w.senders ++ w.tasks) :=
      (List.Sublist.refl _).append (List.eraseIdx_sublist _ _)
    exact hw.frame rfl (fun t ht => hw.tasks t (htasks.subset ht)) hw.sent fun id' =>
      allParts_subperm_of_tasks htasks.subperm rfl
  | @sent i env t p hi hp =>
    -- the task is now that of a part
    have htasks : ((w.senders ++ [t]) ++ w.tasks.eraseIdx i).Perm (w.senders ++ w.tasks) := by
      obtain ⟨hlt, rfl⟩ := List.getElem?_eq_some_iff.1 hi
      rw [List.append_assoc]
      exact (List.getElem_cons_eraseIdx_perm hlt).append_left _
    have hsenders : senders { w with tasks := w.tasks.eraseIdx i, payments := w.payments ++ [⟨some t, p⟩] } =
        w.senders ++ [t] := senders_append _ _ _ _ _
    refine hw.frame rfl (fun t' ht' => ?_) (fun s hs t' hs' => ?_) fun id' => ?_
    · rw [hsenders] at ht'
      exact hw.tasks t' (htasks.subset ht')
    · rcases List.mem_append.1 hs with hs | hs
      · exact hw.sent s hs t' hs'
      · obtain rfl := List.mem_singleton.1 hs
        obtain rfl := Option.some.inj hs'
        exact hp
    · refine allParts_subperm_of_tasks ?_ rfl
      rw [hsenders]
      exact htasks.subperm
  | @resolved i s status hi hs =>
    have hsenders : (w.payments.set i { s with part := { s.part with status := status } }).filterMap
        SentPart.sender = w.senders := filterMap_sender_set hi _
    refine hw.frame rfl (fun t ht => hw.tasks t ?_) (fun s' hs' t ht => ?_) fun id' => ?_
    · rw [← hsenders]
      exact ht
    · rcases List.mem_or_eq_of_mem_set hs' with hs' | rfl
      · exact hw.sent s' hs' t ht
      · exact hw.sent s (List.mem_of_getElem? hi) t ht
    · refine allParts_subperm_of_tasks ?_ rfl
      rw [← hsenders]
      exact List.Subperm.refl _
  | other p =>
    have hsenders : senders { w with payments := w.payments ++ [⟨none, p⟩] } = w.senders := by
      rw [senders_append]
      exact List.append_nil _
    refine hw.frame rfl (fun t ht => ?_) (fun s hs t hs' => ?_) fun id' => ?_
    · rw [hsenders] at ht
      exact hw.tasks t ht
    · rcases List.mem_append.1 hs with hs | hs
      · exact hw.sent s hs t hs'
      · obtain rfl := List.mem_singleton.1 hs
        cases hs'
    · refine allParts_subperm_of_tasks ?_ rfl
      rw [hsenders]
  | restart =>
    refine hw.frame rfl (fun t ht => hw.tasks t ?_) hw.sent fun id' => ?_
    · rcases List.mem_append.1 ht with ht | ht
      · exact List.mem_append_left _ ht
      · cases ht
    · have hun : unspawned { w with calls := fun id => (w.calls id).map fun _ => .ended, tasks := [] } id' = [] := by
        simp only [unspawned]
        split
        · rename_i hph
          obtain ⟨_, _, hph⟩ := Option.map_eq_some_iff.1 hph
          cases hph
        · rfl
      rw [allParts, hun, List.append_nil]
      exact (partsOf_subperm id' ((List.Sublist.refl _).append (List.nil_sublist _)).subperm).trans
        (List.sublist_append_left _ _).subperm

/-! ### Every run -/

theorem inv_of_run (hr : Run (step build ld) start es w) : w.Planned build ∧ w.Sends :=
  Run.invariant (I := fun w => w.Planned build ∧ w.Sends)
    (fun h hstep => ⟨planned_step h.1 hstep, sends_step h.1 h.2 hstep⟩) hr ⟨planned_start, sends_start⟩

/-- The group of a plan is later than those that the call has seen, unless there is none. -/
theorem Clear.later {plan : Plan} (hclear : w.Clear plan.toLookedUp)
    (hgroup : addU64 build plan.maxGroupId 1 = some plan.groupId) {i : ℕ} {s : SentPart}
    (hi : w.payments[i]? = some s) (hseen : i < plan.seen) (hhash : s.part.paymentHash = plan.decoded.paymentHash) :
    s.part.groupid < plan.groupId ∨ ∃ j s', w.payments[j]? = some s' ∧ j < plan.seen ∧
      s'.part.paymentHash = plan.decoded.paymentHash ∧ s'.part.groupid.toNat + 1 = UInt64.size := by
  rw [addU64_eq_some hgroup]
  by_cases hnext : plan.maxGroupId < plan.maxGroupId + 1
  · exact Or.inl ((hclear.failed i s hi hseen hhash).2.trans_lt hnext)
  · -- the latest group that the call has seen is the last word
    have hlast : plan.maxGroupId.toNat + 1 = UInt64.size := by
      have hword := plan.maxGroupId.toNat_lt
      rw [lt_add_one_iff] at hnext
      simp only [UInt64.size] at hnext ⊢
      omega
    rcases hclear.latest with hzero | ⟨j, s', hj, hseen', hhash', hlatest⟩
    · rw [hzero] at hlast
      cases hlast
    · exact Or.inr ⟨j, s', hj, hseen', hhash', hlatest ▸ hlast⟩

def payEnv : CallAnswers := payAnswers twoChannels .pending

theorem prepare_payEnv {maxGroupId groupId : UInt64} (hgroup : addU64 .debug maxGroupId 1 = some groupId) :
    prepare .debug payEnv payRequest payRequest.trampolineNodeId payInvoice maxGroupId =
      .ok ⟨200, 201, [⟨⟨"1x1x1", 120, 1⟩, 120⟩, ⟨⟨"2x1x1", 150, 1⟩, 81⟩], groupId⟩ :=
  prepare_payRequest rfl allocate_twoChannels hgroup

theorem step_prepare {id : PayId} {env : CallAnswers} {a : LookedUp} {prepared : Prepared}
    (hid : w.calls id = some (.preparing a))
    (hplan : prepare build env a.req a.nodeId a.decoded a.maxGroupId = .ok prepared) :
    w.step build ld (.prepare id env) = some { w.setPhase id (.spawning ⟨a, prepared⟩
      (prepared.alloc.zip (partIds prepared.alloc.length))) with
        plans := Function.update w.plans id (some ⟨a, prepared⟩) } := by
  simp only [step, hid, hplan]
  rfl

def failedRun : List PayEvent :=
  [.lookUp 0 payEnv payRequest, .prepare 0 payEnv, .spawn 0 (.ok ()), .spawn 0 (.ok ()), .sendpay 0 payEnv,
    .sendpay 0 payEnv, .resolve 0 .failed, .resolve 1 .failed]

/-- Two more calls, which look before either of them sends. -/
def overlapRun : List PayEvent :=
  [.lookUp 1 payEnv payRequest, .lookUp 2 payEnv payRequest, .prepare 1 payEnv, .prepare 2 payEnv, .spawn 1 (.ok ()),
    .spawn 2 (.ok ()), .spawn 1 (.ok ()), .spawn 2 (.ok ()), .sendpay 0 payEnv, .sendpay 0 payEnv, .sendpay 0 payEnv,
    .sendpay 0 payEnv]

def partCalls (payments : List SentPart) : List (Option PayId × SendPay) :=
  payments.map fun s => (s.sender.map PartTask.call, s.part)

theorem run_overlapRun : ∃ w, Run (step .debug plainLightningd) start (failedRun ++ overlapRun) w ∧
    partCalls w.payments = [(some 0, payPart 1 1 .failed), (some 0, payPart 1 2 .failed),
      (some 1, payPart 2 1 .pending), (some 2, payPart 2 1 .pending), (some 1, payPart 2 2 .pending),
      (some 2, payPart 2 2 .pending)] := by
  have hfirst : addU64 .debug 0 1 = some 1 := rfl
  have hsecond : addU64 .debug 1 1 = some 2 := rfl
  exact ⟨_, run_cons.2 ⟨_, rfl, run_cons.2 ⟨_, step_prepare rfl (prepare_payEnv hfirst), run_cons.2 ⟨_, rfl,
    run_cons.2 ⟨_, rfl, run_cons.2 ⟨_, rfl, run_cons.2 ⟨_, rfl, run_cons.2 ⟨_, rfl, run_cons.2 ⟨_, rfl,
      run_cons.2 ⟨_, rfl, run_cons.2 ⟨_, rfl, run_cons.2 ⟨_, step_prepare rfl (prepare_payEnv hsecond),
        run_cons.2 ⟨_, step_prepare rfl (prepare_payEnv hsecond), run_cons.2 ⟨_, rfl, run_cons.2 ⟨_, rfl,
          run_cons.2 ⟨_, rfl, run_cons.2 ⟨_, rfl, run_cons.2 ⟨_, rfl, run_cons.2 ⟨_, rfl, run_cons.2 ⟨_, rfl,
            run_cons.2 ⟨_, rfl, rfl⟩⟩⟩⟩⟩⟩⟩⟩⟩⟩⟩⟩⟩⟩⟩⟩⟩⟩⟩⟩, rfl⟩

/-- A call in this phase is still to send parts of the payment. -/
def StillSends (paymentHash : Bytes) : PayPhase → Prop
  | .preparing a => a.decoded.paymentHash = paymentHash
  | .spawning plan (_ :: _) => plan.decoded.paymentHash = paymentHash
  | _ => False

/-- The parts of the payment that have not failed. -/
def alive (w : PayWorld) (paymentHash : Bytes) : List SentPart :=
  w.payments.filter fun s => s.part.paymentHash = paymentHash ∧ s.part.status ≠ .failed

theorem partCalls_alive (w : PayWorld) (paymentHash : Bytes) : partCalls (w.alive paymentHash) =
    (partCalls w.payments).filter fun p => p.2.paymentHash = paymentHash ∧ p.2.status ≠ .failed := by
  rw [alive, partCalls, partCalls, List.filter_map]
  rfl

/-- The call `id` has the payment for itself. -/
structure Exclusive (w : PayWorld) (paymentHash : Bytes) (id : PayId) : Prop where
  calls : ∀ id' ph, w.calls id' = some ph → StillSends paymentHash ph → id' = id
  tasks : ∀ t ∈ w.tasks, t.plan.decoded.paymentHash = paymentHash → t.call = id
  alive : ∀ s ∈ w.alive paymentHash, ∃ t, s.sender = some t ∧ t.call = id

theorem Exclusive.setPhase {paymentHash : Bytes} {id id' : PayId} {ph : PayPhase} (hw : w.Exclusive paymentHash id)
    (hph : StillSends paymentHash ph → id' = id) : (w.setPhase id' ph).Exclusive paymentHash id where
  calls id'' ph' hid hsends := by
    rcases of_calls_setPhase hid with ⟨rfl, rfl⟩ | ⟨-, hid⟩
    · exact hph hsends
    · exact hw.calls id'' ph' hid hsends
  tasks := hw.tasks
  alive := hw.alive

theorem Exclusive.append {paymentHash : Bytes} {id : PayId} {s : SentPart} (hw : w.Exclusive paymentHash id)
    (hs : s.part.paymentHash = paymentHash → ∃ t, s.sender = some t ∧ t.call = id) :
    Exclusive { w with payments := w.payments ++ [s] } paymentHash id where
  calls := hw.calls
  tasks := hw.tasks
  alive s' hs' := by
    obtain ⟨hmem, halive⟩ := List.mem_filter.1 hs'
    rcases List.mem_append.1 hmem with hmem | hmem
    · exact hw.alive s' (List.mem_filter.2 ⟨hmem, halive⟩)
    · obtain rfl := List.mem_singleton.1 hmem
      exact hs (of_decide_eq_true halive).1

/-- Two calls that look before either of them sends both send, in the same group and under the same numbers: it is up
to lightningd whether it pays twice. -/
theorem overlap_sends_twice : ∃ w, Run (step .debug plainLightningd) start (failedRun ++ overlapRun) w ∧
    partCalls (w.alive [0x11]) = [(some 1, payPart 2 1 .pending), (some 2, payPart 2 1 .pending),
      (some 1, payPart 2 2 .pending), (some 2, payPart 2 2 .pending)] := by
  obtain ⟨w, hr, hparts⟩ := run_overlapRun
  have halive := partCalls_alive w [0x11]
  rw [hparts] at halive
  exact ⟨w, hr, halive⟩

end PayWorld

end Greenlight.Tramp
