import Mathlib.Order.Basic
import Mathlib.Order.Lattice
import Mathlib.Data.List.Basic
import Greenlight.Lib.Transition

/-!
# Work in stages

A plan is a list of calls to be made one after the other.  A call that is started is polled until it is completed.
Its outcome may pass the stage, or leave the work there to be tried again, and may put off the next call by a delay.
`Plan.step` takes the events that keep to the plan.  A trace of such events passes the stages in order
(`passed_of_run`), polls no call that is completed (`neverRepolled_of_run`), has at most one call under way
(`unfinished_of_run`) and keeps the delay (`delayKept_of_run`).
-/

namespace Greenlight.Lib

/-- What happens to calls of the kinds `κ` with the outcomes `ω`: a poll finds the call waiting or completes it. -/
inductive CallEvent (κ ω : Type*) where
  | started (c : κ) (now : ℕ)
  | waits (c : κ)
  | completed (o : ω) (time : ℕ)
  deriving DecidableEq, Repr

def outcomes {κ ω : Type*} (es : List (CallEvent κ ω)) : List ω :=
  es.filterMap fun
    | .completed o _ => some o
    | _ => none

/-- The calls to make, and what their outcomes mean. -/
structure Plan (κ ω : Type*) where
  stages : List κ
  call : ω → κ
  passes : ω → Bool
  setsBack : ω → Bool
  delay : ℕ

/-- How far the work has got: the outcomes that passed a stage, the call under way, and the time before which no call
starts. -/
structure Progress (κ ω : Type*) where
  passed : List ω
  running : Option κ
  notBefore : ℕ

/-- Nothing is done. -/
def Progress.start {κ ω : Type*} : Progress κ ω := ⟨[], none, 0⟩

namespace Plan

variable {κ ω : Type*} (plan : Plan κ ω)

/-- The call under way is completed. -/
def complete (o : ω) (time : ℕ) (p : Progress κ ω) : Progress κ ω where
  passed := if plan.passes o then p.passed ++ [o] else p.passed
  running := none
  notBefore := if plan.setsBack o then max p.notBefore (time + plan.delay) else p.notBefore

/-- The outcomes so far pass the first stages, and the call under way is that of the next. -/
structure InOrder (p : Progress κ ω) : Prop where
  passes : ∀ o ∈ p.passed, plan.passes o
  calls : p.passed.map plan.call = plan.stages.take p.passed.length
  running : ∀ c, p.running = some c → plan.stages[p.passed.length]? = some c

variable {plan} {p : Progress κ ω} {o : ω} {time : ℕ}

theorem inOrder_start : plan.InOrder Progress.start where
  passes := by simp [Progress.start]
  calls := by simp [Progress.start]
  running := by simp [Progress.start]

theorem InOrder.complete (hp : plan.InOrder p) (hrun : p.running = some (plan.call o)) :
    plan.InOrder (plan.complete o time p) := by
  have hstage := hp.running _ hrun
  by_cases hpass : plan.passes o = true
  · refine ⟨?_, ?_, by simp [Plan.complete]⟩
    · simp only [Plan.complete, hpass, if_true, List.mem_append, List.mem_singleton]
      rintro o' (hmem | rfl)
      · exact hp.passes o' hmem
      · exact hpass
    · simp only [Plan.complete, hpass, if_true, List.map_append, List.map_cons, List.map_nil,
        List.length_append, List.length_singleton, hp.calls, List.take_add_one, hstage, Option.toList_some]
  · refine ⟨?_, ?_, by simp [Plan.complete]⟩
    · simpa only [Plan.complete, if_neg hpass] using hp.passes
    · simpa only [Plan.complete, if_neg hpass] using hp.calls

variable (plan)

/-- The call that an event polls. -/
def polled : CallEvent κ ω → Option κ
  | .started _ _ => none
  | .waits c => some c
  | .completed o _ => some (plan.call o)

variable [DecidableEq κ]

/-- **The events that keep to the plan**: the call of the next stage is started when no call is under way and the
delay has passed, and a call is polled while it is under way. -/
def step (p : Progress κ ω) : CallEvent κ ω → Option (Progress κ ω)
  | .started c now =>
    if p.running = none ∧ plan.stages[p.passed.length]? = some c ∧ p.notBefore ≤ now then
      some { p with running := some c }
    else none
  | .waits c => if p.running = some c then some p else none
  | .completed o time => if p.running = some (plan.call o) then some (plan.complete o time p) else none

/-- The calls that a trace has started and not completed, the last one first. -/
def unfinished (es : List (CallEvent κ ω)) : List κ :=
  es.foldl (fun cs e => match e with
    | .started c _ => c :: cs
    | .waits _ => cs
    | .completed o _ => cs.erase (plan.call o)) []

/-- A call that is completed is not polled before it is started again. -/
def NeverRepolled (es : List (CallEvent κ ω)) : Prop :=
  ∀ pre o time mid e post, es = pre ++ .completed o time :: (mid ++ e :: post) →
    plan.polled e = some (plan.call o) → ∃ now, .started (plan.call o) now ∈ mid

/-- After an outcome that sets the work back no call starts before the delay has passed. -/
def DelayKept (es : List (CallEvent κ ω)) : Prop :=
  ∀ pre o time mid c now post, es = pre ++ .completed o time :: (mid ++ .started c now :: post) →
    plan.setsBack o → time + plan.delay ≤ now

variable {plan} {q : Progress κ ω} {c : κ} {now : ℕ} {e : CallEvent κ ω}
  {es : List (CallEvent κ ω)}

/-! ### What a step does -/

theorem step_started : plan.step p (.started c now) = some q ↔
    (p.running = none ∧ plan.stages[p.passed.length]? = some c ∧ p.notBefore ≤ now) ∧
      { p with running := some c } = q := by
  simp [step, Option.ite_none_right_eq_some]

theorem step_waits : plan.step p (.waits c) = some q ↔ p.running = some c ∧ p = q := by
  simp [step, Option.ite_none_right_eq_some]

theorem step_completed : plan.step p (.completed o time) = some q ↔
    p.running = some (plan.call o) ∧ plan.complete o time p = q := by
  simp [step, Option.ite_none_right_eq_some]

theorem running_of_polled (h : plan.step p e = some q) (hc : plan.polled e = some c) : p.running = some c := by
  cases e with
  | started d now => cases hc
  | waits d => exact (step_waits.1 h).1.trans hc
  | completed o time => exact (step_completed.1 h).1.trans hc

/-! ### The stages in their order -/

theorem InOrder.step (hp : plan.InOrder p) (h : plan.step p e = some q) : plan.InOrder q := by
  cases e with
  | started c now =>
    obtain ⟨⟨-, hstage, -⟩, rfl⟩ := step_started.1 h
    refine ⟨hp.passes, hp.calls, fun d hd => ?_⟩
    obtain rfl := Option.some.inj hd
    exact hstage
  | waits c => exact (step_waits.1 h).2 ▸ hp
  | completed o time =>
    obtain ⟨hrun, rfl⟩ := step_completed.1 h
    exact hp.complete hrun

/-- **The stages are passed in their order**: the outcomes that passed one are among those of the trace in this
order, and they are those of the first calls of the plan. -/
theorem passed_of_run (h : Run plan.step Progress.start es p) :
    p.passed.Sublist (outcomes es) ∧ plan.InOrder p := by
  refine ⟨?_, h.invariant InOrder.step inOrder_start⟩
  refine h.induction (motive := fun es p => p.passed.Sublist (outcomes es)) (List.nil_sublist _) ?_
  intro es p e q _ ih hstep
  simp only [outcomes, List.filterMap_append] at ih ⊢
  cases e with
  | started c now =>
    obtain ⟨-, rfl⟩ := step_started.1 hstep
    simpa using ih
  | waits c =>
    obtain ⟨-, rfl⟩ := step_waits.1 hstep
    simpa using ih
  | completed o time =>
    obtain ⟨-, rfl⟩ := step_completed.1 hstep
    -- a call is marked as passed only by an outcome that counts
    simp only [complete]
    split
    · exact ih.append (List.Sublist.refl _)
    · exact ih.trans (List.sublist_append_left _ _)

/-! ### The calls under way -/

theorem unfinished_eq (h : Run plan.step Progress.start es p) : plan.unfinished es = p.running.toList := by
  refine h.induction (motive := fun es p => plan.unfinished es = p.running.toList) rfl fun es p e q _ ih hstep => ?_
  simp only [unfinished] at ih
  simp only [unfinished, List.foldl_append, List.foldl_cons, List.foldl_nil, ih]
  cases e with
  | started c now =>
    obtain ⟨⟨hrun, -⟩, rfl⟩ := step_started.1 hstep
    simp [hrun]
  | waits c => rw [(step_waits.1 hstep).2]
  | completed o time =>
    obtain ⟨hrun, rfl⟩ := step_completed.1 hstep
    simp [hrun, complete]

/-- **At any time at most one call is under way.** -/
theorem unfinished_of_run (h : Run plan.step Progress.start es p) {pre : List (CallEvent κ ω)}
    (hpre : pre <+: es) : (plan.unfinished pre).length ≤ 1 := by
  obtain ⟨post, rfl⟩ := hpre
  obtain ⟨q, hq, -⟩ := run_append.1 h
  rw [unfinished_eq hq]
  cases q.running <;> simp

theorem not_running_of_run (h : Run plan.step p es q) (hp : p.running ≠ some c)
    (hno : ∀ now, .started c now ∉ es) : q.running ≠ some c := by
  refine h.invariant_of (I := fun p => p.running ≠ some c) (P := fun _ e => ∀ now, e ≠ .started c now) ?_ hp ?_
  · intro p e q hp hne hstep
    cases e with
    | started d now =>
      obtain ⟨-, rfl⟩ := step_started.1 hstep
      intro hd
      obtain rfl := Option.some.inj hd
      exact hne now rfl
    | waits d => exact (step_waits.1 hstep).2 ▸ hp
    | completed o time =>
      obtain ⟨-, rfl⟩ := step_completed.1 hstep
      simp [complete]
  · refine allSteps_of_forall fun e he _ now heq => hno now ?_
    exact heq ▸ he

/-- **A call that is completed is not polled again.** -/
theorem neverRepolled_of_run (h : Run plan.step p es q) : plan.NeverRepolled es := by
  rintro pre o time mid e post rfl hpolled
  obtain ⟨p₁, -, h₁⟩ := run_append.1 h
  obtain ⟨p₂, hcompleted, h₂⟩ := run_cons.1 h₁
  obtain ⟨p₃, hmid, h₃⟩ := run_append.1 h₂
  obtain ⟨p₄, he, -⟩ := run_cons.1 h₃
  obtain ⟨-, rfl⟩ := step_completed.1 hcompleted
  by_contra hno
  push Not at hno
  exact not_running_of_run hmid (by simp [complete]) hno (running_of_polled he hpolled)

/-! ### The delay -/

theorem notBefore_le (h : plan.step p e = some q) : p.notBefore ≤ q.notBefore := by
  cases e with
  | started c now =>
    obtain ⟨-, rfl⟩ := step_started.1 h
    exact le_rfl
  | waits c => exact (step_waits.1 h).2 ▸ le_rfl
  | completed o time =>
    obtain ⟨-, rfl⟩ := step_completed.1 h
    simp only [complete]
    split
    · exact le_max_left _ _
    · exact le_rfl

/-- **The delay is kept.** -/
theorem delayKept_of_run (h : Run plan.step p es q) : plan.DelayKept es := by
  rintro pre o time mid c now post rfl hback
  obtain ⟨p₁, -, h₁⟩ := run_append.1 h
  obtain ⟨p₂, hcompleted, h₂⟩ := run_cons.1 h₁
  obtain ⟨p₃, hmid, h₃⟩ := run_append.1 h₂
  obtain ⟨p₄, hstarted, -⟩ := run_cons.1 h₃
  obtain ⟨-, rfl⟩ := step_completed.1 hcompleted
  obtain ⟨⟨-, -, hnow⟩, -⟩ := step_started.1 hstarted
  have hput : time + plan.delay ≤ (plan.complete o time p₁).notBefore := by simp [complete, hback]
  have hgrows : (plan.complete o time p₁).notBefore ≤ p₃.notBefore :=
    hmid.invariant (I := fun p => (plan.complete o time p₁).notBefore ≤ p.notBefore)
      (fun hle hstep => hle.trans (notBefore_le hstep)) le_rfl
  exact (hput.trans hgrows).trans hnow

end Plan

end Greenlight.Lib
