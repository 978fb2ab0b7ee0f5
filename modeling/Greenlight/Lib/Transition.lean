import Mathlib.Data.List.Induction

/-!
# Runs of a partial step function

A transition system is a function `step : σ → ε → Option σ`: the event `e` is enabled in `s` when
`step s e` is not `none`.  A run is a list of events; `Run.invariant` is the induction over a run that every
safety result uses, and `AllSteps` says that a condition on the state before a step holds at each step of
a run.
-/

namespace Greenlight.Lib

variable {σ ε : Type*} {step : σ → ε → Option σ} {s t u : σ} {e : ε} {es fs : List ε}

/-- The events `es` lead from `s` to `t`. -/
def Run (step : σ → ε → Option σ) (s : σ) (es : List ε) (t : σ) : Prop :=
  es.foldlM step s = some t

instance [DecidableEq σ] : Decidable (Run step s es t) := by unfold Run; infer_instance

@[simp] theorem run_nil : Run step s [] t ↔ s = t := by simp [Run]

theorem run_cons : Run step s (e :: es) u ↔ ∃ t, step s e = some t ∧ Run step t es u := by
  simp [Run, List.foldlM_cons, Option.bind_eq_some_iff]

theorem run_append : Run step s (es ++ fs) u ↔ ∃ t, Run step s es t ∧ Run step t fs u := by
  simp [Run, List.foldlM_append, Option.bind_eq_some_iff]

theorem run_singleton : Run step s [e] t ↔ step s e = some t := by
  simp [run_cons]

theorem run_concat : Run step s (es ++ [e]) u ↔ ∃ t, Run step s es t ∧ step t e = some u := by
  simp [run_append, run_singleton]

/-- Induction over a run from its first step on, with the events so far. -/
theorem Run.induction {motive : List ε → σ → Prop} (hr : Run step s es t) (nil : motive [] s)
    (concat : ∀ es t e u, Run step s es t → motive es t → step t e = some u → motive (es ++ [e]) u) :
    motive es t := by
  induction es using List.reverseRecOn generalizing t with
  | nil => exact run_nil.1 hr ▸ nil
  | append_singleton es e ih =>
    obtain ⟨u, hu, hstep⟩ := run_concat.1 hr
    exact concat es u e t hu (ih hu) hstep

/-- The condition `P` on the state before the step and the event, at each step of a run from `s`. -/
def AllSteps (step : σ → ε → Option σ) (P : σ → ε → Prop) : σ → List ε → Prop
  | _, [] => True
  | s, e :: es => P s e ∧ ∀ t, step s e = some t → AllSteps step P t es

theorem allSteps_append {P : σ → ε → Prop} (hr : Run step s es t) :
    AllSteps step P s (es ++ fs) ↔ AllSteps step P s es ∧ AllSteps step P t fs := by
  induction es generalizing s with
  | nil =>
    obtain rfl := run_nil.1 hr
    exact (iff_of_eq (true_and _)).symm
  | cons e es ih =>
    obtain ⟨u, hu, hr'⟩ := run_cons.1 hr
    constructor
    · rintro ⟨he, hrest⟩
      refine ⟨⟨he, fun v hv => ?_⟩, ((ih hr').1 (hrest u hu)).2⟩
      obtain rfl : v = u := Option.some.inj (hv.symm.trans hu)
      exact ((ih hr').1 (hrest v hv)).1
    · rintro ⟨⟨he, hrest⟩, hfs⟩
      refine ⟨he, fun v hv => ?_⟩
      obtain rfl : v = u := Option.some.inj (hv.symm.trans hu)
      exact (ih hr').2 ⟨hrest v hv, hfs⟩

theorem allSteps_concat {P : σ → ε → Prop} (hr : Run step s es t) :
    AllSteps step P s (es ++ [e]) ↔ AllSteps step P s es ∧ P t e := by
  rw [allSteps_append hr]
  exact and_congr_right fun _ => ⟨And.left, fun h => ⟨h, fun _ _ => trivial⟩⟩

theorem allSteps_iff {P : σ → ε → Prop} :
    AllSteps step P s es ↔ ∀ pre e post t, es = pre ++ e :: post → Run step s pre t → P t e := by
  constructor
  · rintro h pre e post t rfl hr
    exact ((allSteps_append hr).1 h).2.1
  · intro h
    induction es generalizing s with
    | nil => trivial
    | cons e es ih =>
      refine ⟨h [] e es s rfl (run_nil.2 rfl), fun u hu => ih fun pre f post t hes hr => ?_⟩
      subst hes
      exact h (e :: pre) f post t rfl (run_cons.2 ⟨u, hu, hr⟩)

theorem allSteps_of_forall {P : σ → ε → Prop} (h : ∀ e ∈ es, ∀ s, P s e) : AllSteps step P s es :=
  allSteps_iff.2 fun pre e post t hes _ => h e (by simp [hes]) t

/-- Only one event of the run can fail the condition, and it meets it. -/
theorem allSteps_of_single {P : σ → ε → Prop} (hr : Run step s es t) (he : P t e) (hes : ∀ f ∈ es, ∀ s, P s f)
    (hfs : ∀ f ∈ fs, ∀ s, P s f) : AllSteps step P s (es ++ e :: fs) :=
  (allSteps_append hr).2 ⟨allSteps_of_forall hes, he, fun _ _ => allSteps_of_forall hfs⟩

/-- **An invariant of the steps that meet `P` holds along every run that meets `P`.** -/
theorem Run.invariant_of {I : σ → Prop} {P : σ → ε → Prop}
    (hstep : ∀ {s e t}, I s → P s e → step s e = some t → I t) (hr : Run step s es t) (hs : I s)
    (hP : AllSteps step P s es) : I t := by
  induction es generalizing s with
  | nil => exact run_nil.1 hr ▸ hs
  | cons e es ih =>
    obtain ⟨u, hu, hr'⟩ := run_cons.1 hr
    exact ih hr' (hstep hs hP.1 hu) (hP.2 u hu)

/-- `I` holds in every state that the events lead to from `s`, the last one and those before. -/
def Always (step : σ → ε → Option σ) (I : σ → Prop) (s : σ) (es : List ε) : Prop :=
  ∀ pre post t, es = pre ++ post → Run step s pre t → I t

theorem Always.mono {I J : σ → Prop} (h : Always step I s es) (hIJ : ∀ t, I t → J t) : Always step J s es :=
  fun pre post t hes hr => hIJ t (h pre post t hes hr)

theorem Always.after {I : σ → Prop} (h : Always step I s es) {pre post : List ε} (hes : es = pre ++ e :: post)
    (hr : Run step s pre t) (hstep : step t e = some u) : I u :=
  h (pre ++ [e]) post u (by simp [hes]) (run_concat.2 ⟨t, hr, hstep⟩)

theorem always_of_invariant {I : σ → Prop} {P : σ → ε → Prop}
    (hstep : ∀ {s e t}, I s → P s e → step s e = some t → I t) (hs : I s) (hP : AllSteps step P s es) :
    Always step I s es := by
  rintro pre post t rfl hr
  exact hr.invariant_of hstep hs ((allSteps_append hr).1 hP).1

theorem Run.invariant {I : σ → Prop} (hstep : ∀ {s e t}, I s → step s e = some t → I t)
    (hr : Run step s es t) (hs : I s) : I t := by
  induction es generalizing s with
  | nil => exact run_nil.1 hr ▸ hs
  | cons e es ih =>
    obtain ⟨u, hu, hr'⟩ := run_cons.1 hr
    exact ih hr' (hstep hs hu)

/-- An event that is not enabled where `I` holds does not occur in a run from there. -/
theorem Run.not_mem_of {I : σ → Prop} (hr : Run step s es t) (hs : I s)
    (hstep : ∀ {s e t}, I s → step s e = some t → I t) (hno : ∀ s, I s → step s e = none) : e ∉ es := by
  induction es generalizing s with
  | nil => simp
  | cons f es ih =>
    obtain ⟨u, hu, hr'⟩ := run_cons.1 hr
    rintro (_ | ⟨_, hmem⟩)
    · rw [hno s hs] at hu
      cases hu
    · exact ih hr' (hstep hs hu) hmem

/-- Two events that both lead to `I`, and are not enabled there, do not both occur in a run. -/
theorem Run.not_mem_of_mem {I : σ → Prop} {f : ε} (hr : Run step s es t)
    (hstep : ∀ {s e t}, I s → step s e = some t → I t)
    (he : ∀ s t, step s e = some t → I t) (hf : ∀ s t, step s f = some t → I t)
    (hnoe : ∀ s, I s → step s e = none) (hnof : ∀ s, I s → step s f = none) (hne : e ≠ f)
    (hmem : e ∈ es) : f ∉ es := by
  induction es generalizing s with
  | nil => simp
  | cons g es ih =>
    obtain ⟨u, hu, hr'⟩ := run_cons.1 hr
    rcases List.mem_cons.1 hmem with rfl | htail
    · have hrest := hr'.not_mem_of (he _ _ hu) hstep hnof
      simp [hne.symm, hrest]
    · rintro (_ | ⟨_, hmem'⟩)
      · exact hr'.not_mem_of (hf _ _ hu) hstep hnoe htail
      · exact ih hr' htail hmem'

end Greenlight.Lib
