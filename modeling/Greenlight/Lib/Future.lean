import Mathlib.Data.List.Basic

/-!
# Polled futures

A future is polled, with the world as it is at that time, until it is ready.  `timeoutAt` polls the future it
guards before it looks at the clock, and `joinAll` keeps the values of the futures that are ready until all
of them are.  A future that is ready at its first poll is ready under both, whatever the clock says
(`timeoutAt_of_ready`, `joinAll_of_ready`).
-/

namespace Greenlight.Lib

inductive Poll (α : Type*) where
  | pending
  | ready (a : α)
  deriving DecidableEq, Repr

/-- A future with the states `σ`: one poll in the world `W`. -/
abbrev Future (W σ α : Type*) := W → σ → Poll α × σ

namespace Future

variable {W σ α : Type*}

/-- The polls in the worlds of the list, up to the first one that is ready. -/
def run (f : Future W σ α) : List W → σ → Poll α × σ
  | [], s => (.pending, s)
  | w :: ws, s =>
    match f w s with
    | (.ready a, s') => (.ready a, s')
    | (.pending, s') => run f ws s'

/-- The first poll that is ready is the one in `w`, after those in `ws`. -/
def ReadyAt (f : Future W σ α) (s : σ) (ws : List W) (w : W) (a : α) : Prop :=
  (f.run ws s).1 = .pending ∧ (f w (f.run ws s).2).1 = .ready a

/-- In the worlds `ws`, one for each poll, the future is ready with `a` at some time. -/
def Returns (f : Future W σ α) (s : σ) (ws : ℕ → W) (a : α) : Prop :=
  ∃ n, f.ReadyAt s ((List.range n).map ws) (ws n) a

theorem run_of_ready {f : Future W σ α} {w : W} {s : σ} {a : α} (h : (f w s).1 = .ready a) (ws : List W) :
    (f.run (w :: ws) s).1 = .ready a := by
  rw [run]
  split
  · rename_i heq
    rwa [heq] at h
  · rename_i heq
    rw [heq] at h
    cases h

theorem returns_iff_of_ready {f : Future W σ α} {s : σ} {ws : ℕ → W} {a b : α}
    (h : (f (ws 0) s).1 = .ready a) : f.Returns s ws b ↔ b = a := by
  constructor
  · rintro ⟨n, hpending, hready⟩
    cases n with
    | zero =>
      have : Poll.ready a = Poll.ready b := h.symm.trans hready
      cases this
      rfl
    | succ n =>
      rw [List.range_succ_eq_map, List.map_cons, run_of_ready h] at hpending
      cases hpending
  · rintro rfl
    exact ⟨0, rfl, h⟩

/-- `timeout_at` of tokio; `none` is `Elapsed`. -/
def timeoutAt (now : W → ℕ) (deadline : ℕ) (f : Future W σ α) : Future W σ (Option α) := fun w s =>
  match f w s with
  | (.ready a, s') => (.ready (some a), s')
  | (.pending, s') => if deadline ≤ now w then (.ready none, s') else (.pending, s')

theorem exists_eq_ready {f : Future W σ α} {w : W} {s : σ} {a : α} (h : (f w s).1 = .ready a) :
    ∃ s', f w s = (.ready a, s') :=
  ⟨(f w s).2, Prod.ext h rfl⟩

theorem timeoutAt_of_ready {f : Future W σ α} {w : W} {s : σ} {a : α} (h : (f w s).1 = .ready a)
    (now : W → ℕ) (deadline : ℕ) : (timeoutAt now deadline f w s).1 = .ready (some a) := by
  obtain ⟨s', hrun⟩ := exists_eq_ready h
  rw [timeoutAt, hrun]

/-- A future of `joinAll` after one more poll, unless it has its value. -/
def pollOnce (f : Future W σ α) (w : W) : σ ⊕ α → σ ⊕ α
  | .inl s =>
    match f w s with
    | (.ready a, _) => .inr a
    | (.pending, s') => .inl s'
  | .inr a => .inr a

def joinAll (fs : List (Future W σ α)) : Future W (List (σ ⊕ α)) (List α) := fun w ss =>
  let ss' := (fs.zip ss).map fun (f, s) => f.pollOnce w s
  match ss'.mapM Sum.getRight? with
  | some as => (.ready as, ss')
  | none => (.pending, ss')

theorem pollOnce_of_ready {f : Future W σ α} {w : W} {s : σ} {a : α} (h : (f w s).1 = .ready a) :
    f.pollOnce w (.inl s) = .inr a := by
  obtain ⟨s', hrun⟩ := exists_eq_ready h
  rw [pollOnce, hrun]

theorem getRight?_mapM (as : List α) : (as.map fun a => (Sum.inr a : σ ⊕ α)).mapM Sum.getRight? = some as := by
  induction as with
  | nil => rfl
  | cons a as ih =>
    rw [List.map_cons, List.mapM_cons, ih]
    rfl

/-- If every future is ready at the first poll, their values come back in order. -/
theorem joinAll_of_ready {ι : Type*} {f : ι → Future W σ α} {s : ι → σ} {a : ι → α} {w : W} {l : List ι}
    (h : ∀ i ∈ l, (f i w (s i)).1 = .ready (a i)) :
    (joinAll (l.map f) w (l.map fun i => .inl (s i))).1 = .ready (l.map a) := by
  have hpolled : ((l.map f).zip (l.map fun i => (Sum.inl (s i) : σ ⊕ α))).map (fun (f, s) => f.pollOnce w s) =
      (l.map a).map fun a => Sum.inr a := by
    rw [List.zip_map', List.map_map, List.map_map]
    exact List.map_congr_left fun i hi => pollOnce_of_ready (h i hi)
  simp only [joinAll, hpolled, getRight?_mapM]

end Future

end Greenlight.Lib
