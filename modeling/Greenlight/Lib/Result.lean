import Mathlib.Data.List.Forall2

/-!
# Results

What a successful computation in `Option` or `Except` went through.
-/

namespace Greenlight.Lib

variable {ε α β : Type}

theorem bind_eq_ok {x : Except ε α} {f : α → Except ε β} {b : β} :
    (x >>= f) = .ok b ↔ ∃ a, x = .ok a ∧ f a = .ok b := by
  cases x with
  | error e => exact ⟨nofun, fun ⟨_, h, _⟩ => nomatch h⟩
  | ok a => exact ⟨fun h => ⟨a, rfl, h⟩, fun ⟨_, h, hf⟩ => Except.ok.inj h ▸ hf⟩

theorem bind_eq_error {x : Except ε α} {f : α → Except ε β} {e : ε} :
    (x >>= f) = .error e ↔ x = .error e ∨ ∃ a, x = .ok a ∧ f a = .error e := by
  cases x with
  | error e' =>
    refine ⟨fun h => Or.inl ?_, ?_⟩
    · cases h
      rfl
    · rintro (h | ⟨a, h, -⟩)
      · cases h
        rfl
      · cases h
  | ok a =>
    refine ⟨fun h => Or.inr ⟨a, rfl, h⟩, ?_⟩
    rintro (h | ⟨a', h, hf⟩)
    · cases h
    · cases h
      exact hf

/-- An error that ends no part of a computation does not end the computation. -/
theorem bind_ne_error_iff {x : Except ε α} {f : α → Except ε β} {e : ε} :
    (x >>= f) ≠ .error e ↔ x ≠ .error e ∧ ∀ a, x = .ok a → f a ≠ .error e := by
  rw [ne_eq, bind_eq_error]
  push Not
  rfl

theorem bind_ne_error {x : Except ε α} {f : α → Except ε β} {e : ε} (hx : x ≠ .error e)
    (hf : ∀ a, x = .ok a → f a ≠ .error e) : (x >>= f) ≠ .error e :=
  bind_ne_error_iff.2 ⟨hx, hf⟩

/-- A fold fails at one element, after those before it. -/
theorem foldlM_eq_error_iff {σ : Type} {f : σ → α → Except ε σ} {l : List α} {s : σ} {e : ε} :
    l.foldlM f s = .error e ↔
      ∃ pre a post s', l = pre ++ a :: post ∧ pre.foldlM f s = .ok s' ∧ f s' a = .error e := by
  induction l generalizing s with
  | nil =>
    constructor
    · exact nofun
    · rintro ⟨pre, a, post, s', h, -, -⟩
      simp at h
  | cons b l ih =>
    rw [List.foldlM_cons, bind_eq_error]
    constructor
    · rintro (h | ⟨s₁, hs, h⟩)
      · exact ⟨[], b, l, s, rfl, rfl, h⟩
      · obtain ⟨pre, a, post, s', rfl, hpre, ha⟩ := ih.1 h
        refine ⟨b :: pre, a, post, s', rfl, ?_, ha⟩
        rw [List.foldlM_cons, hs]
        exact hpre
    · rintro ⟨pre, a, post, s', hl, hpre, ha⟩
      cases pre with
      | nil =>
        cases hl
        cases hpre
        exact Or.inl ha
      | cons c pre =>
        obtain ⟨rfl, rfl⟩ := List.cons.inj hl
        rw [List.foldlM_cons] at hpre
        obtain ⟨s₁, hs, hpre⟩ := bind_eq_ok.1 hpre
        exact Or.inr ⟨s₁, hs, ih.2 ⟨pre, a, post, s', rfl, hpre, ha⟩⟩

theorem foldlM_invariant {σ : Type} {f : σ → α → Except ε σ} {P : σ → Prop}
    (hstep : ∀ s a s', P s → f s a = .ok s' → P s') {l : List α} {s s' : σ} (hs : P s)
    (h : l.foldlM f s = .ok s') : P s' := by
  induction l generalizing s with
  | nil =>
    cases h
    exact hs
  | cons a l ih =>
    rw [List.foldlM_cons] at h
    obtain ⟨s₁, hs₁, h⟩ := bind_eq_ok.1 h
    exact ih (hstep s a s₁ hs hs₁) h

theorem mapError_eq_ok {ε' : Type} {x : Except ε α} {f : ε → ε'} {a : α} : x.mapError f = .ok a ↔ x = .ok a := by
  cases x with
  | error e => exact ⟨nofun, nofun⟩
  | ok b => exact ⟨fun h => by cases h; rfl, fun h => by cases h; rfl⟩

theorem guard_eq_ok {p : Prop} [Decidable p] {e : ε} {x : Except ε β} {b : β} :
    (if p then .error e else x) = .ok b ↔ ¬ p ∧ x = .ok b := by
  by_cases h : p <;> simp [h]

/-! ### Over a list -/

theorem mapM_cons_eq_some {f : α → Option β} {a : α} {l : List α} {l' : List β} :
    (a :: l).mapM f = some l' ↔ ∃ b t, f a = some b ∧ l.mapM f = some t ∧ l' = b :: t := by
  simp only [List.mapM_cons, Option.bind_eq_bind, Option.bind_eq_some_iff, Option.pure_def, Option.some.injEq]
  constructor
  · rintro ⟨b, hb, t, ht, rfl⟩
    exact ⟨b, t, hb, ht, rfl⟩
  · rintro ⟨b, t, hb, ht, rfl⟩
    exact ⟨b, hb, t, ht, rfl⟩

theorem mapM_cons_eq_ok {f : α → Except ε β} {a : α} {l : List α} {l' : List β} :
    (a :: l).mapM f = .ok l' ↔ ∃ b t, f a = .ok b ∧ l.mapM f = .ok t ∧ l' = b :: t := by
  rw [List.mapM_cons]
  constructor
  · intro h
    obtain ⟨b, hb, h⟩ := bind_eq_ok.1 h
    obtain ⟨t, ht, h⟩ := bind_eq_ok.1 h
    exact ⟨b, t, hb, ht, (Except.ok.inj h).symm⟩
  · rintro ⟨b, t, hb, ht, rfl⟩
    exact bind_eq_ok.2 ⟨b, hb, bind_eq_ok.2 ⟨t, ht, rfl⟩⟩

theorem mem_mapM_iff {f : α → Option β} {l : List α} {l' : List β} (h : l.mapM f = some l') {b : β} :
    b ∈ l' ↔ ∃ a ∈ l, f a = some b := by
  induction l generalizing l' with
  | nil =>
    obtain rfl : [] = l' := by simpa using h
    simp
  | cons a l ih =>
    obtain ⟨c, t, hc, ht, rfl⟩ := mapM_cons_eq_some.1 h
    simp [ih ht, hc, eq_comm]

theorem isSome_mapM_iff {f : α → Option β} {l : List α} : (l.mapM f).isSome ↔ ∀ a ∈ l, (f a).isSome := by
  induction l with
  | nil => simp
  | cons a l ih =>
    rw [List.forall_mem_cons, ← ih, List.mapM_cons]
    cases f a with
    | none => simp
    | some b => cases l.mapM f <;> simp

theorem filterMap_of_mapM {f : α → Option β} {l : List α} {l' : List β} (h : l.mapM f = some l') :
    l.filterMap f = l' := by
  induction l generalizing l' with
  | nil => simpa using h
  | cons a l ih =>
    obtain ⟨b, t, hb, ht, rfl⟩ := mapM_cons_eq_some.1 h
    rw [List.filterMap_cons_some hb, ih ht]

/-- What an element's result says of the element is said of the list by the results. -/
theorem map_eq_of_mapM {γ : Type} {f : α → Option β} {ι : α → γ} {κ : β → γ} {l : List α} {l' : List β}
    (h : l.mapM f = some l') (hf : ∀ a ∈ l, ∀ b, f a = some b → κ b = ι a) : l'.map κ = l.map ι := by
  induction l generalizing l' with
  | nil =>
    obtain rfl : [] = l' := by simpa using h
    rfl
  | cons a l ih =>
    obtain ⟨b, t, hb, ht, rfl⟩ := mapM_cons_eq_some.1 h
    rw [List.map_cons, List.map_cons, hf a List.mem_cons_self b hb,
      ih ht fun c hc => hf c (List.mem_cons_of_mem a hc)]

theorem mem_of_mapM_eq_ok {f : α → Except ε β} {l : List α} {l' : List β} (h : l.mapM f = .ok l') {a : α}
    (ha : a ∈ l) : ∃ b ∈ l', f a = .ok b := by
  induction l generalizing l' with
  | nil => cases ha
  | cons c l ih =>
    obtain ⟨b, t, hb, ht, rfl⟩ := mapM_cons_eq_ok.1 h
    rcases List.mem_cons.1 ha with rfl | ha
    · exact ⟨b, List.mem_cons_self, hb⟩
    · obtain ⟨b', hb', hf⟩ := ih ht ha
      exact ⟨b', List.mem_cons_of_mem _ hb', hf⟩

/-- What undoes a function on each element undoes it on the list. -/
theorem mapM_map_eq_ok {f : β → Except ε α} {g : α → β} {l : List α} (h : ∀ a ∈ l, f (g a) = .ok a) :
    (l.map g).mapM f = .ok l := by
  induction l with
  | nil => rfl
  | cons a l ih =>
    have hl := ih fun b hb => h b (List.mem_cons_of_mem _ hb)
    exact mapM_cons_eq_ok.2 ⟨a, l, h a List.mem_cons_self, hl, rfl⟩

theorem filterMap_toOption_of_mapM {f : α → Except ε β} {l : List α} {l' : List β} (h : l.mapM f = .ok l') :
    l.filterMap (fun a => (f a).toOption) = l' := by
  induction l generalizing l' with
  | nil => exact Except.ok.inj h
  | cons a l ih =>
    obtain ⟨b, t, hb, ht, rfl⟩ := mapM_cons_eq_ok.1 h
    have hsome : (f a).toOption = some b := congrArg Except.toOption hb
    rw [List.filterMap_cons_some (f := fun a => (f a).toOption) hsome, ih ht]

theorem exists_of_mapM_eq_error {f : α → Except ε β} {l : List α} {e : ε} (h : l.mapM f = .error e) :
    ∃ a ∈ l, f a = .error e := by
  induction l with
  | nil => cases h
  | cons a l ih =>
    rw [List.mapM_cons] at h
    rcases bind_eq_error.1 h with ha | ⟨b, -, h⟩
    · exact ⟨a, List.mem_cons_self, ha⟩
    · rcases bind_eq_error.1 h with hl | ⟨bs, -, h⟩
      · obtain ⟨a', ha', hf⟩ := ih hl
        exact ⟨a', List.mem_cons_of_mem _ ha', hf⟩
      · cases h

theorem toOption_eq_some {x : Except ε α} {a : α} : x.toOption = some a ↔ x = .ok a := by
  cases x <;> simp [Except.toOption]

end Greenlight.Lib
