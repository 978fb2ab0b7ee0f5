import Greenlight.Lib.Transition
import Greenlight.Persist.Memory

/-!
# Rollback protection

A signer merges what the node sends it and updates its own entries.  The version of an entry goes up with every
update and a merge takes only strictly newer entries, so no entry goes back, up to the end of `u64`: the version
after the last one is zero, and the node can bring an entry to the last version (`rollbackProtected_iff`).
-/

namespace Greenlight.Persist

open Greenlight.Lib

variable {Value : Type}

inductive MemoryEvent (Value : Type) where
  /-- `merge` with the state of these entries. -/
  | merge (entries : List SignerStateEntry)
  | persist (op : PersistOp Value)

/-- One change of the state of a signer; a `none` is a panic. -/
def memoryStep (json : SerdeJson Value) (nodeChannelId : Bytes → Bytes → Bytes) (s : State Value) :
    MemoryEvent Value → Option (State Value)
  | .merge entries => (State.ofEntries json entries).map fun other => (s.merge other).1
  | .persist op => op.apply nodeChannelId s

/-- The event leaves the entry of the key alone: a merge that carries no version above `version`, or an update of
another key. -/
def Spares (json : SerdeJson Value) (nodeChannelId : Bytes → Bytes → Bytes) (k : String) (version : UInt64) :
    MemoryEvent Value → Prop
  | .merge entries => ∀ other v, State.ofEntries json entries = some other → other.get? k = some v → v.1 ≤ version
  | .persist op => ∀ x, op.update? nodeChannelId ≠ some (k, x)

/-- What a run from `s` keeps of the versions and the values of updates. -/
structure RollbackProtected (json : SerdeJson Value) (nodeChannelId : Bytes → Bytes → Bytes) (s : State Value)
    (es : List (MemoryEvent Value)) : Prop where
  never_decreases : ∀ pre post t u, es = pre ++ post → Run (memoryStep json nodeChannelId) s pre t →
    Run (memoryStep json nodeChannelId) t post u → u.AtLeast t
  updates_grow : ∀ pre op post t u k x v, es = pre ++ .persist op :: post →
    Run (memoryStep json nodeChannelId) s pre t → op.apply nodeChannelId t = some u →
    op.update? nodeChannelId = some (k, x) → t.get? k = some v → ∃ w, u.get? k = some (w, x) ∧ v.1 < w
  updates_survive : ∀ pre op mid post t u t' k x, es = pre ++ .persist op :: (mid ++ post) →
    Run (memoryStep json nodeChannelId) s pre t → op.apply nodeChannelId t = some u →
    op.update? nodeChannelId = some (k, x) → Run (memoryStep json nodeChannelId) u mid t' →
    (∀ e ∈ mid, Spares json nodeChannelId k (State.nextVersion (t.get? k)) e) →
    t'.get? k = some (State.nextVersion (t.get? k), x)

/-- An update does not meet an entry of the last version. -/
def NoWrap (nodeChannelId : Bytes → Bytes → Bytes) (s : State Value) (e : MemoryEvent Value) : Prop :=
  ∀ op k x v, e = .persist op → op.update? nodeChannelId = some (k, x) → s.get? k = some v →
    v.1.toNat + 1 < UInt64.size

theorem lt_add_one_iff {v : UInt64} : v < v + 1 ↔ v.toNat + 1 < UInt64.size := by
  rw [UInt64.lt_iff_toNat_lt, UInt64.toNat_add]
  have hv := v.toNat_lt
  simp only [UInt64.reduceToNat, UInt64.size]
  omega

variable {json : SerdeJson Value} {nodeChannelId : Bytes → Bytes → Bytes} {s t u : State Value}
  {e : MemoryEvent Value} {es : List (MemoryEvent Value)}

theorem update_grows {op : PersistOp Value} (hwrap : NoWrap nodeChannelId t (.persist op)) {k : String} {x : Value}
    (hop : op.update? nodeChannelId = some (k, x)) (h : op.apply nodeChannelId t = some u) {v : UInt64 × Value}
    (hv : t.get? k = some v) : ∃ w, u.get? k = some (w, x) ∧ v.1 < w := by
  refine ⟨v.1 + 1, ?_, lt_add_one_iff.2 (hwrap op k x v rfl hop hv)⟩
  rw [PersistOp.get?_update hop h, if_pos rfl, hv]
  rfl

theorem atLeast_step (hop : ∀ op, e = .persist op → (op.update? nodeChannelId).isSome)
    (hwrap : NoWrap nodeChannelId s e) (h : memoryStep json nodeChannelId s e = some t) : t.AtLeast s := by
  intro k
  cases e with
  | merge entries =>
    obtain ⟨other, -, rfl⟩ := Option.map_eq_some_iff.1 h
    exact (State.covers_merge_left s other k).atLeast
  | persist op =>
    obtain ⟨⟨k', x⟩, hkx⟩ := Option.isSome_iff_exists.1 (hop op rfl)
    by_cases hk : k = k'
    · subst hk
      intro v hv
      obtain ⟨w, hw, hlt⟩ := update_grows hwrap hkx h hv
      exact ⟨_, hw, hlt.le⟩
    · rw [PersistOp.get?_update hkx h, if_neg hk]
      exact Versioned.atLeast_refl _

theorem atLeast_run (hop : ∀ op, .persist op ∈ es → (op.update? nodeChannelId).isSome)
    (hwrap : AllSteps (memoryStep json nodeChannelId) (NoWrap nodeChannelId) s es)
    (hr : Run (memoryStep json nodeChannelId) s es t) : t.AtLeast s := by
  induction es generalizing s with
  | nil =>
    obtain rfl := run_nil.1 hr
    exact fun k => Versioned.atLeast_refl _
  | cons e es ih =>
    obtain ⟨u, hu, hr'⟩ := run_cons.1 hr
    have hfirst : u.AtLeast s := atLeast_step (fun op he => hop op (he ▸ List.mem_cons_self)) hwrap.1 hu
    have hrest : t.AtLeast u := ih (fun op hmem => hop op (List.mem_cons_of_mem _ hmem)) (hwrap.2 u hu) hr'
    exact fun k => (hrest k).trans (hfirst k)

theorem get?_of_spares (hop : ∀ op, e = .persist op → (op.update? nodeChannelId).isSome) {k : String}
    {v : UInt64 × Value} (hv : s.get? k = some v) (hspares : Spares json nodeChannelId k v.1 e)
    (h : memoryStep json nodeChannelId s e = some t) : t.get? k = some v := by
  cases e with
  | merge entries =>
    obtain ⟨other, hother, rfl⟩ := Option.map_eq_some_iff.1 h
    rw [State.get?_merge, hv]
    exact Versioned.join_eq_left fun w hw => hspares other w hother hw
  | persist op =>
    obtain ⟨⟨k', x⟩, hkx⟩ := Option.isSome_iff_exists.1 (hop op rfl)
    have hk : k ≠ k' := by
      rintro rfl
      exact hspares x hkx
    rw [PersistOp.get?_update hkx h, if_neg hk, hv]

theorem get?_of_spares_run (hop : ∀ op, .persist op ∈ es → (op.update? nodeChannelId).isSome) {k : String}
    {v : UInt64 × Value} (hv : s.get? k = some v) (hspares : ∀ e ∈ es, Spares json nodeChannelId k v.1 e)
    (hr : Run (memoryStep json nodeChannelId) s es t) : t.get? k = some v := by
  induction es generalizing s with
  | nil =>
    obtain rfl := run_nil.1 hr
    exact hv
  | cons e es ih =>
    obtain ⟨u, hu, hr'⟩ := run_cons.1 hr
    have hkeep := get?_of_spares (fun op he => hop op (he ▸ List.mem_cons_self)) hv
      (hspares e List.mem_cons_self) hu
    exact ih (fun op hmem => hop op (List.mem_cons_of_mem _ hmem)) hkeep
      (fun f hf => hspares f (List.mem_cons_of_mem _ hf)) hr'

/-- **No version goes back exactly as long as none wraps.**  In a run of merges and updates the versions never
decrease and each update counts as newer until something strictly newer arrives, if and only if no update meets an
entry of the last version. -/
theorem rollbackProtected_iff (hr : Run (memoryStep json nodeChannelId) s es t)
    (hop : ∀ op, .persist op ∈ es → (op.update? nodeChannelId).isSome) :
    RollbackProtected json nodeChannelId s es ↔
      AllSteps (memoryStep json nodeChannelId) (NoWrap nodeChannelId) s es := by
  constructor
  · intro hprot
    rw [allSteps_iff]
    rintro pre e post u rfl hpre op k x v rfl hkx hv
    obtain ⟨u₁, hu₁, hrest⟩ := run_append.1 hr
    obtain rfl : u₁ = u := Option.some.inj (hu₁.symm.trans hpre)
    obtain ⟨u₂, hstep, -⟩ := run_cons.1 hrest
    -- the version that the update makes is the next word, and is to be larger
    obtain ⟨w, hw, hlt⟩ := hprot.updates_grow pre op post u₁ u₂ k x v rfl hpre hstep hkx hv
    rw [PersistOp.get?_update hkx hstep, if_pos rfl, hv] at hw
    obtain ⟨rfl, -⟩ := Prod.mk.inj (Option.some.inj hw)
    exact lt_add_one_iff.1 hlt
  · intro hwrap
    refine ⟨?_, ?_, ?_⟩
    · rintro pre post u u' rfl hpre hpost
      exact atLeast_run (fun op hmem => hop op (List.mem_append_right _ hmem)) ((allSteps_append hpre).1 hwrap).2 hpost
    · rintro pre op post u u' k x v rfl hpre hstep hkx hv
      exact update_grows (allSteps_iff.1 hwrap pre _ post u rfl hpre) hkx hstep hv
    · rintro pre op mid post u u' t' k x rfl hpre hstep hkx hmid hspares
      -- the update is there right after its step, and the other events spare it
      have hnew : u'.get? k = some (State.nextVersion (u.get? k), x) := by
        rw [PersistOp.get?_update hkx hstep, if_pos rfl]
      exact get?_of_spares_run (fun op' hmem => hop op' (by simp [hmem])) hnew hspares hmid

/-- The entry of a node, from the wire. -/
def wireEntry (version : UInt64) (value : Bool) : SignerStateEntry where
  version := version
  key := "nodestates/ab"
  value := SerdeJson.bool.toVec value

/-- A merge that brings the node to a version, and an update of the node. -/
def mergeAndUpdate (version : UInt64) : List (MemoryEvent Bool) :=
  [.merge [wireEntry version false], .persist (.updateNode [0xab] true)]

theorem rollbackProtected_iff_update : ∃ t, Run (memoryStep SerdeJson.bool (· ++ ·)) .new (mergeAndUpdate 7) t ∧
    (RollbackProtected SerdeJson.bool (· ++ ·) .new (mergeAndUpdate 7) ↔
      AllSteps (memoryStep SerdeJson.bool (· ++ ·)) (NoWrap (· ++ ·)) .new (mergeAndUpdate 7)) := by
  have hrun : ∃ t, Run (memoryStep SerdeJson.bool (· ++ ·)) .new (mergeAndUpdate 7) t := ⟨_, rfl⟩
  obtain ⟨t, hr⟩ := hrun
  refine ⟨t, hr, rollbackProtected_iff hr ?_⟩
  simp [mergeAndUpdate, PersistOp.update?]

/-- The update of an entry of the last version takes it back to version zero. -/
theorem rollback_wraps : ¬ ∀ (s t : State Bool) (es : List (MemoryEvent Bool)),
    Run (memoryStep SerdeJson.bool (· ++ ·)) s es t → (∀ op, .persist op ∈ es → (op.update? (· ++ ·)).isSome) →
    RollbackProtected SerdeJson.bool (· ++ ·) s es := by
  intro hall
  have hrun : ∃ t u : State Bool, Run (memoryStep SerdeJson.bool (· ++ ·)) .new
        [.merge [wireEntry 0xffffffffffffffff false]] t ∧
      memoryStep SerdeJson.bool (· ++ ·) t (.persist (.updateNode [0xab] true)) = some u ∧
      t.get? "nodestates/ab" = some (0xffffffffffffffff, false) ∧ u.get? "nodestates/ab" = some (0, true) :=
    ⟨_, _, rfl, rfl, rfl, rfl⟩
  obtain ⟨t, u, ht, hu, hv, hw⟩ := hrun
  have hr : Run (memoryStep SerdeJson.bool (· ++ ·)) .new (mergeAndUpdate 0xffffffffffffffff) u :=
    run_cons.2 ⟨t, run_singleton.1 ht, run_singleton.2 hu⟩
  have hprot := hall _ _ _ hr (by simp [mergeAndUpdate, PersistOp.update?])
  obtain ⟨w, hw', hle⟩ := hprot.never_decreases _ _ t u rfl ht (run_singleton.2 hu) _ _ hv
  rw [hw] at hw'
  obtain rfl := Option.mem_some_iff.1 hw'
  exact absurd hle (by decide)

end Greenlight.Persist
