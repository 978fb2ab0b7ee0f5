import Greenlight.Persist.State

/-!
# Differences of states

`State::diff` lists the entries of another state that are newer than one's own, and `merge` takes them over.  The
two go over the entries on their own, one as a filter and one as a loop that changes the state it looks at.  They
agree (`merge_diff`), so a state may be brought up to date with the entries of the difference alone.
-/

namespace Greenlight.Persist

open Greenlight.Lib

structure StateChange (Value : Type) where
  key : String
  old : Option (UInt64 × Value)
  new : UInt64 × Value

namespace StateChange

variable {Value : Type}

/-- The filter of `diff`. -/
def isNewer (c : StateChange Value) : Bool :=
  match c.old, c.new with
  | none, _ => true
  | some (oldver, _), (newver, _) => oldver < newver

/-- The versions of a change, as `merge` reports them. -/
def versions (c : StateChange Value) : String × Option UInt64 × UInt64 := (c.key, c.old.map (·.1), c.new.1)

theorem isNewer_iff {c : StateChange Value} : c.isNewer ↔ Versioned.Newer c.old c.new := by
  obtain ⟨key, old, new⟩ := c
  cases old with
  | none => simp [isNewer]
  | some old => simp [isNewer]

end StateChange

namespace State

variable {Value : Type}

def changeTo (self : State Value) (entry : String × UInt64 × Value) : StateChange Value :=
  ⟨entry.1, self.get? entry.1, entry.2⟩

/-- `diff`.  The source wraps the list in an `Ok` and has no other result. -/
def diff (self other : State Value) : List (StateChange Value) :=
  (other.values.toList.map self.changeTo).filter StateChange.isNewer

/-- The state that has the new entries of the changes and nothing else. -/
def ofChanges (changes : List (StateChange Value)) : State Value :=
  ⟨Std.ExtTreeMap.ofList (changes.map fun c => (c.key, c.new))⟩

variable {a b : State Value} {c : StateChange Value} {k : String}

/-! ### What a difference lists -/

/-- **A difference has the entries of the other state that are newer**, each with what stands in its place. -/
theorem mem_diff : c ∈ a.diff b ↔
    b.get? c.key = some c.new ∧ a.get? c.key = c.old ∧ Versioned.Newer c.old c.new := by
  obtain ⟨key, old, new⟩ := c
  simp only [diff, List.mem_filter, List.mem_map, StateChange.isNewer_iff, changeTo, StateChange.mk.injEq]
  constructor
  · rintro ⟨⟨⟨k, e⟩, hmem, rfl, rfl, rfl⟩, hnewer⟩
    exact ⟨mem_toList.1 hmem, rfl, hnewer⟩
  · rintro ⟨hb, ha, hnewer⟩
    exact ⟨⟨(key, new), mem_toList.2 hb, rfl, ha, rfl⟩, hnewer⟩

theorem diff_keys (a b : State Value) : (a.diff b).Pairwise fun c d => c.key ≠ d.key := by
  apply List.Pairwise.filter
  rw [List.pairwise_map]
  exact b.toList_keys

theorem get?_ofChanges_of_mem {changes : List (StateChange Value)}
    (hkeys : changes.Pairwise fun c d => c.key ≠ d.key) (hc : c ∈ changes) :
    (ofChanges changes).get? c.key = some c.new := by
  have hself : compare c.key c.key = .eq := by simp
  have hdistinct : (changes.map fun c => (c.key, c.new)).Pairwise
      (fun p q => ¬ compare p.1 q.1 = .eq) := by
    rw [List.pairwise_map]
    exact hkeys.imp fun h => by simpa using h
  exact Std.ExtTreeMap.getElem?_ofList_of_mem hself hdistinct (List.mem_map.2 ⟨c, hc, rfl⟩)

theorem get?_ofChanges_of_forall_ne {changes : List (StateChange Value)} (hk : ∀ c ∈ changes, c.key ≠ k) :
    (ofChanges changes).get? k = none := by
  have hnot : ((changes.map fun c => (c.key, c.new)).map Prod.fst).contains k = false := by
    simp only [List.map_map, List.contains_eq_mem, List.mem_map, decide_eq_false_iff_not]
    rintro ⟨c, hc, hck⟩
    exact hk c hc hck
  exact Std.ExtTreeMap.getElem?_ofList_of_contains_eq_false hnot

/-! ### The loop of `merge` -/

theorem mergeEntry_snd (s : State Value) (res : List (String × Option UInt64 × UInt64))
    (p : String × UInt64 × Value) :
    (mergeEntry (s, res) p).2 = res ++ ([s.changeTo p].filter StateChange.isNewer).map StateChange.versions := by
  obtain ⟨key, newver, newval⟩ := p
  have hnewer : (s.changeTo (key, newver, newval)).isNewer ↔ Versioned.Newer (s.get? key) (newver, newval) :=
    StateChange.isNewer_iff
  rcases h : s.get? key with _ | v
  · have hpos : (s.changeTo (key, newver, newval)).isNewer := hnewer.2 (h ▸ Versioned.newer_none _)
    rw [List.filter_cons_of_pos hpos]
    simp [mergeEntry, changeTo, StateChange.versions, h]
  · rw [h, Versioned.newer_some] at hnewer
    by_cases hlt : v.1 < newver
    · rw [List.filter_cons_of_pos (hnewer.2 hlt)]
      simp [mergeEntry, changeTo, StateChange.versions, h, hlt.ne, hlt.not_gt]
    · rw [List.filter_cons_of_neg (fun hpos => hlt (hnewer.1 hpos))]
      rcases (not_lt.1 hlt).lt_or_eq with hgt | heq
      · simp [mergeEntry, h, hgt]
      · simp [mergeEntry, h, heq]

/-- The loop reports the changes of a list of entries with distinct keys: an entry is compared with what the state
was before the loop, since the entries before it have other keys. -/
theorem foldl_mergeEntry_snd : ∀ (l : List (String × UInt64 × Value)) (s : State Value)
    (res : List (String × Option UInt64 × UInt64)), l.Pairwise (fun p q => p.1 ≠ q.1) →
    (l.foldl mergeEntry (s, res)).2 =
      res ++ ((l.map s.changeTo).filter StateChange.isNewer).map StateChange.versions := by
  intro l
  induction l with
  | nil => simp
  | cons p l ih =>
    rintro s res (_ | ⟨hp, hl⟩)
    have hframe : l.map (mergeEntry (s, res) p).1.changeTo = l.map s.changeTo := by
      refine List.map_congr_left fun q hq => ?_
      rw [changeTo, changeTo, mergeEntry_get?_of_ne (s, res) p.2 (hp q hq)]
    have hcons : mergeEntry (s, res) p = ((mergeEntry (s, res) p).1, (mergeEntry (s, res) p).2) := rfl
    rw [List.foldl_cons, hcons, ih _ _ hl, hframe, mergeEntry_snd, List.append_assoc, ← List.map_append,
      ← List.filter_append]
    rfl

theorem merge_snd (a b : State Value) : (a.merge b).2 = (a.diff b).map StateChange.versions := by
  rw [merge, foldl_mergeEntry_snd _ _ _ b.toList_keys, diff, List.nil_append]

theorem get?_merge_of_not_changed (hk : ∀ c ∈ a.diff b, c.key ≠ k) : (a.merge b).1.get? k = a.get? k := by
  rw [get?_merge]
  rcases hb : b.get? k with _ | e
  · rw [Versioned.join_none_right]
  · apply Versioned.join_of_not_newer
    intro hnewer
    exact hk ⟨k, a.get? k, e⟩ (mem_diff.2 ⟨hb, rfl, hnewer⟩) rfl

theorem merge_ofChanges_diff (a b : State Value) : (a.merge (ofChanges (a.diff b))).1 = (a.merge b).1 := by
  apply ext_get?
  intro k
  by_cases hk : ∃ c ∈ a.diff b, c.key = k
  · obtain ⟨c, hc, rfl⟩ := hk
    obtain ⟨hb, -, -⟩ := mem_diff.1 hc
    rw [get?_merge, get?_merge, get?_ofChanges_of_mem (diff_keys a b) hc, hb]
  · have hne : ∀ c ∈ a.diff b, c.key ≠ k := fun c hc hck => hk ⟨c, hc, hck⟩
    rw [get?_merge, get?_ofChanges_of_forall_ne hne, Versioned.join_none_right, get?_merge_of_not_changed hne]

theorem merge_diff_self (a b : State Value) : (a.merge b).1.diff b = [] := by
  rw [List.eq_nil_iff_forall_not_mem]
  intro c hc
  obtain ⟨hb, hold, hnewer⟩ := mem_diff.1 hc
  obtain ⟨f, hf, hle⟩ := atLeast_merge a b c.key c.new hb
  rw [hold] at hf
  exact absurd (hnewer f hf) hle.not_gt

/-- **`merge` does what `diff` says.**  It returns the entries of the difference in their order, changes no other
key, leaves no difference to the other state, and the new entries of the difference are all it needs. -/
theorem merge_diff (a b : State Value) :
    (a.merge b).2 = (a.diff b).map (fun c => (c.key, c.old.map (·.1), c.new.1)) ∧
      (∀ k, (∀ c ∈ a.diff b, c.key ≠ k) → (a.merge b).1.get? k = a.get? k) ∧
      (a.merge (ofChanges (a.diff b))).1 = (a.merge b).1 ∧
      (a.merge b).1.diff b = [] :=
  ⟨merge_snd a b, fun _ => get?_merge_of_not_changed, merge_ofChanges_diff a b, merge_diff_self a b⟩

end State

end Greenlight.Persist
