import Greenlight.Persist.State

/-!
# Convergence of merges

The signers, the plugin and the store merge their states in every order and grouping.  For a family of states in
which one version of a key has one value the result is the same however they go about it: each key has the newest
entry of the family (`merge_converges`).
-/

namespace Greenlight.Persist

open Greenlight.Lib

variable {Value : Type} {ι : Type*}

/-- A way to merge members of a family: the left state merges the right one. -/
inductive MergeTree (ι : Type*) where
  | member (i : ι)
  | merge (self other : MergeTree ι)

namespace MergeTree

def members : MergeTree ι → List ι
  | member i => [i]
  | merge self other => self.members ++ other.members

def eval (f : ι → State Value) : MergeTree ι → State Value
  | member i => f i
  | merge self other => ((self.eval f).merge (other.eval f)).1

/-- Every member of the family occurs, any number of times. -/
def IsComplete (t : MergeTree ι) : Prop := ∀ i, i ∈ t.members

/-- A starting member that merges members one after the other. -/
def ofList : MergeTree ι → List ι → MergeTree ι
  | t, [] => t
  | t, i :: l => ofList (merge t (member i)) l

theorem members_ofList (t : MergeTree ι) (l : List ι) : (ofList t l).members = t.members ++ l := by
  induction l generalizing t with
  | nil => simp [ofList]
  | cons i l ih => simp [ofList, ih, members]

theorem eval_ofList (f : ι → State Value) (t : MergeTree ι) (l : List ι) :
    (ofList t l).eval f = l.foldl (fun s i => (s.merge (f i)).1) (t.eval f) := by
  induction l generalizing t with
  | nil => rfl
  | cons i l ih => rw [ofList, ih, List.foldl_cons, eval, eval]

end MergeTree

/-- The entries that the members of the list have for the key. -/
def entriesOf (f : ι → State Value) (is : List ι) (k : String) : Set (UInt64 × Value) :=
  {e | ∃ i ∈ is, e ∈ (f i).get? k}

theorem entriesOf_append (f : ι → State Value) (is js : List ι) (k : String) :
    entriesOf f (is ++ js) k = entriesOf f is k ∪ entriesOf f js k := by
  ext e
  constructor
  · rintro ⟨i, hi, he⟩
    rcases List.mem_append.1 hi with hi | hi
    · exact Or.inl ⟨i, hi, he⟩
    · exact Or.inr ⟨i, hi, he⟩
  · rintro (⟨i, hi, he⟩ | ⟨i, hi, he⟩)
    · exact ⟨i, List.mem_append_left _ hi, he⟩
    · exact ⟨i, List.mem_append_right _ hi, he⟩

theorem newest_eval (f : ι → State Value) (t : MergeTree ι) (k : String) :
    Versioned.Newest (entriesOf f t.members k) ((t.eval f).get? k) := by
  induction t with
  | member i =>
    have hset : entriesOf f [i] k = {e | e ∈ (f i).get? k} := by
      ext e
      simp [entriesOf]
    rw [MergeTree.members, hset, MergeTree.eval]
    exact Versioned.newest_option _
  | merge self other ihself ihother =>
    rw [MergeTree.members, entriesOf_append, MergeTree.eval, State.get?_merge]
    exact ihself.join ihother

theorem newest_unique {f : ι → State Value} (hagree : ∀ i j, (f i).Agree (f j)) {is : List ι} {k : String}
    {a b : Option (UInt64 × Value)} (ha : Versioned.Newest (entriesOf f is k) a)
    (hb : Versioned.Newest (entriesOf f is k) b) : a = b := by
  refine ha.unique ?_ hb
  rintro e ⟨i, -, he⟩ e' ⟨j, -, he'⟩ hver
  exact hagree i j k e he e' he' hver

theorem eval_eq_of_members {f : ι → State Value} (hagree : ∀ i j, (f i).Agree (f j)) {t t' : MergeTree ι}
    (h : ∀ i, i ∈ t.members ↔ i ∈ t'.members) : t.eval f = t'.eval f := by
  apply State.ext_get?
  intro k
  have hsame : entriesOf f t.members k = entriesOf f t'.members k := by
    ext e
    exact exists_congr fun i => and_congr_left' (h i)
  exact newest_unique hagree (hsame ▸ newest_eval f t k) (newest_eval f t' k)

/-- The family has the entry for the key, and no newer one. -/
def IsGreatestEntry (f : ι → State Value) (k : String) (e : UInt64 × Value) : Prop :=
  (∃ i, (f i).get? k = some e) ∧ ∀ i v, (f i).get? k = some v → v.1 ≤ e.1

/-- **Merging converges.**  All ways to merge the whole of a family that agrees give one state: every key has the
greatest entry of the family, and there is no other key. In particular merging is commutative, associative and
idempotent on the family. -/
theorem merge_converges (f : ι → State Value) (hagree : ∀ i j, (f i).Agree (f j)) :
    (∀ t t' : MergeTree ι, t.IsComplete → t'.IsComplete → t.eval f = t'.eval f) ∧
    (∀ (t : MergeTree ι) (i : ι) (l : List ι), t.IsComplete → (∀ j, j = i ∨ j ∈ l) →
      l.foldl (fun s j => (s.merge (f j)).1) (f i) = t.eval f) ∧
    (∀ t : MergeTree ι, t.IsComplete → ∀ k e, (t.eval f).get? k = some e ↔ IsGreatestEntry f k e) ∧
    (∀ i j, ((f i).merge (f j)).1 = ((f j).merge (f i)).1) ∧
    (∀ i j k, (((f i).merge (f j)).1.merge (f k)).1 = ((f i).merge ((f j).merge (f k)).1).1) ∧
    ∀ i, ((f i).merge (f i)).1 = f i := by
  refine ⟨fun t t' ht ht' => ?_, fun t i l ht hl => ?_, fun t ht k e => ?_, fun i j => ?_, fun i j k => ?_,
    fun i => ?_⟩
  · exact eval_eq_of_members hagree fun i => ⟨fun _ => ht' i, fun _ => ht i⟩
  · have hlist : (MergeTree.ofList (.member i) l).eval f = t.eval f :=
      eval_eq_of_members hagree fun j => by
        rw [MergeTree.members_ofList, MergeTree.members]
        exact ⟨fun _ => ht j, fun _ => by simpa using hl j⟩
    rwa [MergeTree.eval_ofList, MergeTree.eval] at hlist
  · have hnewest := newest_eval f t k
    constructor
    · intro he
      obtain ⟨i, -, hi⟩ := hnewest.mem e he
      refine ⟨⟨i, hi⟩, fun j v hv => ?_⟩
      obtain ⟨w, hw, hle⟩ := hnewest.le v ⟨j, ht j, hv⟩
      rw [he] at hw
      exact Option.mem_some_iff.1 hw ▸ hle
    · rintro ⟨⟨i, hi⟩, hmax⟩
      -- the greatest entry is a newest one, and there is only one of these
      have hother : Versioned.Newest (entriesOf f t.members k) (some e) := by
        refine ⟨fun e' he' => ?_, fun e' he' => ?_⟩
        · obtain rfl := Option.mem_some_iff.1 he'
          exact ⟨i, ht i, hi⟩
        · obtain ⟨j, -, hj⟩ := he'
          exact ⟨e, rfl, hmax j e' hj⟩
      exact newest_unique hagree hnewest hother
  · have hcomm : (MergeTree.merge (.member i) (.member j)).eval f =
        (MergeTree.merge (.member j) (.member i)).eval f :=
      eval_eq_of_members hagree fun k => by simp [MergeTree.members, or_comm]
    exact hcomm
  · have hassoc : (MergeTree.merge (.merge (.member i) (.member j)) (.member k)).eval f =
        (MergeTree.merge (.member i) (.merge (.member j) (.member k))).eval f :=
      eval_eq_of_members hagree fun l => by simp [MergeTree.members]
    exact hassoc
  · have hidem : (MergeTree.merge (.member i) (.member i)).eval f = (MergeTree.member i).eval f :=
      eval_eq_of_members hagree fun k => by simp [MergeTree.members]
    exact hidem

/-- The states of two signers: one has updated the node, the other one a channel. -/
def updatedStates : Bool → State Bool
  | false => (State.new.insert "nodestates/a" (1, true)).insert "channels/b" (0, false)
  | true => (State.new.insert "nodestates/a" (0, false)).insert "channels/b" (1, true)

theorem merge_converges_two : (∀ i j, (updatedStates i).Agree (updatedStates j)) ∧
    (((updatedStates false).merge (updatedStates true)).1 = ((updatedStates true).merge (updatedStates false)).1) ∧
    ∀ k e, ((updatedStates false).merge (updatedStates true)).1.get? k = some e ↔
      IsGreatestEntry updatedStates k e := by
  have hagree : ∀ i j, (updatedStates i).Agree (updatedStates j) := by
    intro i j k e he e' he' hver
    cases i <;> cases j <;> simp only [updatedStates, State.get?_insert, State.get?_new] at he he' <;>
      split_ifs at he he' <;> cases he <;> cases he' <;> first | rfl | exact absurd hver (by decide)
  obtain ⟨-, -, hgreatest, hcomm, -, -⟩ := merge_converges updatedStates hagree
  refine ⟨hagree, hcomm false true, hgreatest (.merge (.member false) (.member true)) fun i => ?_⟩
  cases i <;> simp [MergeTree.members]

end Greenlight.Persist
