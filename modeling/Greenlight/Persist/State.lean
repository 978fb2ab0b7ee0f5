import Std.Data.ExtTreeMap.Lemmas
import Greenlight.Lib.Result
import Greenlight.Lib.Versioned
import Greenlight.Lib.Word

/-!
# The signer state

`State` of `persist.rs`: a `BTreeMap` from keys to versioned values, the updates a signer makes of it, `merge`,
and its form on the wire.  A value is a `serde_json::Value`, of which only reading and writing is used
(`SerdeJson`).  Versions are `u64` and wrap as in a release build.
-/

namespace Greenlight.Persist

open Greenlight.Lib

/-- The part of `serde_json` that is used here: reading and writing a value. -/
structure SerdeJson (Value : Type) where
  fromSlice : Bytes → Option Value
  toVec : Value → Bytes

def SerdeJson.RoundTrip {Value : Type} (json : SerdeJson Value) : Prop :=
  ∀ v, json.fromSlice (json.toVec v) = some v

/-- The literals `true` and `false`. -/
def SerdeJson.bool : SerdeJson Bool where
  fromSlice s :=
    if s = "true".toUTF8.data.toList then some true
    else if s = "false".toUTF8.data.toList then some false
    else none
  toVec b := if b then "true".toUTF8.data.toList else "false".toUTF8.data.toList

theorem SerdeJson.roundTrip_bool : SerdeJson.bool.RoundTrip := by
  unfold RoundTrip
  decide

/-- An entry of the state on the wire. -/
structure SignerStateEntry where
  version : UInt64
  key : String
  value : Bytes
  deriving DecidableEq, Repr

@[ext] structure State (Value : Type) where
  values : Std.ExtTreeMap String (UInt64 × Value)

namespace State

variable {Value : Type}

def new : State Value := ⟨∅⟩

def get? (s : State Value) (key : String) : Option (UInt64 × Value) := s.values[key]?

def insert (s : State Value) (key : String) (entry : UInt64 × Value) : State Value :=
  ⟨s.values.insert key entry⟩

@[simp] theorem get?_new (k : String) : (new : State Value).get? k = none := by simp [get?, new]

@[simp] theorem get?_insert_self (s : State Value) (k : String) (e : UInt64 × Value) :
    (s.insert k e).get? k = some e := by simp [get?, insert]

theorem get?_insert_of_ne (s : State Value) {k k' : String} (e : UInt64 × Value) (h : k ≠ k') :
    (s.insert k e).get? k' = s.get? k' := by
  simp [get?, insert, Std.ExtTreeMap.getElem?_insert, h]

theorem get?_insert (s : State Value) (k k' : String) (e : UInt64 × Value) :
    (s.insert k e).get? k' = if k = k' then some e else s.get? k' := by
  split_ifs with h
  · rw [h, get?_insert_self]
  · exact get?_insert_of_ne s e h

theorem ext_get? {s t : State Value} (h : ∀ k, s.get? k = t.get? k) : s = t :=
  State.ext (Std.ExtTreeMap.ext_getElem? fun {k} => h k)

theorem mem_toList {s : State Value} {k : String} {e : UInt64 × Value} :
    (k, e) ∈ s.values.toList ↔ s.get? k = some e :=
  Std.ExtTreeMap.mem_toList_iff_getElem?_eq_some

theorem toList_keys (s : State Value) : s.values.toList.Pairwise (fun a b => a.1 ≠ b.1) := by
  have h : s.values.toList.Pairwise (fun a b => ¬ compare a.1 b.1 = .eq) :=
    Std.ExtTreeMap.distinct_keys_toList
  exact h.imp fun h' => by simpa using h'

/-! ### Updates -/

/-- An update of an existing entry: the next version with the new value, and a panic (`expect`) without an
entry. -/
def bump (s : State Value) (key : String) (value : Value) : Option (State Value) :=
  (s.get? key).map fun v => s.insert key (v.1 + 1, value)

def updateNode (s : State Value) (key : String) (nodeState : Value) : Option (State Value) :=
  s.bump ("nodestates/" ++ key) nodeState

def updateChannel (s : State Value) (key : String) (channelEntry : Value) : Option (State Value) :=
  s.bump ("channels/" ++ key) channelEntry

/-- `update_node_allowlist`: the list takes the place of the one before, if there is one. -/
def updateNodeAllowlist (s : State Value) (key : String) (allowlist : Value) : State Value :=
  match s.get? ("allowlists/" ++ key) with
  | some v => s.insert ("allowlists/" ++ key) (v.1 + 1, allowlist)
  | none => s.insert ("allowlists/" ++ key) (0, allowlist)

/-- What an update does: the version of the entry goes up by one, and no other entry changes. -/
theorem bump_eq_some {s s' : State Value} {k : String} {x : Value} (h : s.bump k x = some s') :
    ∃ v, s.get? k = some v ∧ s'.get? k = some (v.1 + 1, x) ∧
      ∀ k', k ≠ k' → s'.get? k' = s.get? k' := by
  obtain ⟨v, hv, rfl⟩ := Option.map_eq_some_iff.1 h
  exact ⟨v, hv, get?_insert_self _ _ _, fun k' hk => get?_insert_of_ne _ _ hk⟩

/-! ### Merging -/

/-- The body of the loop in `merge`, for one entry of the other state. -/
def mergeEntry : State Value × List (String × Option UInt64 × UInt64) → String × UInt64 × Value →
    State Value × List (String × Option UInt64 × UInt64)
  | (self, res), (key, newver, newval) =>
    match self.get? key with
    | none => (self.insert key (newver, newval), res ++ [(key, none, newver)])
    | some v =>
      if v.1 = newver then (self, res)
      else if v.1 > newver then (self, res)
      else (self.insert key (newver, newval), res ++ [(key, some v.1, newver)])

/-- `merge`: the updated state and the list of changes.  The source wraps the list in an `Ok` and has no
other result. -/
def merge (self other : State Value) : State Value × List (String × Option UInt64 × UInt64) :=
  other.values.toList.foldl mergeEntry (self, [])

theorem mergeEntry_get?_self (acc : State Value × List (String × Option UInt64 × UInt64)) (k : String)
    (e : UInt64 × Value) :
    (mergeEntry acc (k, e)).1.get? k = Versioned.join (acc.1.get? k) (some e) := by
  obtain ⟨self, res⟩ := acc
  simp only [mergeEntry]
  rcases h : self.get? k with _ | v
  · simp
  · rcases lt_trichotomy v.1 e.1 with hlt | heq | hgt
    · simp [hlt, hlt.ne, hlt.not_gt]
    · simp [heq, h]
    · simp [hgt, hgt.ne', hgt.not_gt, h]

theorem mergeEntry_get?_of_ne (acc : State Value × List (String × Option UInt64 × UInt64)) {k k' : String}
    (e : UInt64 × Value) (hk : k ≠ k') : (mergeEntry acc (k, e)).1.get? k' = acc.1.get? k' := by
  obtain ⟨self, res⟩ := acc
  simp only [mergeEntry]
  rcases self.get? k with _ | v
  · exact get?_insert_of_ne _ _ hk
  · dsimp only
    split_ifs
    · rfl
    · rfl
    · exact get?_insert_of_ne _ _ hk

theorem foldl_mergeEntry_get? {k : String} : ∀ (l : List (String × UInt64 × Value))
    (acc : State Value × List (String × Option UInt64 × UInt64)), l.Pairwise (fun a b => a.1 ≠ b.1) →
    (l.foldl mergeEntry acc).1.get? k =
      Versioned.join (acc.1.get? k) ((l.find? (·.1 = k)).map (·.2)) := by
  intro l
  induction l with
  | nil => simp
  | cons p l ih =>
    rintro acc (_ | ⟨hp, hl⟩)
    rw [List.foldl_cons, ih _ hl]
    by_cases hk : p.1 = k
    · subst hk
      -- no later entry has the key
      have hnone : l.find? (fun q => decide (q.1 = p.1)) = none := by
        rw [List.find?_eq_none]
        intro q hq
        simpa using (hp q hq).symm
      rw [hnone, mergeEntry_get?_self]
      simp
    · rw [mergeEntry_get?_of_ne acc p.2 hk]
      simp [hk]

/-- **The merge is the merge of entries.** -/
theorem get?_merge (a b : State Value) (k : String) :
    (a.merge b).1.get? k = Versioned.join (a.get? k) (b.get? k) := by
  have hb : (b.values.toList.find? (·.1 = k)).map (·.2) = b.get? k := by
    rcases h : b.get? k with _ | e
    · rw [Option.map_eq_none_iff, List.find?_eq_none]
      rintro ⟨k', e'⟩ hmem
      rw [decide_eq_true_iff]
      rintro rfl
      rw [mem_toList.1 hmem] at h
      cases h
    · obtain ⟨⟨k', e'⟩, hf⟩ : ∃ p, b.values.toList.find? (·.1 = k) = some p := by
        rw [← Option.isSome_iff_exists, List.find?_isSome]
        exact ⟨(k, e), mem_toList.2 h, by simp⟩
      have hk : k' = k := by simpa using List.find?_some hf
      subst hk
      rw [hf, Option.map_some, ← h, ← mem_toList.1 (List.mem_of_find?_eq_some hf)]
  rw [merge, foldl_mergeEntry_get? _ _ b.toList_keys, hb]

/-! ### The wire -/

/-- The state as the list of its entries, in the order of the keys. -/
def toEntries (json : SerdeJson Value) (s : State Value) : List SignerStateEntry :=
  s.values.toList.map fun p => ⟨p.2.1, p.1, json.toVec p.2.2⟩

/-- The state of a list of entries; of several entries of one key the last one counts.  The `none` is the
panic of `unwrap` on a value that is no JSON. -/
def ofEntries (json : SerdeJson Value) (entries : List SignerStateEntry) : Option (State Value) := do
  let l ← entries.mapM fun e => (json.fromSlice e.value).map fun v => (e.key, e.version, v)
  return ⟨Std.ExtTreeMap.ofList l⟩

theorem isSome_ofEntries_iff {json : SerdeJson Value} {entries : List SignerStateEntry} :
    (ofEntries json entries).isSome ↔ ∀ e ∈ entries, (json.fromSlice e.value).isSome := by
  simp [ofEntries, isSome_mapM_iff, Option.isSome_bind]

/-- The last entry of its key decides what the state has for the key. -/
theorem get?_ofEntries {json : SerdeJson Value} {pre post : List SignerStateEntry} {e : SignerStateEntry}
    {s : State Value} (h : ofEntries json (pre ++ e :: post) = some s) (hlast : ∀ f ∈ post, f.key ≠ e.key) :
    ∃ v, json.fromSlice e.value = some v ∧ s.get? e.key = some (e.version, v) := by
  simp only [ofEntries, List.mapM_append, List.mapM_cons, Option.bind_eq_bind, Option.pure_def,
    Option.bind_eq_some_iff, Option.map_eq_some_iff, Option.some.injEq] at h
  obtain ⟨l, ⟨lpre, -, l', ⟨_, ⟨v, hv, rfl⟩, lpost, hpost, rfl⟩, rfl⟩, rfl⟩ := h
  refine ⟨v, hv, ?_⟩
  have hnone : lpost.reverse.findSome?
      (fun p => if p.1 = e.key then some p.2 else none) = none := by
    rw [List.findSome?_eq_none_iff]
    intro p hp
    obtain ⟨f, hf, hfp⟩ := (mem_mapM_iff hpost).1 (List.mem_reverse.1 hp)
    obtain ⟨w, -, rfl⟩ := Option.map_eq_some_iff.1 hfp
    simp [hlast f hf]
  rw [get?, Std.ExtTreeMap.ofList_eq_insertMany_empty, Std.ExtTreeMap.getElem?_insertMany_list]
  simp [hnone]

theorem ofEntries_toEntries {json : SerdeJson Value} (h : json.RoundTrip) (s : State Value) :
    ofEntries json (s.toEntries json) = some s := by
  have hmap : ∀ l : List (String × UInt64 × Value),
      (l.map fun p => (⟨p.2.1, p.1, json.toVec p.2.2⟩ : SignerStateEntry)).mapM
        (fun e => (json.fromSlice e.value).map fun v => (e.key, e.version, v)) = some l := by
    intro l
    induction l with
    | nil => rfl
    | cons p l ih => simp [List.mapM_cons, h p.2.2, ih]
  simp only [ofEntries, toEntries, hmap, Option.bind_eq_bind, Option.bind_some, Option.pure_def,
    Option.some.injEq]
  apply ext_get?
  intro k
  rcases hk : s.get? k with _ | e
  · have hmem : ((s.values.toList.map Prod.fst).contains k) = false := by
      simp only [List.contains_eq_mem, List.mem_map, decide_eq_false_iff_not]
      rintro ⟨⟨k', e⟩, he, rfl⟩
      rw [mem_toList.1 he] at hk
      cases hk
    exact Std.ExtTreeMap.getElem?_ofList_of_contains_eq_false hmem
  · have hk' : compare k k = .eq := by simp
    exact Std.ExtTreeMap.getElem?_ofList_of_mem hk' Std.ExtTreeMap.distinct_keys_toList (mem_toList.2 hk)

/-! ### Comparing states -/

/-- `a` has an entry of at least the version of every entry of `b`. -/
def AtLeast (a b : State Value) : Prop := ∀ k, Versioned.AtLeast (a.get? k) (b.get? k)

/-- `a` has every entry of `b`, or one of a strictly greater version in its place. -/
def Covers (a b : State Value) : Prop := ∀ k, Versioned.Covers (a.get? k) (b.get? k)

/-- No key has the same version with two values. -/
def Agree (a b : State Value) : Prop := ∀ k, Versioned.Agree (a.get? k) (b.get? k)

theorem Agree.refl (a : State Value) : a.Agree a := fun _ _ he _ hf _ => Option.some.inj (he.symm.trans hf)

theorem new_agree (a : State Value) : (new : State Value).Agree a := fun k e he => by
  rw [get?_new] at he
  cases he

theorem Agree.symm {a b : State Value} (h : a.Agree b) : b.Agree a := fun k => (h k).symm

theorem agree_merge {a b c : State Value} (h : a.Agree c) (h' : b.Agree c) : (a.merge b).1.Agree c := fun k => by
  rw [get?_merge]
  exact (h k).join_left (h' k)

theorem atLeast_merge (a b : State Value) : (a.merge b).1.AtLeast b := fun k => by
  rw [get?_merge]
  exact Versioned.atLeast_join_right _ _

theorem covers_merge_left (a b : State Value) : (a.merge b).1.Covers a := fun k => by
  rw [get?_merge]
  exact Versioned.covers_join_left _ _

theorem covers_merge_right_iff {a b : State Value} : (a.merge b).1.Covers b ↔ a.Agree b := by
  simp only [Covers, Agree, get?_merge, Versioned.covers_join_right_iff]

end State

end Greenlight.Persist
