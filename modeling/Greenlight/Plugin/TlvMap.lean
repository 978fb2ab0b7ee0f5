import Mathlib.Data.List.Sort
import Greenlight.Lib.Transition
import Greenlight.Plugin.Tlv

/-!
# A stream as an ordered map

The type of the entries is a list, and nothing but the three updates keeps it in order: `insert` looks for the
type, appends and sorts, `set_bytes` overwrites in place or inserts, and `set_tu64` is `set_bytes`.  A stream
that has been built with them stands for a function from types to values, with its entries in strictly
increasing order (`Represents`); each update keeps this and changes the function at its own type
(`Represents.step`).
-/

namespace Greenlight.Plugin

open Greenlight.Lib

/-- The entries in strictly increasing order of their types. -/
def Increasing (es : List TlvEntry) : Prop := es.Pairwise fun a b => a.typ < b.typ

instance (es : List TlvEntry) : Decidable (Increasing es) :=
  inferInstanceAs (Decidable (es.Pairwise fun a b => a.typ < b.typ))

namespace SerializedTlvStream

/-! ### Updates -/

inductive Update where
  | insert (e : TlvEntry)
  | setBytes (typ : UInt64) (val : Bytes)
  | setTu64 (typ : UInt64) (val : UInt64)

def Update.typ : Update → UInt64
  | .insert e => e.typ
  | .setBytes typ _ => typ
  | .setTu64 typ _ => typ

/-- The stream after an update.  The `Err` of an insertion comes before anything is written; `none` is the
`unwrap` of `set_bytes`. -/
def step (s : SerializedTlvStream) : Update → Option SerializedTlvStream
  | .insert e =>
    match s.insert e with
    | .ok s' => some s'
    | .error _ => some s
  | .setBytes typ val => (s.setBytes typ val).toOption
  | .setTu64 typ val => (s.setTu64 typ val).toOption

/-- The values by type. -/
abbrev Content := UInt64 → Option Bytes

/-- What an update does to the values: an insertion sets a value only where none is. -/
def Update.apply (m : Content) : Update → Content
  | .insert e => if (m e.typ).isSome then m else Function.update m e.typ (some e.value)
  | .setBytes typ val => Function.update m typ (some val)
  | .setTu64 typ val => Function.update m typ (some (putTu64 val))

/-- The values most recently set. -/
def lastSet (ops : List Update) : Content := ops.foldl Update.apply fun _ => none

/-- The stream is the map with these values. -/
structure Represents (s : SerializedTlvStream) (m : Content) : Prop where
  increasing : Increasing s.entries
  get_eq : ∀ typ, s.get typ = (m typ).map (TlvEntry.mk typ)

end SerializedTlvStream

open SerializedTlvStream

/-! ### Lists in order -/

theorem Increasing.pairwise_ne {es : List TlvEntry} (h : Increasing es) : es.Pairwise fun a b => a.typ ≠ b.typ :=
  h.imp fun hlt => ne_of_lt hlt

theorem Increasing.nodup {es : List TlvEntry} (h : Increasing es) : es.Nodup :=
  h.pairwise_ne.imp fun hne heq => hne (congrArg TlvEntry.typ heq)

theorem increasing_mergeSort {es : List TlvEntry} (h : es.Pairwise fun a b => a.typ ≠ b.typ) :
    Increasing (es.mergeSort fun a b => a.typ ≤ b.typ) := by
  have hle : (es.mergeSort fun a b => a.typ ≤ b.typ).Pairwise fun a b => decide (a.typ ≤ b.typ) :=
    List.pairwise_mergeSort typ_le_trans typ_le_total es
  have hne : (es.mergeSort fun a b => a.typ ≤ b.typ).Pairwise fun a b => a.typ ≠ b.typ :=
    (List.mergeSort_perm es _).symm.pairwise h Ne.symm
  refine hle.imp₂ (fun a b hle hne => ?_) hne
  exact lt_of_le_of_ne (of_decide_eq_true hle) hne

theorem mem_iff_get {s : SerializedTlvStream} (h : Increasing s.entries) {e : TlvEntry} :
    e ∈ s.entries ↔ s.get e.typ = some e := by
  constructor
  · intro he
    obtain ⟨front, back, hs⟩ := List.append_of_mem he
    have hfront : ∀ a ∈ front, ¬ (a.typ == e.typ) = true := by
      intro a ha
      rw [hs, Increasing, List.pairwise_append] at h
      simpa using ne_of_lt (h.2.2 a ha e List.mem_cons_self)
    rw [SerializedTlvStream.get, List.find?_eq_some_iff_append]
    exact ⟨by simp, front, back, hs, fun a ha => by simpa using hfront a ha⟩
  · intro hget
    exact List.mem_of_find?_eq_some hget

theorem Increasing.ext {es es' : List TlvEntry} (h : Increasing es) (h' : Increasing es')
    (hmem : ∀ e, e ∈ es ↔ e ∈ es') : es = es' := by
  have hperm : es.Perm es' := (List.perm_ext_iff_of_nodup h.nodup h'.nodup).2 hmem
  exact hperm.eq_of_pairwise (fun _ _ _ _ hab hba => absurd hab hba.asymm) h h'

/-! ### One update -/

namespace SerializedTlvStream

theorem get_eq_none_iff {s : SerializedTlvStream} {typ : UInt64} :
    s.get typ = none ↔ ∀ e ∈ s.entries, e.typ ≠ typ := by
  simp [SerializedTlvStream.get, List.find?_eq_none]

theorem increasing_insert {s : SerializedTlvStream} {e : TlvEntry} (h : Increasing s.entries)
    (hnone : ∀ a ∈ s.entries, a.typ ≠ e.typ) :
    Increasing ((s.entries ++ [e]).mergeSort fun a b => a.typ ≤ b.typ) := by
  refine increasing_mergeSort (List.pairwise_append.2 ⟨h.pairwise_ne, List.pairwise_singleton _ _, ?_⟩)
  intro a ha b hb
  rw [List.mem_singleton.1 hb]
  exact hnone a ha

theorem increasing_setBytes {s s' : SerializedTlvStream} {typ : UInt64} {val : Bytes} (h : Increasing s.entries)
    (hset : s.setBytes typ val = .ok s') : Increasing s'.entries := by
  rcases setBytes_cases hset with ⟨front, old, back, hs, -, -, hs'⟩ | ⟨hnone, hs'⟩
  · -- the overwritten entry keeps its type
    rw [hs, Increasing, List.pairwise_append, List.pairwise_cons] at h
    rw [hs', Increasing, List.pairwise_append, List.pairwise_cons]
    refine ⟨h.1, h.2.1, fun a ha b hb => ?_⟩
    rcases List.mem_cons.1 hb with rfl | hb
    · exact h.2.2 a ha old List.mem_cons_self
    · exact h.2.2 a ha b (List.mem_cons_of_mem _ hb)
  · rw [hs']
    exact increasing_insert h hnone

theorem insert_eq_error_iff {s : SerializedTlvStream} {e : TlvEntry} :
    (∃ old, s.insert e = .error old) ↔ (s.get e.typ).isSome := by
  unfold SerializedTlvStream.insert
  cases s.get e.typ with
  | none => simp
  | some old => simp

theorem insert_eq_setBytes {s : SerializedTlvStream} {e : TlvEntry} (hnone : s.get e.typ = none) :
    s.step (.insert e) = s.step (.setBytes e.typ e.value) := by
  have hindex : s.entries.findIdx? (·.typ == e.typ) = none := by
    rw [List.findIdx?_eq_none_iff]
    exact fun a ha => by simpa using get_eq_none_iff.1 hnone a ha
  have hins := insert_of_get_eq_none hnone
  simp only [step, setBytes, hindex, hins]
  rfl

namespace Represents

variable {s s' : SerializedTlvStream} {m : Content}

theorem isSome_get (h : s.Represents m) (typ : UInt64) : (s.get typ).isSome = (m typ).isSome := by
  rw [h.get_eq, Option.isSome_map]

theorem setBytes (h : s.Represents m) {typ : UInt64} {val : Bytes} (hset : s.setBytes typ val = .ok s') :
    s'.Represents (Function.update m typ (some val)) := by
  refine ⟨increasing_setBytes h.increasing hset, fun typ' => ?_⟩
  by_cases heq : typ' = typ
  · subst heq
    rw [get_setBytes_self hset, Function.update_self]
    rfl
  · rw [get_setBytes_of_ne hset (Ne.symm heq), Function.update_of_ne heq, h.get_eq]

/-- **Each update is made**, on the entries as on the values. -/
theorem step (h : s.Represents m) (op : Update) : ∃ s', s.step op = some s' ∧ s'.Represents (op.apply m) := by
  have hset : ∀ typ val, ∃ s', s.step (.setBytes typ val) = some s' ∧
      s'.Represents (Function.update m typ (some val)) := by
    intro typ val
    obtain ⟨s', hs'⟩ := setBytes_eq_ok s typ val
    exact ⟨s', toOption_eq_some.2 hs', h.setBytes hs'⟩
  cases op with
  | insert e =>
    by_cases hsome : (m e.typ).isSome
    · obtain ⟨old, hold⟩ := insert_eq_error_iff.2 ((h.isSome_get e.typ).trans hsome)
      refine ⟨s, by simp only [SerializedTlvStream.step, hold], ?_⟩
      rwa [Update.apply, if_pos hsome]
    · have hnone : s.get e.typ = none := by
        rw [← Option.not_isSome_iff_eq_none, h.isSome_get]
        exact hsome
      rw [insert_eq_setBytes hnone, Update.apply, if_neg hsome]
      exact hset e.typ e.value
  | setBytes typ val => exact hset typ val
  | setTu64 typ val => exact hset typ (putTu64 val)

end Represents

theorem Update.apply_of_ne (m : Content) (op : Update) {typ : UInt64} (hne : typ ≠ op.typ) :
    op.apply m typ = m typ := by
  cases op with
  | insert e =>
    rw [Update.apply]
    split_ifs
    · rfl
    · exact Function.update_of_ne hne _ _
  | setBytes typ' val => exact Function.update_of_ne hne _ _
  | setTu64 typ' val => exact Function.update_of_ne hne _ _

/-- The entries of the other types are left as they are, in their order. -/
theorem Represents.step_frame {s s' : SerializedTlvStream} {m : Content} (h : s.Represents m) {op : Update}
    (hstep : s.step op = some s') :
    s'.entries.filter (·.typ != op.typ) = s.entries.filter (·.typ != op.typ) := by
  obtain ⟨s₁, hs₁, h'⟩ := h.step op
  cases hs₁.symm.trans hstep
  refine Increasing.ext (h'.increasing.filter _) (h.increasing.filter _) fun e => ?_
  rw [List.mem_filter, List.mem_filter, and_congr_left_iff]
  intro hne
  have hne : e.typ ≠ op.typ := by simpa using hne
  rw [mem_iff_get h'.increasing, mem_iff_get h.increasing, h'.get_eq, h.get_eq, op.apply_of_ne m hne]

theorem represents_of_increasing {s : SerializedTlvStream} (h : Increasing s.entries) :
    s.Represents fun typ => (s.get typ).map (·.value) := by
  refine ⟨h, fun typ => ?_⟩
  cases hget : s.get typ with
  | none => rfl
  | some e =>
    have htyp : e.typ = typ := by simpa using List.find?_some hget
    simp [← htyp]

/-! ### Sequences of updates -/

theorem represents_new : Represents new fun _ => none := ⟨.nil, fun _ => rfl⟩

/-- No update of a sequence panics, and the stream stands for the values most recently set. -/
theorem run_represents (ops : List Update) : ∃ s, Run step new ops s ∧ s.Represents (lastSet ops) := by
  induction ops using List.reverseRecOn with
  | nil => exact ⟨new, run_nil.2 rfl, represents_new⟩
  | append_singleton ops op ih =>
    obtain ⟨s, hrun, hs⟩ := ih
    obtain ⟨s', hstep, hs'⟩ := hs.step op
    refine ⟨s', run_concat.2 ⟨s, hrun, hstep⟩, ?_⟩
    rw [lastSet, List.foldl_append]
    exact hs'

/-- **A stream is an ordered map**, after every sequence of updates. -/
theorem updates_orderedMap (ops : List Update) :
    ∃ s, Run step new ops s ∧ Increasing s.entries ∧
      (∀ typ, s.get typ = (lastSet ops typ).map (TlvEntry.mk typ)) ∧
      (∀ op, ∃ s', s.step op = some s' ∧
        s'.entries.filter (·.typ != op.typ) = s.entries.filter (·.typ != op.typ)) ∧
      (∀ e, (∃ old, s.insert e = .error old) ↔ (s.get e.typ).isSome) ∧
      (∀ e old, s.insert e = .error old → s.step (.insert e) = some s) ∧
      ∀ typ val, s.setBytes typ val ≠ .error .panic := by
  obtain ⟨s, hrun, hs⟩ := run_represents ops
  refine ⟨s, hrun, hs.increasing, hs.get_eq, fun op => ?_, fun e => insert_eq_error_iff, ?_, ?_⟩
  · obtain ⟨s', hstep, -⟩ := hs.step op
    exact ⟨s', hstep, hs.step_frame hstep⟩
  · intro e old hold
    simp only [step, hold]
  · intro typ val hpanic
    obtain ⟨s', hs'⟩ := setBytes_eq_ok s typ val
    cases hs'.symm.trans hpanic

end SerializedTlvStream

end Greenlight.Plugin
