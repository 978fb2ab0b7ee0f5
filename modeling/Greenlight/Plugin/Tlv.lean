import Greenlight.Lib.BigEndian
import Greenlight.Lib.Result
import Greenlight.Lib.Text

/-!
# TLV streams

`tlv.rs`: reading and writing of compact sizes and of streams of records.  A read past the end of a buffer is a
panic of the `bytes` crate.  `from_bytes` never returns an error: it returns the records if the bytes are
complete records followed by at most one byte (`Stream`), and panics on all others (`fromBytes_eq_ok_iff`,
`fromBytes_ne_error`).  It reads back what `to_bytes` writes (`fromBytes_toBytes`).
-/

namespace Greenlight.Plugin

open Greenlight.Lib

/-- How a computation ends without a value: with an `Err`, or with a panic. -/
inductive Halt where
  | error
  | panic
  deriving DecidableEq, Repr

abbrev Fallible (α : Type) := Except Halt α

/-! ### Reading a buffer -/

/-- `get_u16`, `get_u32` and `get_u64`, for two, four and eight bytes. -/
def getBe (k : ℕ) (b : Bytes) : Fallible (UInt64 × Bytes) :=
  if b.length < k then .error .panic else .ok (UInt64.ofNat (beNat (b.take k)), b.drop k)

def copyToBytes (len : ℕ) (b : Bytes) : Fallible (Bytes × Bytes) :=
  if b.length < len then .error .panic else .ok (b.take len, b.drop len)

/-- `get_compact_size`; the first byte is that of `get_u8`. -/
def getCompactSize (b : Bytes) : Fallible (UInt64 × Bytes) :=
  match b with
  | [] => .error .panic
  | v :: b =>
    if v = 253 then getBe 2 b
    else if v = 254 then getBe 4 b
    else if v = 255 then getBe 8 b
    else .ok (v.toUInt64, b)

/-! ### Writing a buffer -/

def putCompactSize (cs : UInt64) : Bytes :=
  if cs ≤ 0xFC then [cs.toUInt8]
  else if cs ≤ 0xFFFF then 253 :: toBe 2 cs.toNat
  else if cs ≤ 0xFFFFFFFF then 254 :: toBe 4 cs.toNat
  else 255 :: toBe 8 cs.toNat

/-- `put_tu64`: the bytes of the word without leading zeros. -/
def putTu64 (u : UInt64) : Bytes := (beBytes u).dropWhile (· == 0)

/-! ### Streams -/

structure TlvEntry where
  typ : UInt64
  value : Bytes
  deriving DecidableEq, Repr

structure SerializedTlvStream where
  entries : List TlvEntry
  deriving DecidableEq, Repr

namespace SerializedTlvStream

def new : SerializedTlvStream := ⟨[]⟩

def get (s : SerializedTlvStream) (typ : UInt64) : Option TlvEntry :=
  s.entries.find? (·.typ == typ)

/-- `insert`; the error carries the entry that is there. -/
def insert (s : SerializedTlvStream) (e : TlvEntry) : Except TlvEntry SerializedTlvStream :=
  match s.get e.typ with
  | some old => .error old
  | none => .ok ⟨(s.entries ++ [e]).mergeSort fun a b => a.typ ≤ b.typ⟩

/-- `set_bytes`, with the `unwrap` of its insertion. -/
def setBytes (s : SerializedTlvStream) (typ : UInt64) (val : Bytes) : Fallible SerializedTlvStream :=
  match s.entries.findIdx? (·.typ == typ) with
  | some i => .ok ⟨s.entries.modify i fun e => { e with value := val }⟩
  | none =>
    match s.insert ⟨typ, val⟩ with
    | .ok s => .ok s
    | .error _ => .error .panic

def setTu64 (s : SerializedTlvStream) (typ : UInt64) (val : UInt64) : Fallible SerializedTlvStream :=
  s.setBytes typ (putTu64 val)

/-- The loop of `from_bytes`, for at most `fuel` records. -/
def readRecords : ℕ → Bytes → Fallible (List TlvEntry)
  | 0, _ => .ok []
  | fuel + 1, b =>
    if b.length < 2 then .ok []
    else do
      let (typ, b) ← getCompactSize b
      let (len, b) ← getCompactSize b
      let (value, b) ← copyToBytes len.toNat b
      return ⟨typ, value⟩ :: (← readRecords fuel b)

/-- `from_bytes`; a record has at least two bytes, so there are fewer records than bytes. -/
def fromBytes (b : Bytes) : Fallible SerializedTlvStream := do
  return ⟨← readRecords b.length b⟩

def recordBytes (e : TlvEntry) : Bytes :=
  putCompactSize e.typ ++ (putCompactSize (UInt64.ofNat e.value.length) ++ e.value)

def toBytes (s : SerializedTlvStream) : Bytes := s.entries.flatMap recordBytes

/-- `deserialize` of a hex string: the length prefix is read, and the limit that it sets is lost again with
`into_inner`. -/
def ofHex (s : String) : Fallible SerializedTlvStream := do
  match hexDecode s with
  | none => throw .error
  | some b =>
    let (_l, b) ← getCompactSize b
    fromBytes b

/-! ### What is read -/

end SerializedTlvStream

/-- The forms of a compact size. -/
inductive CompactSize : Bytes → UInt64 → Prop
  | one {v : UInt8} : v < 253 → CompactSize [v] v.toUInt64
  | two {b : Bytes} : b.length = 2 → CompactSize (253 :: b) (UInt64.ofNat (beNat b))
  | four {b : Bytes} : b.length = 4 → CompactSize (254 :: b) (UInt64.ofNat (beNat b))
  | eight {b : Bytes} : b.length = 8 → CompactSize (255 :: b) (UInt64.ofNat (beNat b))

/-- Complete records, and at most one byte behind them. -/
inductive Stream : Bytes → List TlvEntry → Prop
  | stop {b : Bytes} : b.length < 2 → Stream b []
  | record {t l value b : Bytes} {typ len : UInt64} {es : List TlvEntry} : CompactSize t typ →
      CompactSize l len → value.length = len.toNat → Stream b es →
      Stream (t ++ (l ++ (value ++ b))) (⟨typ, value⟩ :: es)

theorem getBe_eq_ok_iff {k : ℕ} {b rest : Bytes} {n : UInt64} : getBe k b = .ok (n, rest) ↔
    ∃ p, p.length = k ∧ b = p ++ rest ∧ n = UInt64.ofNat (beNat p) := by
  unfold getBe
  constructor
  · intro h
    obtain ⟨hlen, h⟩ := guard_eq_ok.1 h
    cases h
    exact ⟨b.take k, by simp only [List.length_take]; omega, (List.take_append_drop k b).symm, rfl⟩
  · rintro ⟨p, rfl, rfl, rfl⟩
    rw [if_neg (by simp), List.take_left, List.drop_left]

theorem copyToBytes_eq_ok_iff {len : ℕ} {b value rest : Bytes} : copyToBytes len b = .ok (value, rest) ↔
    value.length = len ∧ b = value ++ rest := by
  unfold copyToBytes
  constructor
  · intro h
    obtain ⟨hlen, h⟩ := guard_eq_ok.1 h
    cases h
    exact ⟨by simp only [List.length_take]; omega, (List.take_append_drop len b).symm⟩
  · rintro ⟨rfl, rfl⟩
    rw [if_neg (by simp), List.take_left, List.drop_left]

theorem CompactSize.length_pos {p : Bytes} {n : UInt64} (h : CompactSize p n) : 0 < p.length := by
  cases h <;> simp

theorem getCompactSize_eq_ok_iff {b rest : Bytes} {n : UInt64} : getCompactSize b = .ok (n, rest) ↔
    ∃ p, CompactSize p n ∧ b = p ++ rest := by
  constructor
  · intro h
    cases b with
    | nil => cases h
    | cons v b =>
      simp only [getCompactSize] at h
      split at h
      · rename_i hv
        obtain ⟨p, hp, rfl, rfl⟩ := getBe_eq_ok_iff.1 h
        exact ⟨253 :: p, .two hp, by rw [hv]; rfl⟩
      split at h
      · rename_i hv
        obtain ⟨p, hp, rfl, rfl⟩ := getBe_eq_ok_iff.1 h
        exact ⟨254 :: p, .four hp, by rw [hv]; rfl⟩
      split at h
      · rename_i hv
        obtain ⟨p, hp, rfl, rfl⟩ := getBe_eq_ok_iff.1 h
        exact ⟨255 :: p, .eight hp, by rw [hv]; rfl⟩
      · rename_i h253 h254 h255
        cases h
        have hv : v < 253 := by
          rw [UInt8.lt_iff_toNat_lt]
          simp only [← UInt8.toNat_inj, UInt8.reduceToNat] at *
          have := v.toNat_lt
          omega
        exact ⟨[v], .one hv, rfl⟩
  · rintro ⟨p, hp, rfl⟩
    cases hp with
    | @one v hv =>
      have hne : v ≠ 253 ∧ v ≠ 254 ∧ v ≠ 255 := by
        rw [UInt8.lt_iff_toNat_lt] at hv
        simp only [ne_eq, ← UInt8.toNat_inj, UInt8.reduceToNat] at *
        omega
      simp only [List.cons_append, List.nil_append, getCompactSize, hne, if_false]
    | two hb => exact getBe_eq_ok_iff.2 ⟨_, hb, rfl, rfl⟩
    | four hb => exact getBe_eq_ok_iff.2 ⟨_, hb, rfl, rfl⟩
    | eight hb => exact getBe_eq_ok_iff.2 ⟨_, hb, rfl, rfl⟩

theorem compactSize_putCompactSize (n : UInt64) : CompactSize (putCompactSize n) n := by
  have hn := n.toNat_lt
  have hback : ∀ k : ℕ, n.toNat < 256 ^ k → UInt64.ofNat (beNat (toBe k n.toNat)) = n := fun k hk => by
    rw [beNat_toBe hk, UInt64.ofNat_toNat]
  unfold putCompactSize
  simp only [UInt64.le_iff_toNat_le, UInt64.reduceToNat]
  split
  · rename_i h
    have hv : n.toUInt8 < 253 := by
      rw [UInt8.lt_iff_toNat_lt, UInt64.toNat_toUInt8]
      simp only [UInt8.reduceToNat]
      omega
    have heq : n.toUInt8.toUInt64 = n := by
      apply UInt64.toNat.inj
      rw [UInt8.toNat_toUInt64, UInt64.toNat_toUInt8]
      omega
    have hone := CompactSize.one hv
    rwa [heq] at hone
  split
  · have htwo := CompactSize.two (length_toBe 2 n.toNat)
    rwa [hback 2 (by omega)] at htwo
  split
  · have hfour := CompactSize.four (length_toBe 4 n.toNat)
    rwa [hback 4 (by omega)] at hfour
  · have height := CompactSize.eight (length_toBe 8 n.toNat)
    rwa [hback 8 (by omega)] at height

namespace SerializedTlvStream

/-! ### The loop -/

theorem eq_nil_of_stream {b : Bytes} {es : List TlvEntry} (h : Stream b es) (hb : b.length < 2) : es = [] := by
  cases h with
  | stop => rfl
  | record ht hl _ _ =>
    have := ht.length_pos
    have := hl.length_pos
    simp only [List.length_append] at hb
    omega

theorem readRecords_eq_ok_iff {fuel : ℕ} {b : Bytes} {es : List TlvEntry} (hf : b.length ≤ fuel) :
    readRecords fuel b = .ok es ↔ Stream b es := by
  induction fuel generalizing b es with
  | zero =>
    have hshort : b.length < 2 := by omega
    constructor
    · intro h
      cases h
      exact .stop hshort
    · intro h
      rw [eq_nil_of_stream h hshort]
      rfl
  | succ fuel ih =>
    rw [readRecords]
    by_cases hshort : b.length < 2
    · rw [if_pos hshort]
      constructor
      · intro h
        cases h
        exact .stop hshort
      · intro h
        rw [eq_nil_of_stream h hshort]
    · rw [if_neg hshort]
      constructor
      · intro h
        obtain ⟨⟨typ, b₁⟩, htyp, h⟩ := bind_eq_ok.1 h
        obtain ⟨⟨len, b₂⟩, hlen, h⟩ := bind_eq_ok.1 h
        obtain ⟨⟨value, b₃⟩, hvalue, h⟩ := bind_eq_ok.1 h
        obtain ⟨es', hrest, h⟩ := bind_eq_ok.1 h
        cases h
        obtain ⟨t, ht, rfl⟩ := getCompactSize_eq_ok_iff.1 htyp
        obtain ⟨l, hl, rfl⟩ := getCompactSize_eq_ok_iff.1 hlen
        obtain ⟨hv, rfl⟩ := copyToBytes_eq_ok_iff.1 hvalue
        have := ht.length_pos
        simp only [List.length_append] at hf
        -- a record takes a byte or more, so the fuel is enough for the rest
        exact .record ht hl hv ((ih (by omega)).1 hrest)
      · intro h
        cases h with
        | stop h => exact absurd h hshort
        | @record t l value b typ len es ht hl hv hs =>
          have := ht.length_pos
          simp only [List.length_append] at hf
          have htyp : getCompactSize (t ++ (l ++ (value ++ b))) = .ok (typ, l ++ (value ++ b)) :=
            getCompactSize_eq_ok_iff.2 ⟨t, ht, rfl⟩
          have hlen : getCompactSize (l ++ (value ++ b)) = .ok (len, value ++ b) :=
            getCompactSize_eq_ok_iff.2 ⟨l, hl, rfl⟩
          have hvalue : copyToBytes len.toNat (value ++ b) = .ok (value, b) :=
            copyToBytes_eq_ok_iff.2 ⟨hv, rfl⟩
          have hrest := (ih (by omega)).2 hs
          refine bind_eq_ok.2 ⟨_, htyp, bind_eq_ok.2 ⟨_, hlen, bind_eq_ok.2 ⟨_, hvalue, ?_⟩⟩⟩
          exact bind_eq_ok.2 ⟨_, hrest, rfl⟩

/-- **What `from_bytes` accepts.** -/
theorem fromBytes_eq_ok_iff {b : Bytes} {s : SerializedTlvStream} : fromBytes b = .ok s ↔ Stream b s.entries := by
  unfold fromBytes
  constructor
  · intro h
    obtain ⟨es, hes, h⟩ := bind_eq_ok.1 h
    cases h
    exact (readRecords_eq_ok_iff le_rfl).1 hes
  · intro h
    exact bind_eq_ok.2 ⟨s.entries, (readRecords_eq_ok_iff le_rfl).2 h, rfl⟩

theorem getBe_ne_error (k : ℕ) (b : Bytes) : getBe k b ≠ .error .error := by
  unfold getBe
  split <;> exact nofun

theorem getCompactSize_ne_error (b : Bytes) : getCompactSize b ≠ .error .error := by
  cases b with
  | nil => exact nofun
  | cons v b =>
    simp only [getCompactSize]
    split
    · exact getBe_ne_error _ _
    split
    · exact getBe_ne_error _ _
    split
    · exact getBe_ne_error _ _
    · exact nofun

theorem copyToBytes_ne_error (len : ℕ) (b : Bytes) : copyToBytes len b ≠ .error .error := by
  unfold copyToBytes
  split <;> exact nofun

theorem readRecords_ne_error (fuel : ℕ) (b : Bytes) : readRecords fuel b ≠ .error .error := by
  induction fuel generalizing b with
  | zero => exact nofun
  | succ fuel ih =>
    rw [readRecords]
    split
    · exact nofun
    · refine bind_ne_error (getCompactSize_ne_error _) fun _ _ => ?_
      refine bind_ne_error (getCompactSize_ne_error _) fun _ _ => ?_
      refine bind_ne_error (copyToBytes_ne_error _ _) fun _ _ => ?_
      exact bind_ne_error (ih _) fun _ _ => nofun

/-- There is no `Err`: bytes that are not a stream are a panic. -/
theorem fromBytes_ne_error (b : Bytes) : fromBytes b ≠ .error .error :=
  bind_ne_error (readRecords_ne_error _ _) fun _ _ => nofun

/-! ### Round trip -/

/-- The lengths of the values fit a word. -/
def Fits (s : SerializedTlvStream) : Prop := ∀ e ∈ s.entries, e.value.length < 2 ^ 64

theorem stream_flatMap {es : List TlvEntry} (h : ∀ e ∈ es, e.value.length < 2 ^ 64) :
    Stream (es.flatMap recordBytes) es := by
  induction es with
  | nil => exact .stop (by decide)
  | cons e es ih =>
    have hlen : e.value.length = (UInt64.ofNat e.value.length).toNat :=
      (UInt64.toNat_ofNat_of_lt (h e (List.mem_cons_self ..))).symm
    have hrest := ih fun e' he' => h e' (List.mem_cons_of_mem _ he')
    simp only [List.flatMap_cons, recordBytes, List.append_assoc]
    exact .record (compactSize_putCompactSize _) (compactSize_putCompactSize _) hlen hrest

theorem fromBytes_toBytes {s : SerializedTlvStream} (h : s.Fits) : fromBytes s.toBytes = .ok s :=
  fromBytes_eq_ok_iff.2 (stream_flatMap h)

/-! ### Updates -/

theorem insert_of_get_eq_none {s : SerializedTlvStream} {e : TlvEntry} (h : s.get e.typ = none) :
    s.insert e = .ok ⟨(s.entries ++ [e]).mergeSort fun a b => a.typ ≤ b.typ⟩ := by
  rw [insert, h]

theorem filter_mergeSort {α : Type} {le : α → α → Bool} (htrans : ∀ a b c, le a b → le b c → le a c)
    (htotal : ∀ a b, le a b || le b a) {p : α → Bool} (hp : ∀ a b, p a → p b → le a b) (l : List α) :
    (l.mergeSort le).filter p = l.filter p := by
  have hpair : (l.filter p).Pairwise fun a b => le a b := by
    refine List.pairwise_of_forall_mem_list fun a ha b hb => ?_
    exact hp a b (List.mem_filter.1 ha).2 (List.mem_filter.1 hb).2
  have hsub := (List.sublist_mergeSort htrans htotal hpair List.filter_sublist).filter p
  rw [List.filter_filter] at hsub
  simp only [Bool.and_self] at hsub
  exact (hsub.eq_of_length ((List.mergeSort_perm l le).filter p).length_eq.symm).symm

theorem typ_le_trans (a b c : TlvEntry) (hab : decide (a.typ ≤ b.typ)) (hbc : decide (b.typ ≤ c.typ)) :
    decide (a.typ ≤ c.typ) := by
  simp only [decide_eq_true_eq] at *
  exact le_trans hab hbc

theorem typ_le_total (a b : TlvEntry) : decide (a.typ ≤ b.typ) || decide (b.typ ≤ a.typ) := by
  simp only [Bool.or_eq_true, decide_eq_true_eq]
  exact le_total a.typ b.typ

theorem filter_typ_mergeSort (es : List TlvEntry) (typ : UInt64) :
    (es.mergeSort fun a b => a.typ ≤ b.typ).filter (·.typ == typ) = es.filter (·.typ == typ) := by
  refine filter_mergeSort typ_le_trans typ_le_total ?_ es
  intro a b ha hb
  simp only [beq_iff_eq] at ha hb
  simp [ha, hb]

/-- The `unwrap` of `set_bytes` is behind a look at the types that are there. -/
theorem setBytes_eq_ok (s : SerializedTlvStream) (typ : UInt64) (val : Bytes) :
    ∃ s', s.setBytes typ val = .ok s' := by
  unfold setBytes
  cases hi : s.entries.findIdx? (·.typ == typ) with
  | some i => exact ⟨_, rfl⟩
  | none =>
    have hnone : s.get typ = none := by
      rw [List.findIdx?_eq_none_iff] at hi
      exact List.find?_eq_none.2 fun e he => by simp [hi e he]
    have hins : s.insert ⟨typ, val⟩ = .ok _ := insert_of_get_eq_none hnone
    rw [hins]
    exact ⟨_, rfl⟩

/-- What `set_bytes` does: it replaces the value of the first entry of the type, or adds an entry. -/
theorem setBytes_cases {s s' : SerializedTlvStream} {typ : UInt64} {val : Bytes} (h : s.setBytes typ val = .ok s') :
    (∃ front old back, s.entries = front ++ old :: back ∧ (∀ e ∈ front, e.typ ≠ typ) ∧ old.typ = typ ∧
      s'.entries = front ++ { old with value := val } :: back) ∨
    ((∀ e ∈ s.entries, e.typ ≠ typ) ∧
      s'.entries = (s.entries ++ [TlvEntry.mk typ val]).mergeSort fun a b => a.typ ≤ b.typ) := by
  unfold setBytes at h
  cases hi : s.entries.findIdx? (·.typ == typ) with
  | some i =>
    rw [hi] at h
    cases h
    obtain ⟨hlt, htyp, hfront⟩ := List.findIdx?_eq_some_iff_getElem.1 hi
    refine Or.inl ⟨s.entries.take i, s.entries[i], s.entries.drop (i + 1), ?_, ?_, by simpa using htyp, ?_⟩
    · rw [List.getElem_cons_drop, List.take_append_drop]
    · intro e he
      obtain ⟨j, hj, rfl⟩ := List.mem_iff_getElem.1 he
      rw [List.length_take] at hj
      simpa using hfront j (by omega)
    · exact List.modify_eq_take_cons_drop hlt
  | none =>
    have hall : ∀ e ∈ s.entries, e.typ ≠ typ := by
      rw [List.findIdx?_eq_none_iff] at hi
      exact fun e he => by simpa using hi e he
    have hnone : s.get typ = none := List.find?_eq_none.2 fun e he => by simpa using hall e he
    -- no entry has the type, so the insertion succeeds and its `unwrap` too
    have hins : s.insert ⟨typ, val⟩ = .ok _ := insert_of_get_eq_none hnone
    rw [hi] at h
    simp only [hins] at h
    cases h
    exact Or.inr ⟨hall, rfl⟩

theorem get_eq_head?_filter (s : SerializedTlvStream) (typ : UInt64) :
    s.get typ = (s.entries.filter (·.typ == typ)).head? := List.head?_filter.symm

theorem get_setBytes_self {s s' : SerializedTlvStream} {typ : UInt64} {val : Bytes}
    (h : s.setBytes typ val = .ok s') : s'.get typ = some ⟨typ, val⟩ := by
  rw [get_eq_head?_filter]
  rcases setBytes_cases h with ⟨front, old, back, -, hfront, rfl, hs'⟩ | ⟨hall, hs'⟩
  · have hnone : front.filter (·.typ == old.typ) = [] := by
      rw [List.filter_eq_nil_iff]
      exact fun e he => by simpa using hfront e he
    simp [hs', List.filter_append, hnone]
  · have hnone : s.entries.filter (·.typ == typ) = [] := by
      rw [List.filter_eq_nil_iff]
      exact fun e he => by simpa using hall e he
    rw [hs', filter_typ_mergeSort, List.filter_append, hnone]
    simp

theorem get_setBytes_of_ne {s s' : SerializedTlvStream} {typ typ' : UInt64} {val : Bytes}
    (h : s.setBytes typ val = .ok s') (hne : typ ≠ typ') : s'.get typ' = s.get typ' := by
  rw [get_eq_head?_filter, get_eq_head?_filter]
  rcases setBytes_cases h with ⟨front, old, back, hs, -, rfl, hs'⟩ | ⟨-, hs'⟩
  · have hold : (old.typ == typ') = false := by simpa using hne
    simp [hs, hs', List.filter_append, hold]
  · have hnew : (typ == typ') = false := by simpa using hne
    rw [hs', filter_typ_mergeSort, List.filter_append]
    simp [hnew]

theorem Fits.setBytes {s s' : SerializedTlvStream} {typ : UInt64} {val : Bytes} (hs : s.Fits)
    (hval : val.length < 2 ^ 64) (h : s.setBytes typ val = .ok s') : s'.Fits := by
  intro e he
  rcases setBytes_cases h with ⟨front, old, back, hold, -, -, hs'⟩ | ⟨-, hs'⟩
  · rw [hs', List.mem_append, List.mem_cons] at he
    rcases he with he | rfl | he
    · exact hs e (by simp [hold, he])
    · exact hval
    · exact hs e (by simp [hold, he])
  · rw [hs', List.mem_mergeSort, List.mem_append, List.mem_singleton] at he
    rcases he with he | rfl
    · exact hs e he
    · exact hval

end SerializedTlvStream

end Greenlight.Plugin
