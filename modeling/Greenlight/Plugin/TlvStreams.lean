import Greenlight.Plugin.Tlv

/-!
# TLV streams and their bytes

A byte string is a TLV stream if it consists of complete records whose types and lengths are written in their
shortest form (`Canonical`); these are the byte strings that `to_bytes` writes (`canonical_iff`).  `from_bytes`
reads each of them back (`tlv_roundTrip`), but it is no parser for them: it has no error path, takes sizes that
are longer than needed and leaves a last byte alone, so it does what its type says on TLV streams and on nothing
else (`parsesExactly_iff`).  The limit that `deserialize` sets is dropped before the records are read, and only
a rest of less than two bytes is left alone (`ofHex_delimited_iff`).
-/

namespace Greenlight.Plugin

open Greenlight.Lib

/-- A compact size in its shortest form. -/
def Minimal (p : Bytes) (n : UInt64) : Prop :=
  CompactSize p n ∧ ∀ q, CompactSize q n → p.length ≤ q.length

/-- Complete records, with types and lengths in their shortest form, and nothing behind them. -/
inductive Canonical : Bytes → List TlvEntry → Prop
  | nil : Canonical [] []
  | record {t l value b : Bytes} {typ len : UInt64} {es : List TlvEntry} : Minimal t typ → Minimal l len →
      value.length = len.toNat → Canonical b es → Canonical (t ++ (l ++ (value ++ b))) (⟨typ, value⟩ :: es)

/-! ### Shortest forms -/

theorem length_putCompactSize (n : UInt64) : (putCompactSize n).length =
    if n.toNat < 253 then 1 else if n.toNat < 2 ^ 16 then 3 else if n.toNat < 2 ^ 32 then 5 else 9 := by
  simp only [putCompactSize, UInt64.le_iff_toNat_le, UInt64.reduceToNat]
  split_ifs <;> simp only [List.length_cons, List.length_nil, length_toBe] <;> omega

theorem toNat_beNat {b : Bytes} {k : ℕ} (hb : b.length = k) (hk : k ≤ 8) :
    (UInt64.ofNat (beNat b)).toNat = beNat b ∧ beNat b < 256 ^ k ∧ toBe k (beNat b) = b := by
  subst hb
  have hlt := beNat_lt b
  have hword : 256 ^ b.length ≤ 256 ^ 8 := Nat.pow_le_pow_right (by decide) hk
  exact ⟨UInt64.toNat_ofNat_of_lt (hlt.trans_le hword), hlt, toBe_beNat b⟩

/-- No form is shorter than the one that is written, and one of the same length is the same. -/
theorem CompactSize.putCompactSize_le {p : Bytes} {n : UInt64} (h : CompactSize p n) :
    (putCompactSize n).length ≤ p.length ∧ (p.length ≤ (putCompactSize n).length → p = putCompactSize n) := by
  rw [length_putCompactSize]
  cases h with
  | @one v hv =>
    rw [UInt8.lt_iff_toNat_lt] at hv
    simp only [UInt8.reduceToNat] at hv
    have hn : v.toUInt64.toNat < 253 := by rwa [UInt8.toNat_toUInt64]
    rw [if_pos hn]
    refine ⟨le_rfl, fun _ => ?_⟩
    have hle : v.toUInt64 ≤ 0xFC := by
      rw [UInt64.le_iff_toNat_le]
      simp only [UInt64.reduceToNat]
      omega
    rw [putCompactSize, if_pos hle, UInt8.toUInt8_toUInt64]
  | @two b hb =>
    obtain ⟨hn, hlt, hback⟩ := toNat_beNat hb (by decide)
    rw [hn, List.length_cons, hb]
    refine ⟨by split_ifs <;> omega, fun hle => ?_⟩
    -- a form as short as the one that is written is only there for numbers from 253 on
    have h253 : ¬ beNat b < 253 := fun h => by simp [h] at hle
    simp only [putCompactSize, UInt64.le_iff_toNat_le, UInt64.reduceToNat, hn, hback]
    rw [if_neg (by omega), if_pos (by omega)]
  | @four b hb =>
    obtain ⟨hn, hlt, hback⟩ := toNat_beNat hb (by decide)
    rw [hn, List.length_cons, hb]
    refine ⟨by split_ifs <;> omega, fun hle => ?_⟩
    have h16 : ¬ beNat b < 2 ^ 16 := fun h => by split_ifs at hle <;> omega
    simp only [putCompactSize, UInt64.le_iff_toNat_le, UInt64.reduceToNat, hn, hback]
    rw [if_neg (by omega), if_neg (by omega), if_pos (by omega)]
  | @eight b hb =>
    obtain ⟨hn, hlt, hback⟩ := toNat_beNat hb (by decide)
    rw [hn, List.length_cons, hb]
    refine ⟨by split_ifs <;> omega, fun hle => ?_⟩
    have h32 : ¬ beNat b < 2 ^ 32 := fun h => by split_ifs at hle <;> omega
    simp only [putCompactSize, UInt64.le_iff_toNat_le, UInt64.reduceToNat, hn, hback]
    rw [if_neg (by omega), if_neg (by omega), if_neg (by omega)]

/-- `put_compact_size` writes the shortest form, and there is no other one. -/
theorem minimal_iff {p : Bytes} {n : UInt64} : Minimal p n ↔ p = putCompactSize n := by
  constructor
  · rintro ⟨hp, hmin⟩
    exact hp.putCompactSize_le.2 (hmin _ (compactSize_putCompactSize n))
  · rintro rfl
    exact ⟨compactSize_putCompactSize n, fun q hq => hq.putCompactSize_le.1⟩

theorem getCompactSize_putCompactSize (n : UInt64) (suffix : Bytes) :
    getCompactSize (putCompactSize n ++ suffix) = .ok (n, suffix) :=
  getCompactSize_eq_ok_iff.2 ⟨_, compactSize_putCompactSize n, rfl⟩

theorem CompactSize.append_inj {p q b c : Bytes} {n m : UInt64} (hp : CompactSize p n) (hq : CompactSize q m)
    (h : p ++ b = q ++ c) : n = m ∧ b = c := by
  have hread : getCompactSize (p ++ b) = .ok (n, b) := getCompactSize_eq_ok_iff.2 ⟨p, hp, rfl⟩
  have hread' : getCompactSize (p ++ b) = .ok (m, c) := getCompactSize_eq_ok_iff.2 ⟨q, hq, h⟩
  cases hread.symm.trans hread'
  exact ⟨rfl, rfl⟩

/-! ### Canonical streams -/

namespace SerializedTlvStream

instance (s : SerializedTlvStream) : Decidable s.Fits :=
  inferInstanceAs (Decidable (∀ e ∈ s.entries, e.value.length < 2 ^ 64))

/-- **The canonical streams are those that `to_bytes` writes.** -/
theorem canonical_iff {b : Bytes} {es : List TlvEntry} :
    Canonical b es ↔ (SerializedTlvStream.mk es).Fits ∧ b = toBytes ⟨es⟩ := by
  constructor
  · intro h
    induction h with
    | nil => exact ⟨nofun, rfl⟩
    | @record t l value b typ len es ht hl hv _ ih =>
      obtain ⟨hfits, rfl⟩ := ih
      have hlen : UInt64.ofNat value.length = len := by rw [hv, UInt64.ofNat_toNat]
      refine ⟨fun e he => ?_, ?_⟩
      · rcases List.mem_cons.1 he with rfl | he
        · exact hv ▸ len.toNat_lt
        · exact hfits e he
      · simp only [toBytes, List.flatMap_cons, recordBytes, hlen, minimal_iff.1 ht, minimal_iff.1 hl,
          List.append_assoc]
  · rintro ⟨hfits, rfl⟩
    induction es with
    | nil => exact .nil
    | cons e es ih =>
      have hlen : e.value.length = (UInt64.ofNat e.value.length).toNat :=
        (UInt64.toNat_ofNat_of_lt (hfits e List.mem_cons_self)).symm
      have hrest := ih fun e' he' => hfits e' (List.mem_cons_of_mem _ he')
      simp only [toBytes, List.flatMap_cons, recordBytes, List.append_assoc]
      exact .record (minimal_iff.2 rfl) (minimal_iff.2 rfl) hlen hrest

theorem canonical_toBytes {s : SerializedTlvStream} (h : s.Fits) : Canonical s.toBytes s.entries :=
  canonical_iff.2 ⟨h, rfl⟩

theorem fromBytes_of_canonical {b : Bytes} {es : List TlvEntry} (h : Canonical b es) : fromBytes b = .ok ⟨es⟩ := by
  obtain ⟨hfits, rfl⟩ := canonical_iff.1 h
  exact fromBytes_toBytes hfits

/-- **What is written is read back**, stream by stream and size by size. -/
theorem tlv_roundTrip : (∀ s : SerializedTlvStream, s.Fits → fromBytes s.toBytes = .ok s) ∧
    ∀ (n : UInt64) (suffix : Bytes), getCompactSize (putCompactSize n ++ suffix) = .ok (n, suffix) :=
  ⟨fun _ => fromBytes_toBytes, getCompactSize_putCompactSize⟩

theorem tlv_roundTrip_wide : fromBytes (toBytes ⟨[⟨2, []⟩, ⟨33003, List.replicate 300 7⟩]⟩) =
    .ok ⟨[⟨2, []⟩, ⟨33003, List.replicate 300 7⟩]⟩ := by
  refine tlv_roundTrip.1 _ fun e he => ?_
  simp only [List.mem_cons, List.not_mem_nil, or_false] at he
  rcases he with rfl | rfl
  · exact Nat.two_pow_pos 64
  · rw [List.length_replicate]
    decide

/-! ### What is accepted -/

/-- What the result type of `from_bytes` promises for the bytes: records for a TLV stream, and an error for
anything else. -/
structure ParsesExactly (b : Bytes) : Prop where
  accepts : ∀ s : SerializedTlvStream, fromBytes b = .ok s ↔ Canonical b s.entries
  rewrites : ∀ s : SerializedTlvStream, fromBytes b = .ok s → s.toBytes = b
  rejects : (¬ ∃ es, Canonical b es) → fromBytes b = .error .error

theorem parsesExactly_of_canonical {b : Bytes} {es : List TlvEntry} (h : Canonical b es) : ParsesExactly b := by
  have hread := fromBytes_of_canonical h
  refine ⟨fun s => ⟨fun hs => ?_, fromBytes_of_canonical⟩, fun s hs => ?_, fun hno => absurd ⟨es, h⟩ hno⟩
  · cases hread.symm.trans hs
    exact h
  · cases hread.symm.trans hs
    exact (canonical_iff.1 h).2.symm

theorem canonical_of_parsesExactly {b : Bytes} (h : ParsesExactly b) : ∃ es, Canonical b es := by
  by_contra hno
  exact fromBytes_ne_error b (h.rejects hno)

/-- **The parser does what its type says exactly on TLV streams.** -/
theorem parsesExactly_iff (b : Bytes) : ParsesExactly b ↔ ∃ es, Canonical b es :=
  ⟨canonical_of_parsesExactly, fun ⟨_, h⟩ => parsesExactly_of_canonical h⟩

/-- A record that ends early is a panic, one byte left over and a size in a longer form than needed are accepted. -/
theorem not_parsesExactly : fromBytes [1, 5, 0xaa] = .error .panic ∧ fromBytes [1, 0, 7] = .ok ⟨[⟨1, []⟩]⟩ ∧
    fromBytes [253, 0, 1, 0] = .ok ⟨[⟨1, []⟩]⟩ ∧ ¬ ∀ b, ParsesExactly b := by
  have htruncated : fromBytes [1, 5, 0xaa] = .error .panic := by decide
  refine ⟨htruncated, by decide, by decide, fun h => ?_⟩
  obtain ⟨es, hes⟩ := canonical_of_parsesExactly (h [1, 5, 0xaa])
  cases htruncated.symm.trans (fromBytes_of_canonical hes)

/-! ### Bytes behind the announced length -/

theorem stream_record_iff {t l value b : Bytes} {typ len : UInt64} {es : List TlvEntry} (ht : CompactSize t typ)
    (hl : CompactSize l len) (hv : value.length = len.toNat) :
    Stream (t ++ (l ++ (value ++ b))) es ↔ ∃ es', es = ⟨typ, value⟩ :: es' ∧ Stream b es' := by
  constructor
  · intro h
    generalize hb : t ++ (l ++ (value ++ b)) = bytes at h
    cases h with
    | stop hshort =>
      have := ht.length_pos
      have := hl.length_pos
      rw [← hb] at hshort
      simp only [List.length_append] at hshort
      omega
    | record ht' hl' hv' hrest =>
      -- the bytes fix the sizes, and the sizes where the value ends
      obtain ⟨rfl, hb⟩ := ht.append_inj ht' hb
      obtain ⟨rfl, hb⟩ := hl.append_inj hl' hb
      obtain ⟨rfl, rfl⟩ := List.append_inj hb (hv.trans hv'.symm)
      exact ⟨_, rfl, hrest⟩
  · rintro ⟨es', rfl, hrest⟩
    exact .record ht hl hv hrest

theorem stream_toBytes_append {es es' : List TlvEntry} {rest : Bytes} (hes : (SerializedTlvStream.mk es).Fits) :
    Stream (toBytes ⟨es⟩ ++ rest) es' ↔ ∃ more, es' = es ++ more ∧ Stream rest more := by
  induction es generalizing es' with
  | nil => exact ⟨fun h => ⟨es', rfl, h⟩, fun ⟨_, heq, h⟩ => heq ▸ h⟩
  | cons e es ih =>
    have hlen : e.value.length = (UInt64.ofNat e.value.length).toNat :=
      (UInt64.toNat_ofNat_of_lt (hes e List.mem_cons_self)).symm
    have htail : (SerializedTlvStream.mk es).Fits := fun e' he' => hes e' (List.mem_cons_of_mem _ he')
    have hbytes : toBytes ⟨e :: es⟩ ++ rest = putCompactSize e.typ ++
        (putCompactSize (UInt64.ofNat e.value.length) ++ (e.value ++ (toBytes ⟨es⟩ ++ rest))) := by
      simp only [toBytes, List.flatMap_cons, recordBytes, List.append_assoc]
    rw [hbytes, stream_record_iff (compactSize_putCompactSize _) (compactSize_putCompactSize _) hlen]
    constructor
    · rintro ⟨es₁, rfl, h⟩
      obtain ⟨more, rfl, hmore⟩ := (ih htail).1 h
      exact ⟨more, rfl, hmore⟩
    · rintro ⟨more, rfl, hmore⟩
      exact ⟨es ++ more, rfl, (ih htail).2 ⟨more, rfl, hmore⟩⟩

theorem stream_nil_iff {b : Bytes} : Stream b [] ↔ b.length < 2 :=
  ⟨fun | .stop h => h, .stop⟩

/-- The text of a payload: its bytes behind their number, and a rest. -/
def delimited (body rest : Bytes) : String :=
  hexEncode (putCompactSize (UInt64.ofNat body.length) ++ (body ++ rest))

theorem ofHex_of_hexDecode {text : String} {n : UInt64} {b : Bytes}
    (h : hexDecode text = some (putCompactSize n ++ b)) : ofHex text = fromBytes b := by
  simp only [ofHex, h, getCompactSize_putCompactSize]
  rfl

theorem ofHex_delimited (body rest : Bytes) : ofHex (delimited body rest) = fromBytes (body ++ rest) :=
  ofHex_of_hexDecode (hexDecode_hexEncode _)

/-- **The length prefix delimits nothing**: the stream is read if and only if at most one byte follows it. -/
theorem ofHex_delimited_iff {s : SerializedTlvStream} (hs : s.Fits) (rest : Bytes) :
    ofHex (delimited s.toBytes rest) = .ok s ↔ rest.length < 2 := by
  rw [ofHex_delimited, fromBytes_eq_ok_iff, stream_toBytes_append hs, ← stream_nil_iff]
  constructor
  · rintro ⟨more, heq, hmore⟩
    rwa [List.append_right_eq_self.1 heq.symm] at hmore
  · intro h
    exact ⟨[], (List.append_nil _).symm, h⟩

theorem ofHex_delimited_one : ofHex (delimited (toBytes ⟨[⟨1, [7]⟩]⟩) [9]) = .ok ⟨[⟨1, [7]⟩]⟩ ↔ [9].length < 2 :=
  ofHex_delimited_iff (by decide) [9]

/-- Two bytes behind the announced length become a record. -/
theorem ofHex_overrun : ofHex (delimited (toBytes ⟨[⟨1, [7]⟩]⟩) [3, 0]) = .ok ⟨[⟨1, [7]⟩, ⟨3, []⟩]⟩ ∧
    ¬ ∀ (s : SerializedTlvStream) (rest : Bytes), s.Fits → ofHex (delimited s.toBytes rest) = .ok s := by
  have hmore : ofHex (delimited (toBytes ⟨[⟨1, [7]⟩]⟩) [3, 0]) = .ok ⟨[⟨1, [7]⟩, ⟨3, []⟩]⟩ := by
    rw [ofHex_delimited]
    decide
  refine ⟨hmore, fun h => ?_⟩
  have hone := h ⟨[⟨1, [7]⟩]⟩ [3, 0] (by decide)
  cases hmore.symm.trans hone

end SerializedTlvStream

end Greenlight.Plugin
