import Mathlib.Data.List.Infix
import Greenlight.Lib.Word

/-!
# Text

The operations on strings that the code uses, as operations on their lists of characters.
-/

namespace Greenlight.Lib

/-- `str::split` at a character. -/
def split (s : String) (c : Char) : List String := (s.toList.splitOn c).map String.ofList

theorem split_eq_singleton {s : String} {c : Char} (h : c ∉ s.toList) : split s c = [s] := by
  simp [split, List.splitOn_eq_singleton h]

theorem split_append {s t u : String} {c : Char} (hu : u.toList = c :: t.toList) (h : c ∉ s.toList) :
    split (s ++ u) c = s :: split t c := by
  simp [split, hu, List.splitOn_append_cons_self_of_not_mem h]

/-- Joined strings without the separator are split into these again. -/
theorem split_intercalate {l : List String} {c : Char} (hne : l ≠ []) (h : ∀ s ∈ l, c ∉ s.toList) :
    split ((String.ofList [c]).intercalate l) c = l := by
  have hsep : ∀ chars ∈ l.map String.toList, c ∉ chars := List.forall_mem_map.2 h
  rw [split, String.toList_intercalate, String.toList_ofList, List.splitOn_intercalate c hsep (by simpa using hne),
    List.map_map]
  simp

theorem not_mem_intercalate {sep : String} {l : List String} {c : Char} (hsep : c ∉ sep.toList)
    (h : ∀ s ∈ l, c ∉ s.toList) : c ∉ (sep.intercalate l).toList := by
  induction l with
  | nil => simp
  | cons s l ih =>
    obtain ⟨hs, hl⟩ := List.forall_mem_cons.1 h
    cases l with
    | nil => rwa [String.intercalate_singleton]
    | cons t l =>
      rw [String.intercalate_cons_cons, String.toList_append, String.toList_append]
      simp only [List.mem_append, not_or]
      exact ⟨⟨hs, hsep⟩, ih hl⟩

/-- `str::starts_with` of a string. -/
def startsWith (s pat : String) : Bool := decide (pat.toList <+: s.toList)

/-- `str::contains` of a string. -/
def containsStr (s pat : String) : Bool := decide (pat.toList <:+: s.toList)

/-- The place of the first occurrence of a pattern. -/
def findPos (pat : List Char) : List Char → Option ℕ
  | [] => if pat = [] then some 0 else none
  | c :: s => if pat <+: c :: s then some 0 else (findPos pat s).map (· + 1)

/-- `str::find` of a string: an index in bytes. -/
def find (s pat : String) : Option ℕ :=
  (findPos pat.toList s.toList).map fun i => (String.ofList (s.toList.take i)).utf8ByteSize

/-- The number of occurrences of a pattern that do not overlap, after `skip` characters. -/
def countMatches (pat : List Char) : List Char → ℕ → ℕ
  | [], _ => 0
  | _ :: s, skip + 1 => countMatches pat s skip
  | c :: s, 0 => if pat <+: c :: s then countMatches pat s (pat.length - 1) + 1 else countMatches pat s 0

/-- `str::matches(..).count()` of a string that is not empty. -/
def matchesCount (s pat : String) : ℕ := countMatches pat.toList s.toList 0

/-- `str::as_bytes`. -/
def utf8 (s : String) : Bytes := s.toUTF8.data.toList

theorem utf8_injective : Function.Injective utf8 := by
  intro s t h
  rw [← String.toByteArray_inj]
  exact ByteArray.ext (Array.toList_inj.1 h)

theorem fromUTF8_utf8 (s : String) : String.fromUTF8? ⟨(utf8 s).toArray⟩ = some s := by
  have hb : (⟨(utf8 s).toArray⟩ : ByteArray) = s.toByteArray := by
    rw [utf8, Array.toArray_toList]
    rfl
  rw [hb, String.fromUTF8?, dif_pos s.isValidUTF8]
  rfl

def hexEncode (bytes : Bytes) : String :=
  String.ofList (bytes.flatMap fun b => [Nat.digitChar (b.toNat / 16), Nat.digitChar (b.toNat % 16)])

theorem exists_digitChar_of_mem_hexEncode {bytes : Bytes} {c : Char} (h : c ∈ (hexEncode bytes).toList) :
    ∃ n < 16, c = Nat.digitChar n := by
  simp only [hexEncode, String.toList_ofList, List.mem_flatMap, List.mem_cons, List.not_mem_nil, or_false] at h
  obtain ⟨b, -, rfl | rfl⟩ := h
  · exact ⟨_, by have := b.toNat_lt; omega, rfl⟩
  · exact ⟨_, by omega, rfl⟩

theorem hexEncode_isAlphanum (bytes : Bytes) : ∀ c ∈ (hexEncode bytes).toList, c.isAlphanum := by
  have hdigit : ∀ n < 16, (Nat.digitChar n).isAlphanum := by decide
  intro c hc
  obtain ⟨n, hn, rfl⟩ := exists_digitChar_of_mem_hexEncode hc
  exact hdigit n hn

def hexValue (c : Char) : Option ℕ :=
  if '0' ≤ c ∧ c ≤ '9' then some (c.toNat - '0'.toNat)
  else if 'a' ≤ c ∧ c ≤ 'f' then some (c.toNat - 'a'.toNat + 10)
  else if 'A' ≤ c ∧ c ≤ 'F' then some (c.toNat - 'A'.toNat + 10)
  else none

def hexBytes : List Char → Option Bytes
  | [] => some []
  | [_] => none
  | hi :: lo :: cs => do
    return UInt8.ofNat (16 * (← hexValue hi) + (← hexValue lo)) :: (← hexBytes cs)

/-- `hex::decode`; the error is left out. -/
def hexDecode (s : String) : Option Bytes := hexBytes s.toList

theorem hexValue_digitChar : ∀ {n : ℕ}, n < 16 → hexValue (Nat.digitChar n) = some n := by
  decide

theorem hexDecode_hexEncode (b : Bytes) : hexDecode (hexEncode b) = some b := by
  rw [hexDecode, hexEncode, String.toList_ofList]
  induction b with
  | nil => rfl
  | cons byte b ih =>
    have hlt := byte.toNat_lt
    have hhi : hexValue (Nat.digitChar (byte.toNat / 16)) = some (byte.toNat / 16) :=
      hexValue_digitChar (by omega)
    have hlo : hexValue (Nat.digitChar (byte.toNat % 16)) = some (byte.toNat % 16) :=
      hexValue_digitChar (by omega)
    have hbyte : UInt8.ofNat (16 * (byte.toNat / 16) + byte.toNat % 16) = byte := by
      rw [Nat.div_add_mod, UInt8.ofNat_toNat]
    simp only [List.flatMap_cons, List.cons_append, List.nil_append, hexBytes, hhi, hlo, ih,
      Option.bind_eq_bind, Option.bind_some, hbyte]
    rfl

theorem hexEncode_injective : Function.Injective hexEncode := by
  intro a b h
  have hdecode := congrArg hexDecode h
  rwa [hexDecode_hexEncode, hexDecode_hexEncode, Option.some.injEq] at hdecode

theorem hexEncode_append (a b : Bytes) : hexEncode (a ++ b) = hexEncode a ++ hexEncode b := by
  simp [hexEncode]

theorem length_hexEncode (b : Bytes) : (hexEncode b).toList.length = 2 * b.length := by
  rw [hexEncode, String.toList_ofList]
  induction b with
  | nil => rfl
  | cons byte b ih =>
    simp only [List.flatMap_cons, List.length_append, List.length_cons, List.length_nil, ih]
    omega

/-- The hex text of bytes of one length begins no other one of that length. -/
theorem startsWith_hexEncode_iff {table : String} {a b c : Bytes} (hlen : a.length = b.length) :
    startsWith (table ++ hexEncode (a ++ c)) (table ++ hexEncode b) ↔ a = b := by
  rw [startsWith, decide_eq_true_iff, hexEncode_append, String.toList_append, String.toList_append,
    String.toList_append, List.prefix_append_right_inj]
  constructor
  · intro h
    have hsame : (hexEncode a).toList.length = (hexEncode b).toList.length := by
      rw [length_hexEncode, length_hexEncode, hlen]
    have hpre : (hexEncode b).toList <+: (hexEncode a).toList :=
      List.prefix_of_prefix_length_le h (List.prefix_append _ _) hsame.ge
    have heq := hpre.eq_of_length hsame.symm
    exact (hexEncode_injective (String.ext heq)).symm
  · rintro rfl
    exact List.prefix_append _ _

example : split "/cln.Node/Pay" '/' = ["", "cln.Node", "Pay"] := by decide

example : hexEncode [0x11, 0x22, 0xaf] = "1122af" := by decide

end Greenlight.Lib
