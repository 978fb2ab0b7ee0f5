import Greenlight.Pairing.Restriction
import Greenlight.Lib.Search

/-!
# Bytes and characters in the check of a pairing

`restriction_contains_pubkey_exactly_once` looks at the characters next to the first `pubkey=<key>`.  Their places are
the numbers of bytes that `find` gives, and `nth` takes them as numbers of characters.  So the check looks for a bar
further to the right than where the field stands, by as much as the text before it has more bytes than characters.
It is exact if a bar is seen there exactly if one stands next to the field (`containsPubkeyExactlyOnce_exact_iff`);
on ASCII texts and hex keys it always is (`containsPubkeyExactlyOnce_hex`).
-/

namespace Greenlight

open Greenlight.Lib

def searchField (pubkey : String) : String := "pubkey=" ++ pubkey

/-- The field occurs exactly once, and with no bar next to it. -/
def StandsAlone (s pubkey : String) : Prop :=
  matchesCount s (searchField pubkey) = 1 ∧ ∃ a b : String, s = a ++ searchField pubkey ++ b ∧
    a.toList.getLast? ≠ some '|' ∧ b.toList.head? ≠ some '|'

/-- The character before number `i` or the one with number `j` is a bar. -/
def BarBeside (s : String) (i j : ℕ) : Prop :=
  (0 < i ∧ s.toList[i - 1]? = some '|') ∨ s.toList[j]? = some '|'

instance (s : String) (i j : ℕ) : Decidable (BarBeside s i j) := inferInstanceAs (Decidable (_ ∨ _))

variable {s pubkey a b : String}

/-! ### The neighbours of the field -/

theorem barBeside_length_iff (h : s = a ++ searchField pubkey ++ b) :
    BarBeside s a.length (a ++ searchField pubkey).length ↔
      a.toList.getLast? = some '|' ∨ b.toList.head? = some '|' := by
  have hchars := eq_append_iff_toList.1 h
  have hbefore : (0 < a.length ∧ s.toList[a.length - 1]? = some '|') ↔ a.toList.getLast? = some '|' := by
    rw [hchars, List.append_assoc, ← String.length_toList, List.getLast?_eq_getElem?]
    constructor
    · rintro ⟨hpos, hbar⟩
      rwa [List.getElem?_append_left (by omega)] at hbar
    · intro hbar
      have hlt := (List.getElem?_eq_some_iff.1 hbar).1
      exact ⟨by omega, by rwa [List.getElem?_append_left hlt]⟩
  have hafter : s.toList[(a ++ searchField pubkey).length]? = b.toList.head? := by
    rw [hchars, ← String.toList_append, ← String.length_toList, List.getElem?_append_right le_rfl, Nat.sub_self,
      List.head?_eq_getElem?]
  rw [BarBeside, hbefore, hafter]

theorem standsAlone_iff : StandsAlone s pubkey ↔ matchesCount s (searchField pubkey) = 1 ∧
    ∃ a b : String, s = a ++ searchField pubkey ++ b ∧ ¬ BarBeside s a.length (a ++ searchField pubkey).length := by
  refine and_congr_right fun _ => exists₂_congr fun a b => and_congr_right fun h => ?_
  rw [barBeside_length_iff h, not_or]

theorem StandsAlone.isInfix (h : StandsAlone s pubkey) : (searchField pubkey).toList <:+: s.toList := by
  obtain ⟨-, a, b, heq, -⟩ := h
  exact ⟨a.toList, b.toList, (eq_append_iff_toList.1 heq).symm⟩

/-- A key without a `p` cannot begin a second field inside the first one. -/
theorem standsAlone_iff_of_firstBetween (hkey : 'p' ∉ pubkey.toList)
    (h : FirstBetween s.toList (searchField pubkey).toList a.toList b.toList) :
    StandsAlone s pubkey ↔ matchesCount s (searchField pubkey) = 1 ∧
      ¬ BarBeside s a.length (a ++ searchField pubkey).length := by
  rw [standsAlone_iff]
  refine and_congr_right fun hone => ⟨?_, fun hbar => ⟨a, b, eq_append_iff_toList.2 h.eq, hbar⟩⟩
  rintro ⟨a', b', heq, hbar⟩
  have hfield : (searchField pubkey).toList = 'p' :: ("ubkey=".toList ++ pubkey.toList) := by
    rw [searchField, String.toList_append]
    rfl
  have hp : 'p' ∉ "ubkey=".toList ++ pubkey.toList := by
    rw [List.mem_append, not_or]
    exact ⟨by decide, hkey⟩
  have hsame : a'.toList = a.toList :=
    (FirstBetween.eq_of_countMatches hp (hfield ▸ h) (hfield ▸ hone) (hfield ▸ eq_append_iff_toList.1 heq)).1
  rwa [← String.toList_inj.1 hsame]

/-! ### What the check computes -/

theorem containsPubkeyExactlyOnce_iff
    (h : FirstBetween s.toList (searchField pubkey).toList a.toList b.toList) :
    restrictionContainsPubkeyExactlyOnce s pubkey = true ↔ matchesCount s (searchField pubkey) = 1 ∧
      ¬ BarBeside s a.utf8ByteSize (a ++ searchField pubkey).utf8ByteSize := by
  have hfind : find s ("pubkey=" ++ pubkey) = some a.utf8ByteSize := find_of_firstBetween h
  -- the number of a character is below the number of bytes
  have hend : ∀ j, (j < s.utf8ByteSize ∧ s.toList[j]? = some '|') ↔ s.toList[j]? = some '|' := fun j =>
    and_iff_right_of_imp fun hbar =>
      (List.getElem?_eq_some_iff.1 hbar).1.trans_le (length_le_utf8ByteSize s)
  rw [restrictionContainsPubkeyExactlyOnce, hfind]
  simp only [gt_iff_lt, hend, searchField, BarBeside, String.utf8ByteSize_append]
  split_ifs with hbefore hafter
  · simp [hbefore]
  · simp [hafter]
  · simp [hbefore, hafter]

theorem containsPubkeyExactlyOnce_eq_false (h : ¬ (searchField pubkey).toList <:+: s.toList) :
    restrictionContainsPubkeyExactlyOnce s pubkey = false := by
  have hfind : find s ("pubkey=" ++ pubkey) = none := find_eq_none h
  rw [restrictionContainsPubkeyExactlyOnce, hfind]

theorem containsPubkeyExactlyOnce_of_ascii (hascii : ∀ c ∈ s.toList, c.toNat < 128) (hkey : 'p' ∉ pubkey.toList) :
    restrictionContainsPubkeyExactlyOnce s pubkey = true ↔ StandsAlone s pubkey := by
  by_cases hinfix : (searchField pubkey).toList <:+: s.toList
  · obtain ⟨a, b, h⟩ := exists_firstBetween_toList hinfix
    have hsub : ∀ c ∈ (a ++ searchField pubkey).toList, c.toNat < 128 := fun c hc =>
      hascii c (by rw [h.eq, ← String.toList_append]; exact List.mem_append_left _ hc)
    have hbefore : ∀ c ∈ a.toList, c.toNat < 128 := fun c hc =>
      hsub c (by rw [String.toList_append]; exact List.mem_append_left _ hc)
    rw [containsPubkeyExactlyOnce_iff h, standsAlone_iff_of_firstBetween hkey h, utf8ByteSize_of_ascii hsub,
      utf8ByteSize_of_ascii hbefore]
  · rw [containsPubkeyExactlyOnce_eq_false hinfix]
    exact iff_of_false Bool.false_ne_true fun halone => hinfix halone.isInfix

theorem containsPubkeyExactlyOnce_hex (hascii : ∀ c ∈ s.toList, c.toNat < 128) (key : Bytes) :
    restrictionContainsPubkeyExactlyOnce s (hexEncode key) = true ↔ StandsAlone s (hexEncode key) := by
  have hdigit : ∀ n < 16, 'p' ≠ Nat.digitChar n := by decide
  refine containsPubkeyExactlyOnce_of_ascii hascii fun hp => ?_
  obtain ⟨n, hn, hchar⟩ := exists_digitChar_of_mem_hexEncode hp
  exact hdigit n hn hchar

/-! ### Where the check is exact -/

theorem exact_iff_of_firstBetween (hone : matchesCount s (searchField pubkey) = 1)
    (h : FirstBetween s.toList (searchField pubkey).toList a.toList b.toList) :
    (restrictionContainsPubkeyExactlyOnce s pubkey = true ↔ StandsAlone s pubkey) ↔
      (BarBeside s a.utf8ByteSize (a ++ searchField pubkey).utf8ByteSize ↔
        ∀ a' b' : String, s = a' ++ searchField pubkey ++ b' →
          BarBeside s a'.length (a' ++ searchField pubkey).length) := by
  rw [containsPubkeyExactlyOnce_iff h, standsAlone_iff, and_iff_right hone, and_iff_right hone, not_iff_comm]
  simp only [not_exists, not_and, not_not]
  exact Iff.comm

/-- **The check is exact** if the field does not occur exactly once, or if a bar is seen at the numbers of bytes of
the first one exactly if every one has a bar next to it. -/
theorem containsPubkeyExactlyOnce_exact_iff (s pubkey : String) :
    (restrictionContainsPubkeyExactlyOnce s pubkey = true ↔ StandsAlone s pubkey) ↔
      (matchesCount s (searchField pubkey) = 1 → ∀ a b : String,
        FirstBetween s.toList (searchField pubkey).toList a.toList b.toList →
          (BarBeside s a.utf8ByteSize (a ++ searchField pubkey).utf8ByteSize ↔
            ∀ a' b' : String, s = a' ++ searchField pubkey ++ b' →
              BarBeside s a'.length (a' ++ searchField pubkey).length)) := by
  by_cases hinfix : (searchField pubkey).toList <:+: s.toList
  case neg =>
    -- there is no field to look at
    refine iff_of_true (iff_of_false ?_ fun halone => hinfix halone.isInfix) fun _ a b h => absurd h.isInfix hinfix
    rw [containsPubkeyExactlyOnce_eq_false hinfix]
    exact Bool.false_ne_true
  obtain ⟨a, b, h⟩ := exists_firstBetween_toList hinfix
  by_cases hone : matchesCount s (searchField pubkey) = 1
  · exact ⟨fun hexact _ a b h => (exact_iff_of_firstBetween hone h).1 hexact,
      fun hbars => (exact_iff_of_firstBetween hone h).2 (hbars hone a b h)⟩
  · -- with another count both sides are false
    rw [containsPubkeyExactlyOnce_iff h]
    exact iff_of_true (iff_of_false (fun hcheck => hone hcheck.1) fun halone => hone halone.1) (absurd · hone)

/-- In `é|pubkey=ab` the bar before the key is not seen; in `épubkey=abx|` one is that is not next to the key. -/
theorem containsPubkeyExactlyOnce_not_exact :
    (restrictionContainsPubkeyExactlyOnce "é|pubkey=ab" "ab" = true ∧ ¬ StandsAlone "é|pubkey=ab" "ab") ∧
    (restrictionContainsPubkeyExactlyOnce "épubkey=abx|" "ab" = false ∧ StandsAlone "épubkey=abx|" "ab") ∧
    ¬ ∀ s pubkey : String, pubkey ≠ "" → (∀ c ∈ pubkey.toList, c.toNat < 128) →
      (restrictionContainsPubkeyExactlyOnce s pubkey = true ↔ StandsAlone s pubkey) := by
  have hpass : restrictionContainsPubkeyExactlyOnce "é|pubkey=ab" "ab" = true := by decide +kernel
  have hfirst : FirstBetween "é|pubkey=ab".toList (searchField "ab").toList "é|".toList "".toList := by
    decide +kernel
  have hnot : ¬ StandsAlone "é|pubkey=ab" "ab" := by
    rw [standsAlone_iff_of_firstBetween (by decide) hfirst]
    decide +kernel
  have hascii : ∀ c ∈ "ab".toList, c.toNat < 128 := by simp
  refine ⟨⟨hpass, hnot⟩, ⟨by decide +kernel, ?_⟩, fun hall => hnot ?_⟩
  · exact ⟨by decide +kernel, "é", "x|", by decide +kernel, by decide, by decide⟩
  · exact (hall _ _ (by decide) hascii).1 hpass

end Greenlight
