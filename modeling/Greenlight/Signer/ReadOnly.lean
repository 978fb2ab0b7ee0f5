import Greenlight.Runes.Rules
import Greenlight.Signer.Rune

/-!
# Read-only runes

The rule `method^Get|method^List` is met by methods that begin with a capital letter, and the method of a request
is its uri's in lower case.  So a rune that has been carved for reading authorizes nothing at all
(`not_verifyRune_of_carved`), and what it is for holds only of the methods that are to be refused
(`readOnly_iff`).
-/

namespace Greenlight

open Greenlight.Lib Greenlight.Runes

namespace Signer

/-- `to_lowercase` leaves no capital letter. -/
def LowersCapitals (s : Signer) : Prop := ∀ text, ∀ c ∈ (s.toLowercase text).toList, c.isUpper = false

/-- The method begins as the read methods do. -/
def ReadMethod (method : String) : Prop := startsWith method "Get" ∨ startsWith method "List"

/-- A request from the key `pk` for the method, with a rune that has been bound to the key and carved for
reading. -/
structure CarvedFor (s : Signer) (b : RuneBuilder s.runeauth) (pk : Bytes) (method : String)
    (p : PendingRequest) : Prop where
  carved : ∃ b64 origin text, s.createRune none [["pubkey=" ++ hexEncode pk]] = .ok b64 ∧
    s.runeauth.fromBase64 b64 = .ok origin ∧ b.carve origin [.readOnly] = .ok text ∧
    s.runeauth.fromBase64 (s.urlSafeEncode p.rune) = s.runeauth.fromBase64 text
  pubkey : p.pubkey = pk
  uri : p.uri = "/cln.Node/" ++ method

/-- The rune allows the method exactly if it is a read method. -/
def AllowsReads (s : Signer) (now : ℤ) (method : String) (p : PendingRequest) : Prop :=
  s.verifyRune now p = .ok () ↔ ReadMethod method

variable {s : Signer} {b : RuneBuilder s.runeauth} {now : ℤ} {p : PendingRequest}

theorem not_startsWith_toLowercase (hlower : s.LowersCapitals) (text : String) {pat : String} {c : Char}
    (hc : c ∈ pat.toList) (hup : c.isUpper) : startsWith (s.toLowercase text) pat = false := by
  refine decide_eq_false fun hpre => ?_
  have hmem : c ∈ (s.toLowercase text).toList := hpre.subset hc
  rw [hlower text c hmem] at hup
  cases hup

theorem not_check_readOnly (hlower : s.LowersCapitals) (hbegins : s.runeauth.BeginsWithIsPrefix) (method : String)
    (uniqueId : Option String) {a : Alternative} (ha : a ∈ readOnlyRestriction.alternatives) :
    (s.runeContext now p method uniqueId).checkAlternative s.runeauth a ≠ .ok () := by
  intro hok
  obtain ⟨hfield, hcond, c, hc, hup⟩ := method_of_mem_readOnly ha
  have hpre : startsWith (s.toLowercase method) a.value = true :=
    Context.startsWith_method_of_check hbegins hfield hcond hok
  rw [not_startsWith_toLowercase hlower method hc hup] at hpre
  cases hpre

section Carved

variable (hlower : s.LowersCapitals) (hcheck : s.runeauth.ChecksRestrictions)
  (hcodec : s.runeauth.Base64RoundTrip) (hbegins : s.runeauth.BeginsWithIsPrefix) (halt : b.BuildsAlternatives)
  (hres : b.BuildsRestrictions) (hadd : b.AddsRestrictions)

include hlower hcheck hcodec hbegins halt hres hadd

theorem not_verifyRune_of_carved {pk : Bytes} {method : String} (h : s.CarvedFor b pk method p) :
    s.verifyRune now p ≠ .ok () := by
  intro hverify
  obtain ⟨_, origin, text, -, -, hcarve, hcarries⟩ := h.carved
  obtain ⟨rune, hrune, hmem⟩ := RuneBuilder.mem_restrictions_of_carve halt hres hadd hcodec hcarve
  obtain ⟨rune', _, method', _, -, -, -, -, hok⟩ := verifyRune_eq_ok hverify
  obtain ⟨rune'', hrune'', hmet⟩ := hcheck _ _ _ hok
  rw [hcarries, hrune] at hrune''
  obtain rfl := Except.ok.inj hrune''
  obtain ⟨a, ha, hsat⟩ := hmet _ hmem
  exact not_check_readOnly hlower hbegins method' _ ha hsat

/-- **What a read-only rune is for holds of a method exactly if it is no read method.** -/
theorem readOnly_iff {pk : Bytes} {method : String} (h : s.CarvedFor b pk method p) :
    s.AllowsReads now method p ↔ ¬ ReadMethod method := by
  have hno : s.verifyRune now p ≠ .ok () :=
    not_verifyRune_of_carved hlower hcheck hcodec hbegins halt hres hadd h
  constructor
  · intro hallows hread
    exact hno (hallows.2 hread)
  · intro hread
    exact ⟨fun hok => absurd hok hno, fun h => absurd h hread⟩

end Carved

/-! ### A carved rune in plain text -/

/-- A capital letter is moved by 32 places, behind the capital letters. -/
theorem isUpper_toLower (c : Char) : c.toLower.isUpper = false := by
  have hupper : c.toLower.isUpper = decide (65 ≤ c.toLower.val ∧ c.toLower.val ≤ 90) := rfl
  rw [hupper, decide_eq_false_iff_not]
  by_cases h : 65 ≤ c.val ∧ c.val ≤ 90
  · have hval : c.toLower.val = c.val + 32 := congrArg Char.val (dif_pos h)
    rw [hval]
    simp only [UInt32.le_iff_toNat_le, UInt32.toNat_add, UInt32.reduceToNat] at h ⊢
    omega
  · have hval : c.toLower = c := dif_neg h
    rwa [hval]

theorem lowersCapitals_plain : plain.LowersCapitals := by
  intro text c hc
  have hmap : (plain.toLowercase text).toList = text.toList.map Char.toLower := String.toList_map
  rw [hmap] at hc
  obtain ⟨d, -, rfl⟩ := List.mem_map.1 hc
  exact isUpper_toLower d

/-- A request for the method with the rune `pubkey=1122`, carved for reading. -/
def carvedRequest (method : String) : PendingRequest where
  request := []
  uri := "/cln.Node/" ++ method
  signature := []
  pubkey := [0x11, 0x22]
  timestamp := 0
  rune := "K:=0-gl0&pubkey=1122&method^Get|method^List".toList.map fun c => c.toNat.toUInt8

theorem carvedFor_carvedRequest (method : String) :
    plain.CarvedFor RuneBuilder.plain [0x11, 0x22] method (carvedRequest method) where
  carved := by
    have hcreate : plain.createRune none [["pubkey=1122"]] = .ok "K:=0-gl0&pubkey=1122" := by decide +kernel
    have hcarve : RuneBuilder.plain.carve "K:=0-gl0&pubkey=1122" [.readOnly] =
        .ok "K:=0-gl0&pubkey=1122&method^Get|method^List" := by decide +kernel
    have hcarries : plain.urlSafeEncode
        ("K:=0-gl0&pubkey=1122&method^Get|method^List".toList.map fun c => c.toNat.toUInt8) =
        "K:=0-gl0&pubkey=1122&method^Get|method^List" := by decide +kernel
    exact ⟨_, _, _, hcreate, rfl, hcarve, congrArg Except.ok hcarries⟩
  pubkey := rfl
  uri := rfl

theorem readOnly_iff_pay : plain.AllowsReads 0 "Pay" (carvedRequest "Pay") ↔ ¬ ReadMethod "Pay" :=
  readOnly_iff lowersCapitals_plain Runeauth.checksRestrictions_plain Runeauth.base64RoundTrip_plain
    Runeauth.beginsWithIsPrefix_plain RuneBuilder.buildsAlternatives_plain RuneBuilder.buildsRestrictions_plain
    RuneBuilder.addsRestrictions_plain (carvedFor_carvedRequest "Pay")

theorem readOnly_refuses : plain.verifyRune 0 (carvedRequest "Getinfo") = .error "a restriction is not met" ∧
    ¬ ∀ (pk : Bytes) (method : String) (p : PendingRequest) (now : ℤ),
      plain.CarvedFor RuneBuilder.plain pk method p → plain.AllowsReads now method p := by
  have hrefused : plain.verifyRune 0 (carvedRequest "Getinfo") = .error "a restriction is not met" := by
    decide +kernel
  refine ⟨hrefused, fun h => ?_⟩
  have hallows := (h _ _ _ 0 (carvedFor_carvedRequest "Getinfo")).2 (Or.inl (by decide))
  cases hrefused.symm.trans hallows

end Signer

end Greenlight
