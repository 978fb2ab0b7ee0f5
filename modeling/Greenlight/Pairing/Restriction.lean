import Greenlight.Pairing.Approval

/-!
# The restrictions of a pairing

The device that approves a pairing looks for `pubkey=<key>` in the text of the restrictions
(`restriction_contains_pubkey_exactly_once` of `pairing/attestation_device.rs`), while the signer reads the text as
restrictions and alternatives.  The rune is bound to the key if one of the restrictions is exactly this text
(`mintRune_bound`); the check lets texts pass that have it inside another alternative (`mintRune_unbound`).
-/

namespace Greenlight

open Greenlight.Lib Greenlight.Runes

/-- `restriction_contains_pubkey_exactly_once`: the index of a match counts bytes, `nth` characters. -/
def restrictionContainsPubkeyExactlyOnce (s pubkey : String) : Bool :=
  let searchField := "pubkey=" ++ pubkey
  match find s searchField with
  | some index =>
    -- not preceded by `|`
    if index > 0 ∧ s.toList[index - 1]? = some '|' then false
    else
      let endIndex := index + searchField.utf8ByteSize
      -- not followed by `|`
      if endIndex < s.utf8ByteSize ∧ s.toList[endIndex]? = some '|' then false
      else matchesCount s searchField = 1
  | none => false

namespace Signer

/-- The rune that `process_pairing_approval` makes of the restrictions. -/
def mintRune (s : Signer) (restrictions : String) : Except String String :=
  s.createRune none (splitRestrictions restrictions)

/-- Every context that satisfies a rune minted from the restrictions has the key. -/
def BindsKey (s : Signer) (restrictions pk : String) : Prop :=
  ∀ b64 rune ctx, s.mintRune restrictions = .ok b64 → s.runeauth.fromBase64 b64 = .ok rune →
    Context.Satisfies s.runeauth ctx rune → ctx.pubkey = pk

/-- The context passes in each restriction an alternative that does not look at the key. -/
def MetWithoutKey (s : Signer) (restrictions : String) (ctx : Context) : Prop :=
  ctx.uniqueId = "0-" ++ runeVersion ∧ ∃ res, s.parseRestrictions (splitRestrictions restrictions) = .ok res ∧
    ∀ r ∈ res, ∃ a ∈ r.alternatives, a.field ≠ "pubkey" ∧ ctx.checkAlternative s.runeauth a = .ok ()

variable {s : Signer} {restrictions : String}

theorem mem_of_parseRestrictions (hread : s.runeauth.ReadsEqual) {bytes : Bytes} {res : List Restriction}
    (hpart : "pubkey=" ++ hexEncode bytes ∈ split restrictions '&')
    (hres : s.parseRestrictions (splitRestrictions restrictions) = .ok res) :
    (⟨[⟨"pubkey", .equal, hexEncode bytes⟩]⟩ : Restriction) ∈ res := by
  have halnum := hexEncode_isAlphanum bytes
  have hbar : '|' ∉ ("pubkey=" ++ hexEncode bytes).toList := by
    simp only [String.toList_append, List.mem_append, not_or]
    exact ⟨by decide, fun h => absurd (halnum _ h) (by decide)⟩
  have halts : split ("pubkey=" ++ hexEncode bytes) '|' ∈ splitRestrictions restrictions :=
    List.mem_map_of_mem hpart
  rw [split_eq_singleton hbar] at halts
  obtain ⟨r, hr, hparse⟩ := mem_of_mapM_eq_ok hres halts
  rw [String.intercalate_singleton] at hparse
  have hreads := hread "pubkey" (hexEncode bytes) (by decide) isAlphanum_pubkey halnum
  have hfield : "pubkey" ++ "=" = "pubkey=" := by decide
  rw [hfield, hparse] at hreads
  exact Except.ok.inj hreads ▸ hr

theorem bindsKey_of_mem (hnew : s.runeauth.NewKeepsRestrictions) (hcodec : s.runeauth.Base64RoundTrip)
    (hread : s.runeauth.ReadsEqual) (heq : s.runeauth.EqualIsIdentity) {bytes : Bytes}
    (hpart : "pubkey=" ++ hexEncode bytes ∈ split restrictions '&') :
    s.BindsKey restrictions (hexEncode bytes) := by
  intro b64 rune ctx hmint hrune hsat
  obtain ⟨res, minted, hres, -, hminted, rfl⟩ := createRune_eq_ok hmint
  obtain rfl : minted = rune := Except.ok.inj ((hcodec minted).symm.trans hrune)
  obtain ⟨a, ha, hcheck⟩ := hsat _ (hnew _ _ _ _ _ hminted _ (mem_of_parseRestrictions hread hpart hres))
  obtain rfl := List.mem_singleton.1 ha
  exact Context.pubkey_eq_of_check heq ⟨rfl, rfl⟩ hcheck

/-- With restrictions that can be met without the key, any key satisfies the rune. -/
theorem not_bindsKey_of_metWithoutKey (hadds : s.runeauth.NewAddsOnlyId) (hcodec : s.runeauth.Base64RoundTrip)
    (hpass : s.runeauth.IdentityPassesEqual) {ctx : Context} (hmet : s.MetWithoutKey restrictions ctx)
    {b64 : String} (hmint : s.mintRune restrictions = .ok b64) (pk : String) :
    ¬ s.BindsKey restrictions pk := by
  intro hbinds
  obtain ⟨hid, res', hres', hmet⟩ := hmet
  obtain ⟨res, rune, hres, -, hrune, rfl⟩ := createRune_eq_ok hmint
  obtain rfl : res' = res := Except.ok.inj (hres'.symm.trans hres)
  -- the context that meets the restrictions may have any key, such as a longer one
  have hsat : Context.Satisfies s.runeauth { ctx with pubkey := pk ++ "0" } rune := by
    intro r hr
    rcases hadds _ _ _ _ _ hrune r hr with hr | rfl
    · obtain ⟨a, ha, hfield, hcheck⟩ := hmet r hr
      exact ⟨a, ha, (Context.checkAlternative_pubkey _ _ _ hfield).trans hcheck⟩
    · refine ⟨_, List.mem_singleton_self _, ?_⟩
      simp only [Context.checkAlternative, hid]
      exact hpass ⟨"", .equal, "0" ++ "-" ++ runeVersion⟩ rfl (by decide)
  have hlength := congrArg String.length (hbinds _ _ _ hmint (hcodec rune) hsat)
  simp at hlength

/-- **What the check of a pairing is worth.**  Where it passes a text only if `pubkey=<key>` is one of its
restrictions, the rune is bound to the key; where the restrictions can be met without the key, it is not. -/
theorem mintRune_bound (hnew : s.runeauth.NewKeepsRestrictions) (hadds : s.runeauth.NewAddsOnlyId)
    (hcodec : s.runeauth.Base64RoundTrip) (hread : s.runeauth.ReadsEqual) (heq : s.runeauth.EqualIsIdentity)
    (hpass : s.runeauth.IdentityPassesEqual) (restrictions : String) (bytes : Bytes) :
    ((restrictionContainsPubkeyExactlyOnce restrictions (hexEncode bytes) →
        "pubkey=" ++ hexEncode bytes ∈ split restrictions '&') →
      restrictionContainsPubkeyExactlyOnce restrictions (hexEncode bytes) →
        s.BindsKey restrictions (hexEncode bytes)) ∧
    ∀ ctx b64, s.MetWithoutKey restrictions ctx → s.mintRune restrictions = .ok b64 →
      ¬ s.BindsKey restrictions (hexEncode bytes) :=
  ⟨fun hpart hcheck => bindsKey_of_mem hnew hcodec hread heq (hpart hcheck),
    fun _ _ hmet hmint => not_bindsKey_of_metWithoutKey hadds hcodec hpass hmet hmint _⟩

theorem mintRune_bound_single :
    restrictionContainsPubkeyExactlyOnce "method=pay&pubkey=ab" (hexEncode [0xab]) ∧
      "pubkey=" ++ hexEncode [0xab] ∈ split "method=pay&pubkey=ab" '&' ∧
      plain.mintRune "method=pay&pubkey=ab" = .ok "K:=0-gl0&method=pay&pubkey=ab" ∧
      plain.BindsKey "method=pay&pubkey=ab" (hexEncode [0xab]) := by
  have hcheck : restrictionContainsPubkeyExactlyOnce "method=pay&pubkey=ab" (hexEncode [0xab]) := by
    decide +kernel
  have hpart : "pubkey=" ++ hexEncode [0xab] ∈ split "method=pay&pubkey=ab" '&' := by decide +kernel
  have hmint : plain.mintRune "method=pay&pubkey=ab" = .ok "K:=0-gl0&method=pay&pubkey=ab" := by decide +kernel
  have hbound := mintRune_bound (s := plain) Runeauth.newKeepsRestrictions_plain Runeauth.newAddsOnlyId_plain
    Runeauth.base64RoundTrip_plain Runeauth.readsEqual_plain Runeauth.equalIsIdentity_plain
    Runeauth.identityPassesEqual_plain "method=pay&pubkey=ab" [0xab]
  exact ⟨hcheck, hpart, hmint, hbound.1 (fun _ => hpart) hcheck⟩

/-- In `method/pubkey=ab&pubkey=cd` the text `pubkey=ab` is a value that the method differs from. -/
theorem mintRune_unbound : ¬ ∀ (restrictions : String) (bytes : Bytes),
    restrictionContainsPubkeyExactlyOnce restrictions (hexEncode bytes) →
      plain.BindsKey restrictions (hexEncode bytes) := by
  intro hall
  have hmint : plain.mintRune "method/pubkey=ab&pubkey=cd" = .ok "K:=0-gl0&method/pubkey=ab&pubkey=cd" := by
    decide +kernel
  let ctx : Context := { method := "pay", pubkey := "cd", uniqueId := "0-gl0", time := 0 }
  have hsat : Context.Satisfies plain.runeauth ctx "K:=0-gl0&method/pubkey=ab&pubkey=cd" := by
    have hrestrictions : plain.runeauth.restrictions "K:=0-gl0&method/pubkey=ab&pubkey=cd" =
        [⟨[⟨"", .equal, "0-gl0"⟩]⟩, ⟨[⟨"method", .notEqual, "pubkey=ab"⟩]⟩, ⟨[⟨"pubkey", .equal, "cd"⟩]⟩] := by
      decide +kernel
    intro r hr
    simp only [hrestrictions, List.mem_cons, List.not_mem_nil, or_false] at hr
    rcases hr with rfl | rfl | rfl <;> exact ⟨_, List.mem_singleton_self _, by decide +kernel⟩
  have hkey := hall "method/pubkey=ab&pubkey=cd" [0xab] (by decide +kernel) _ _ ctx hmint rfl hsat
  exact absurd hkey (by decide)

end Signer

end Greenlight
