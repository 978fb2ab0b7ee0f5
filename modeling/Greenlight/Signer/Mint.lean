import Greenlight.Signer.Narrowing

/-!
# What a new rune grants

`create_rune` without a rune makes one of any restrictions that parse, if one of their alternatives is on the public
key.  `verify_rune` accepts the new rune, on a method of the services of the node, exactly in the contexts that meet
each of the restrictions (`verifyRune_minted_iff`): the restriction to the id and the version that is put before them
is met by the context of every request.
-/

namespace Greenlight

open Greenlight.Lib Greenlight.Runes

/-- `pubkey=<key>`. -/
def keyRestriction (key : Bytes) : Restriction := ⟨[⟨"pubkey", .equal, hexEncode key⟩]⟩

namespace Signer

/-- The rune is one that `create_rune` makes of the restrictions. -/
def Minted (s : Signer) (res : List Restriction) (rune : s.runeauth.Rune) : Prop :=
  s.runeauth.new (s.runeauth.authcode s.masterRune) res (some "0") (some runeVersion) = .ok rune

/-- What is used of the crates for new runes of the restrictions in `P`. -/
structure RunesOf (s : Signer) (P : List Restriction → Prop) : Prop where
  /-- `Rune::new` takes the restrictions. -/
  makes : ∀ res, P res → ∃ rune, s.Minted res rune
  /-- `to_string` shows an alternative `pubkey=..`. -/
  shows : ∀ res rune, P res → s.Minted res rune → (∃ r ∈ res, ∃ a ∈ r.alternatives, a.IsPubkey) →
    containsStr (s.runeauth.toString rune) "pubkey="
  /-- `get_id` returns the unique id. -/
  keepsId : ∀ res rune, P res → s.Minted res rune → s.runeauth.getId rune = some "0"
  /-- A rune made with the authcode of the master rune passes the check if its restrictions do. -/
  authorizes : ∀ res rune check, P res → s.Minted res rune →
    (∀ r ∈ s.runeauth.restrictions rune, ∃ a ∈ r.alternatives, check a = .ok ()) →
    s.runeauth.checkWithReason s.masterRune (s.runeauth.toBase64 rune) check = .ok ()

/-- What is used for new runes of any restrictions that parse. -/
structure MintsRunes (s : Signer) : Prop
    extends s.RunesOf fun res => ∃ restrictions, s.parseRestrictions restrictions = .ok res where
  /-- The base64 form of a rune is URL-safe base64. -/
  decodes : ∀ rune, ∃ bytes, s.urlSafeDecode (s.runeauth.toBase64 rune) = .ok bytes ∧
    s.urlSafeEncode bytes = s.runeauth.toBase64 rune

variable {s : Signer} {P : List Restriction → Prop} {res : List Restriction} {rune : s.runeauth.Rune}
  {restrictions : List (List String)}

theorem createRune_minted (hrunes : s.RunesOf P) (hP : P res) (hres : s.parseRestrictions restrictions = .ok res)
    (hkey : ∃ r ∈ res, ∃ a ∈ r.alternatives, a.IsPubkey) :
    ∃ rune, s.Minted res rune ∧ s.createRune none restrictions = .ok (s.runeauth.toBase64 rune) := by
  obtain ⟨rune, hminted⟩ := hrunes.makes res hP
  have hany : res.any (fun r => r.alternatives.any fun a => decide a.IsPubkey) = true := by
    simpa [List.any_eq_true] using hkey
  refine ⟨rune, hminted, bind_eq_ok.2 ⟨res, hres, ?_⟩⟩
  rw [if_pos hany]
  exact bind_eq_ok.2 ⟨rune, hminted, rfl⟩

theorem meets_id (hpass : s.runeauth.IdentityPassesEqual) (now : ℤ) (p : PendingRequest) (method : String) :
    (s.runeContext now p method (some "0")).Meets s.runeauth ⟨[⟨"", .equal, "0" ++ "-" ++ runeVersion⟩]⟩ :=
  ⟨_, List.mem_singleton_self _, hpass ⟨"", .equal, "0" ++ "-" ++ runeVersion⟩ rfl (by decide)⟩

/-- **What a new rune grants**: exactly the requests that meet each of the restrictions. -/
theorem verifyRune_minted_iff (hrunes : s.RunesOf P) (hP : P res) (hcodec : s.runeauth.Base64RoundTrip)
    (hnew : s.runeauth.NewKeepsRestrictions) (hadds : s.runeauth.NewAddsOnlyId)
    (hcheck : s.runeauth.ChecksRestrictions) (hpass : s.runeauth.IdentityPassesEqual)
    (hminted : s.Minted res rune) (hkey : ∃ r ∈ res, ∃ a ∈ r.alternatives, a.IsPubkey) {p : PendingRequest}
    (hrune : s.urlSafeEncode p.rune = s.runeauth.toBase64 rune) {service method : String} {rest : List String}
    (huri : (split p.uri '/').tail = service :: method :: rest)
    (hservice : service = "cln.Node" ∨ service = "greenlight.Node") (now : ℤ) :
    s.verifyRune now p = .ok () ↔ ∀ r ∈ res, (s.runeContext now p method (some "0")).Meets s.runeauth r := by
  have hvalid : ¬ (service ≠ "cln.Node" ∧ service ≠ "greenlight.Node") := by
    rcases hservice with h | h <;> simp [h]
  have hverify : s.verifyRune now p = s.runeauth.checkWithReason s.masterRune (s.runeauth.toBase64 rune)
      ((s.runeContext now p method (some "0")).checkAlternative s.runeauth) := by
    rw [verifyRune, hrune, hcodec, huri]
    dsimp only [bind, Except.bind]
    rw [if_neg (not_not.2 (hrunes.shows res rune hP hminted hkey)), if_neg hvalid,
      hrunes.keepsId res rune hP hminted]
  rw [hverify]
  constructor
  · intro hok r hr
    obtain ⟨rune', hrune', hmet⟩ := hcheck _ _ _ hok
    obtain rfl := Except.ok.inj ((hcodec rune).symm.trans hrune')
    exact hmet r (hnew _ _ _ _ _ hminted r hr)
  · intro hmet
    refine hrunes.authorizes res rune _ hP hminted fun r hr => ?_
    -- beside the restrictions that were asked for, the rune has its id only
    rcases hadds _ _ _ _ _ hminted r hr with hr | rfl
    · exact hmet r hr
    · exact meets_id hpass now p method

theorem meets_keyRestriction_iff (heq : s.runeauth.EqualIsIdentity) (hpass : s.runeauth.IdentityPassesEqual)
    {key : Bytes} {p : PendingRequest} (hthere : p.pubkey = key → key ≠ []) (now : ℤ) (method : String)
    (uniqueId : Option String) :
    (s.runeContext now p method uniqueId).Meets s.runeauth (keyRestriction key) ↔ p.pubkey = key := by
  constructor
  · rintro ⟨a, ha, hcheck⟩
    obtain rfl := List.mem_singleton.1 ha
    exact hexEncode_injective (Context.pubkey_eq_of_check heq ⟨rfl, rfl⟩ hcheck)
  · rintro rfl
    have hhex : hexEncode p.pubkey ≠ "" := fun h => hthere rfl (hexEncode_injective h)
    exact ⟨_, List.mem_singleton_self _, hpass ⟨"pubkey", .equal, hexEncode p.pubkey⟩ rfl hhex⟩

/-! ### The signer whose runes print -/

theorem isInfix_intercalate {sep text : String} {texts : List String} (h : text ∈ texts) :
    text.toList <:+: (sep.intercalate texts).toList := by
  induction texts with
  | nil => cases h
  | cons first texts ih =>
    cases texts with
    | nil =>
      obtain rfl := List.mem_singleton.1 h
      exact (String.intercalate_singleton (s := sep) (t := text)).symm ▸ List.infix_rfl
    | cons second texts =>
      rw [String.intercalate_cons_cons, String.toList_append, String.toList_append]
      rcases List.mem_cons.1 h with rfl | h
      · rw [List.append_assoc]
        exact (List.prefix_append _ _).isInfix
      · exact (ih h).trans (List.suffix_append _ _).isInfix

theorem toText_shows {rune : PrintableRune} {r : Restriction} {a : Alternative} (hr : r ∈ rune.restrictions)
    (ha : a ∈ r.alternatives) (hpubkey : a.IsPubkey) : containsStr rune.toText "pubkey=" := by
  obtain ⟨hfield, hcond⟩ := hpubkey
  have hstart : "pubkey=".toList <:+: (Plain.encodeAlternative a).toList := by
    have hchars : (Plain.encodeAlternative a).toList = "pubkey=".toList ++ a.value.toList := by
      rw [Plain.encodeAlternative, hfield, hcond, String.toList_append]
      rfl
    rw [hchars]
    exact (List.prefix_append _ _).isInfix
  have hencoded : (Plain.encodeAlternative a).toList <:+: (Plain.encodeRestriction r).toList :=
    isInfix_intercalate (List.mem_map_of_mem ha)
  have hbody : (Plain.encodeRestriction r).toList <:+:
      ("&".intercalate (rune.restrictions.map Plain.encodeRestriction)).toList :=
    isInfix_intercalate (List.mem_map_of_mem hr)
  refine decide_eq_true ((hstart.trans (hencoded.trans hbody)).trans ?_)
  rw [PrintableRune.toText, String.toList_append]
  exact (List.suffix_append _ _).isInfix

theorem restrictions_of_minted_printable {rune : PrintableRune} (h : printable.Minted res rune) :
    rune.code = "K" ∧ rune.restrictions = ⟨[⟨"", .equal, "0-gl0"⟩]⟩ :: res :=
  PrintableRune.ofParts_eq_ok h

theorem runesOf_printable (hP : ∀ res, P res → ∀ r ∈ res, r.Printable) : printable.RunesOf P where
  makes res hres := by
    have hprintable : ∀ r ∈ ⟨[⟨"", .equal, "0-gl0"⟩]⟩ :: res, r.Printable :=
      List.forall_mem_cons.2 ⟨by decide, hP res hres⟩
    exact ⟨_, PrintableRune.ofParts_self ⟨"K", _, PrintableRune.code_plain_K, hprintable⟩⟩
  shows res rune _ hminted hkey := by
    obtain ⟨r, hr, a, ha, hpubkey⟩ := hkey
    refine toText_shows ?_ ha hpubkey
    rw [(restrictions_of_minted_printable hminted).2]
    exact List.mem_cons_of_mem _ hr
  keepsId res rune _ hminted := by
    have hid : printable.runeauth.getId rune = (split "0-gl0" '-').head? := by
      show PrintableRune.getId rune = _
      unfold PrintableRune.getId
      rw [(restrictions_of_minted_printable hminted).2]
      rfl
    rw [hid]
    decide
  authorizes res rune check _ hminted hmet := by
    have hcode : ¬ rune.code ≠ PrintableRune.master.code := not_not.2 (restrictions_of_minted_printable hminted).1
    refine bind_eq_ok.2 ⟨rune, PrintableRune.ofText_toText _, ?_⟩
    exact (if_neg hcode).trans (if_pos (Plain.all_any_isOk_iff.2 hmet))

theorem mintsRunes_printable : printable.MintsRunes where
  toRunesOf := runesOf_printable fun res ⟨restrictions, hres⟩ r hr => by
    rw [← filterMap_toOption_of_mapM hres] at hr
    obtain ⟨alts, -, hparse⟩ := List.mem_filterMap.1 hr
    exact PrintableRune.printable_of_restrictionTryFrom (toOption_eq_some.1 hparse)
  decodes rune := ⟨utf8 (PrintableRune.toText rune), rfl, urlSafeEncode_utf8 _⟩

end Signer

end Greenlight
