import Greenlight.Runes.Composition
import Greenlight.Signer.Rune

/-!
# Extending a rune

`create_rune` of a rune that is there hands the restrictions to `add_restriction` and drops what this returns.  So the
new rune has those of them that parse behind its own (`createRune_some`), and one that does not parse is lost without
an error: extending fails closed exactly if the rune does not decode or every restriction parses
(`extendsClosed_iff`), which is what `create_rune` asks of a new rune.
-/

namespace Greenlight

open Greenlight.Lib Greenlight.Runes

namespace Runes.Runeauth

/-- A text that parses is added behind the restrictions of the rune. -/
def AddsParsed (lib : Runeauth) : Prop :=
  ∀ rune text r, lib.restrictionTryFrom text = .ok r →
    lib.restrictions (lib.addRestriction rune text).2 = lib.restrictions rune ++ [r]

/-- A text that does not parse is refused and leaves the rune as it was. -/
def KeepsUnparsed (lib : Runeauth) : Prop :=
  ∀ rune text e, lib.restrictionTryFrom text = .error e →
    ∃ e', lib.addRestriction rune text = (.error e', rune)

variable {lib : Runeauth} (hadd : lib.AddsParsed) (hkeep : lib.KeepsUnparsed)

include hadd hkeep

theorem restrictions_addRestriction (rune : lib.Rune) (text : String) :
    lib.restrictions (lib.addRestriction rune text).2 =
      lib.restrictions rune ++ (lib.restrictionTryFrom text).toOption.toList := by
  cases hparse : lib.restrictionTryFrom text with
  | error e =>
    obtain ⟨e', hkept⟩ := hkeep rune text e hparse
    rw [hkept]
    exact (List.append_nil _).symm
  | ok r => exact hadd rune text r hparse

theorem restrictions_foldl_addRestriction (texts : List String) (rune : lib.Rune) :
    lib.restrictions (texts.foldl (fun rune text => (lib.addRestriction rune text).2) rune) =
      lib.restrictions rune ++ texts.filterMap fun text => (lib.restrictionTryFrom text).toOption := by
  induction texts generalizing rune with
  | nil => simp
  | cons text texts ih =>
    rw [List.foldl_cons, ih, restrictions_addRestriction hadd hkeep, List.append_assoc]
    cases hparse : (lib.restrictionTryFrom text).toOption with
    | none => simp [hparse]
    | some r => simp [hparse]

end Runes.Runeauth

namespace Signer

/-- Extending the rune fails, or the restrictions parse and only contexts that satisfy the original rune and meet each
of them satisfy the new one. -/
def ExtendsClosed (s : Signer) (rune : String) (restrictions : List (List String)) : Prop :=
  ∀ b64, s.createRune (some rune) restrictions = .ok b64 →
    ∃ res origin extended, s.parseRestrictions restrictions = .ok res ∧
      s.runeauth.fromBase64 rune = .ok origin ∧ s.runeauth.fromBase64 b64 = .ok extended ∧
      ∀ ctx : Context, ctx.Satisfies s.runeauth extended →
        ctx.Satisfies s.runeauth origin ∧ ∀ r ∈ res, ctx.Meets s.runeauth r

variable {s : Signer} (hadd : s.runeauth.AddsParsed) (hkeep : s.runeauth.KeepsUnparsed)
  (hcodec : s.runeauth.Base64RoundTrip)

include hadd hkeep hcodec

/-- **The extended rune** has the restrictions that parse, behind those of the original one. -/
theorem createRune_some {rune : String} {origin : s.runeauth.Rune} (horigin : s.runeauth.fromBase64 rune = .ok origin)
    (restrictions : List (List String)) :
    ∃ b64 extended, s.createRune (some rune) restrictions = .ok b64 ∧ s.runeauth.fromBase64 b64 = .ok extended ∧
      s.runeauth.restrictions extended = s.runeauth.restrictions origin ++
        restrictions.filterMap fun alts => (s.runeauth.restrictionTryFrom ("|".intercalate alts)).toOption := by
  refine ⟨_, _, bind_eq_ok.2 ⟨origin, horigin, rfl⟩, hcodec _, ?_⟩
  have hfold := Runeauth.restrictions_foldl_addRestriction hadd hkeep (restrictions.map ("|".intercalate ·)) origin
  rwa [List.foldl_map, List.filterMap_map] at hfold

/-- **Extending a rune fails closed** exactly if the rune does not decode or every restriction parses. -/
theorem extendsClosed_iff (rune : String) (restrictions : List (List String)) :
    s.ExtendsClosed rune restrictions ↔
      (∃ e, s.runeauth.fromBase64 rune = .error e) ∨ ∃ res, s.parseRestrictions restrictions = .ok res := by
  cases horigin : s.runeauth.fromBase64 rune with
  | error e =>
    refine iff_of_true (fun b64 hcreate => ?_) (Or.inl ⟨e, rfl⟩)
    obtain ⟨_, hok, -⟩ := bind_eq_ok.1 hcreate
    cases horigin.symm.trans hok
  | ok origin =>
    obtain ⟨b64, extended, hcreate, hextended, hrestrictions⟩ := createRune_some hadd hkeep hcodec horigin restrictions
    constructor
    · intro hclosed
      obtain ⟨res, -, -, hres, -⟩ := hclosed b64 hcreate
      exact Or.inr ⟨res, hres⟩
    · rintro (⟨e, he⟩ | ⟨res, hres⟩) b64' hcreate'
      · cases he
      · obtain rfl := Except.ok.inj (hcreate.symm.trans hcreate')
        refine ⟨res, origin, extended, hres, horigin, hextended, fun ctx hsat => ?_⟩
        -- every restriction parses, so none is dropped
        rw [filterMap_toOption_of_mapM hres] at hrestrictions
        unfold Context.Satisfies at hsat
        rw [hrestrictions] at hsat
        exact List.forall_mem_append.1 hsat

end Signer

/-! ### A rune that is extended -/

theorem Runes.Runeauth.addsParsed_printable : Runeauth.printable.AddsParsed :=
  fun _ _ _ hparse => PrintableRune.addText_of_ok hparse

theorem Runes.Runeauth.keepsUnparsed_printable : Runeauth.printable.KeepsUnparsed :=
  fun _ _ e hparse => ⟨e, PrintableRune.addText_of_error hparse⟩

namespace Signer

/-- A signer whose runes print, where bytes are encoded as the text that they are in UTF-8. -/
def printable : Signer :=
  { plain with
    runeauth := .printable
    masterRune := PrintableRune.master
    urlSafeEncode := fun bytes => (String.fromUTF8? ⟨bytes.toArray⟩).getD ""
    urlSafeDecode := fun text => .ok (utf8 text) }

theorem urlSafeEncode_utf8 (text : String) : printable.urlSafeEncode (utf8 text) = text := by
  dsimp only [printable]
  rw [fromUTF8_utf8]
  rfl

theorem extendsClosed_iff_get : printable.ExtendsClosed "K:=0-gl0&pubkey=1122" [["method^get"]] ↔
    (∃ e, printable.runeauth.fromBase64 "K:=0-gl0&pubkey=1122" = .error e) ∨
      ∃ res, printable.parseRestrictions [["method^get"]] = .ok res :=
  extendsClosed_iff Runeauth.addsParsed_printable Runeauth.keepsUnparsed_printable
    Runeauth.base64RoundTrip_printable _ _

/-- `method` has no condition, and extending the rune by it returns the rune as it was. -/
theorem extendsClosed_unparsed :
    printable.createRune (some "K:=0-gl0&pubkey=1122") [["method"]] = .ok "K:=0-gl0&pubkey=1122" ∧
      ¬ printable.ExtendsClosed "K:=0-gl0&pubkey=1122" [["method"]] := by
  have hcreate : printable.createRune (some "K:=0-gl0&pubkey=1122") [["method"]] = .ok "K:=0-gl0&pubkey=1122" := by
    decide +kernel
  have hnone : printable.parseRestrictions [["method"]] = .error "no condition" := by decide +kernel
  refine ⟨hcreate, fun hclosed => ?_⟩
  obtain ⟨res, -, -, hres, -⟩ := hclosed _ hcreate
  cases hnone.symm.trans hres

end Signer

end Greenlight
