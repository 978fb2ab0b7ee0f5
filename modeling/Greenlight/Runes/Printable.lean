import Greenlight.Runes.Rules

/-!
# Runes that print

A `Runeauth` whose runes carry the proof that their restrictions read back.  So the text of every rune reads back as
the rune (`ofText_toText`), and every printable restriction can be added to every rune.
-/

namespace Greenlight.Runes

open Greenlight.Lib

/-- A rune as its authcode and its restrictions. -/
structure PrintableRune where
  code : String
  restrictions : List Restriction
  code_plain : ':' ∉ code.toList
  printable : ∀ r ∈ restrictions, r.Printable

namespace PrintableRune

theorem code_plain_K : ':' ∉ "K".toList := by decide

/-- The rune `K:`, without restrictions. -/
def master : PrintableRune := ⟨"K", [], code_plain_K, List.forall_mem_nil _⟩

def toText (rune : PrintableRune) : String :=
  rune.code ++ ":" ++ "&".intercalate (rune.restrictions.map Plain.encodeRestriction)

def ofParts (code : String) (restrictions : List Restriction) : Except String PrintableRune :=
  if h : ':' ∉ code.toList ∧ ∀ r ∈ restrictions, r.Printable then .ok ⟨code, restrictions, h.1, h.2⟩
  else .error "not printable"

/-- The restrictions behind the colon. -/
def readBody (body : String) : Except String (List Restriction) :=
  if body = "" then .ok [] else Plain.readRestrictions body

def ofText (text : String) : Except String PrintableRune :=
  match split text ':' with
  | [code, body] => do ofParts code (← readBody body)
  | _ => .error "no rune"

theorem ofParts_self (rune : PrintableRune) : ofParts rune.code rune.restrictions = .ok rune :=
  dif_pos ⟨rune.code_plain, rune.printable⟩

theorem readBody_encode {rs : List Restriction} (h : ∀ r ∈ rs, r.Printable) :
    readBody ("&".intercalate (rs.map Plain.encodeRestriction)) = .ok rs := by
  by_cases hnil : rs = []
  · rw [hnil]
    rfl
  · have hread := Plain.readRestrictions_encode hnil h
    have hbody : "&".intercalate (rs.map Plain.encodeRestriction) ≠ "" := by
      intro hempty
      have hnone : Plain.readRestrictions "" = .error "no condition" := by decide
      rw [hempty, hnone] at hread
      cases hread
    rw [readBody, if_neg hbody, hread]

theorem ofParts_eq_ok {code : String} {rs : List Restriction} {rune : PrintableRune} (h : ofParts code rs = .ok rune) :
    rune.code = code ∧ rune.restrictions = rs := by
  unfold ofParts at h
  split at h
  · obtain rfl := Except.ok.inj h
    exact ⟨rfl, rfl⟩
  · cases h

theorem ofText_toText (rune : PrintableRune) : ofText rune.toText = .ok rune := by
  simp only [ofText, toText, Plain.split_code _ rune.code_plain rune.printable, readBody_encode rune.printable]
  exact ofParts_self rune

/-- `Restriction::try_from`, of what reads back. -/
def restrictionTryFrom (s : String) : Except String Restriction := do
  let r ← Plain.restrictionTryFrom s
  if ¬ r.Printable then .error "not printable" else .ok r

theorem printable_of_restrictionTryFrom {s : String} {r : Restriction} (h : restrictionTryFrom s = .ok r) :
    r.Printable := by
  obtain ⟨r', -, h⟩ := bind_eq_ok.1 h
  rw [guard_eq_ok, not_not] at h
  obtain ⟨hprintable, hr⟩ := h
  rwa [Except.ok.inj hr] at hprintable

/-- A printable restriction is put behind those of the rune. -/
def add (rune : PrintableRune) (r : Restriction) : Except String Unit × PrintableRune :=
  if h : r.Printable then
    (.ok (), { rune with
      restrictions := rune.restrictions ++ [r]
      printable := List.forall_mem_append.2 ⟨rune.printable, List.forall_mem_singleton.2 h⟩ })
  else (.error "not printable", rune)

theorem add_of_printable {rune : PrintableRune} {r : Restriction} (h : r.Printable) :
    (rune.add r).1 = .ok () ∧ (rune.add r).2.restrictions = rune.restrictions ++ [r] := by
  rw [add, dif_pos h]
  exact ⟨rfl, rfl⟩

def addText (rune : PrintableRune) (s : String) : Except String Unit × PrintableRune :=
  match restrictionTryFrom s with
  | .error e => (.error e, rune)
  | .ok r => rune.add r

theorem addText_of_error {rune : PrintableRune} {s e : String} (h : restrictionTryFrom s = .error e) :
    rune.addText s = (.error e, rune) := by
  rw [addText, h]

theorem addText_of_ok {rune : PrintableRune} {s : String} {r : Restriction} (h : restrictionTryFrom s = .ok r) :
    (rune.addText s).2.restrictions = rune.restrictions ++ [r] := by
  rw [addText, h]
  exact (add_of_printable (printable_of_restrictionTryFrom h)).2

def new (authcode : Bytes) (res : List Restriction) (uniqueId version : Option String) :
    Except String PrintableRune :=
  ofParts (String.ofList (authcode.map fun b => Char.ofNat b.toNat)) (Plain.idRestriction uniqueId version ++ res)

def getId (rune : PrintableRune) : Option String :=
  match rune.restrictions with
  | ⟨[⟨"", .equal, id⟩]⟩ :: _ => (split id '-').head?
  | _ => none

def checkWithReason (master : PrintableRune) (b64 : String) (check : Alternative → Except String Unit) :
    Except String Unit := do
  let rune ← ofText b64
  if rune.code ≠ master.code then .error "authcode does not match"
  else if rune.restrictions.all fun r => r.alternatives.any fun a => (check a).isOk then .ok ()
  else .error "a restriction is not met"

end PrintableRune

def Runeauth.printable : Runeauth where
  Rune := PrintableRune
  restrictionTryFrom := PrintableRune.restrictionTryFrom
  new := PrintableRune.new
  authcode rune := rune.code.toList.map fun c => c.toNat.toUInt8
  restrictions := PrintableRune.restrictions
  fromBase64 := PrintableRune.ofText
  toBase64 := PrintableRune.toText
  toString := PrintableRune.toText
  getId := PrintableRune.getId
  addRestriction := PrintableRune.addText
  conditionChecker := Plain.conditionChecker
  checkWithReason := PrintableRune.checkWithReason

def RuneBuilder.printable : RuneBuilder Runeauth.printable where
  alternativeNew := RuneBuilder.plain.alternativeNew
  restrictionNew := RuneBuilder.plain.restrictionNew
  addRestriction := PrintableRune.add

theorem Runeauth.base64RoundTrip_printable : printable.Base64RoundTrip := PrintableRune.ofText_toText

theorem Runeauth.newKeepsRestrictions_printable : printable.NewKeepsRestrictions := by
  intro authcode res uniqueId version rune h r hr
  have hrestrictions : rune.restrictions = Plain.idRestriction uniqueId version ++ res :=
    (PrintableRune.ofParts_eq_ok h).2
  dsimp only [printable]
  rw [hrestrictions]
  exact List.mem_append_right _ hr

theorem Runeauth.newAddsOnlyId_printable : printable.NewAddsOnlyId := by
  intro authcode res uniqueId version rune h r hr
  have hrestrictions : rune.restrictions = Plain.idRestriction (some uniqueId) (some version) ++ res :=
    (PrintableRune.ofParts_eq_ok h).2
  dsimp only [printable] at hr
  rw [hrestrictions] at hr
  rcases List.mem_append.1 hr with hr | hr
  · exact Or.inr (List.mem_singleton.1 hr)
  · exact Or.inl hr

theorem Runeauth.readsEqual_printable : printable.ReadsEqual := by
  intro field value hne hfield hvalue
  have hread := readsEqual_plain field value hne hfield hvalue
  have hprintable : (⟨[⟨field, .equal, value⟩]⟩ : Restriction).Printable :=
    ⟨by simp, List.forall_mem_singleton.2 (Alternative.printable_of_isAlphanum hfield hvalue)⟩
  exact bind_eq_ok.2 ⟨_, hread, if_neg (not_not.2 hprintable)⟩

theorem Runeauth.checksRestrictions_printable : printable.ChecksRestrictions := by
  intro master b64 check h
  obtain ⟨rune, hrune, h⟩ := bind_eq_ok.1 h
  rw [guard_eq_ok] at h
  obtain ⟨-, h⟩ := h
  split at h
  · rename_i hall
    exact ⟨rune, hrune, Plain.all_any_isOk_iff.1 hall⟩
  · cases h

theorem Runeauth.equalIsIdentity_printable : printable.EqualIsIdentity :=
  fun value a => equalIsIdentity_plain value a

theorem Runeauth.identityPassesEqual_printable : printable.IdentityPassesEqual :=
  fun a => identityPassesEqual_plain a

theorem RuneBuilder.buildsAlternatives_printable : printable.BuildsAlternatives :=
  fun a ha => buildsAlternatives_plain a ha

theorem RuneBuilder.buildsRestrictions_printable : printable.BuildsRestrictions :=
  fun alts hne => buildsRestrictions_plain alts hne

end Greenlight.Runes
