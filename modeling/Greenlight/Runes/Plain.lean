import Greenlight.Runes.Context

/-!
# Runes in plain text

A `Runeauth` to run the model with: a rune is the text `authcode:restriction&restriction&..`, without the base64
form and without hashing, so the authcode of a rune is that of the master rune it comes from.  Restrictions without
the characters of the format in their fields and values read back (`readRestrictions_encode`).
-/

namespace Greenlight.Runes

open Greenlight.Lib

def Condition.toChar : Condition → Char
  | equal => '='
  | notEqual => '/'
  | beginsWith => '^'
  | endsWith => '$'
  | contains => '~'
  | intLT => '<'
  | intGT => '>'
  | lexLT => '\x7b'
  | lexGT => '\x7d'
  | comment => '#'
  | missing => '!'

def Condition.ofChar (c : Char) : Option Condition :=
  [equal, notEqual, beginsWith, endsWith, contains, intLT, intGT, lexLT, lexGT, comment, missing].find?
    (·.toChar = c)

namespace Plain

def alternativeTryFrom (s : String) : Except String Alternative :=
  match s.toList.dropWhile (fun c => (Condition.ofChar c).isNone) with
  | [] => .error "no condition"
  | c :: value =>
    match Condition.ofChar c with
    | none => .error "no condition"
    | some cond =>
      .ok ⟨String.ofList (s.toList.takeWhile fun c => (Condition.ofChar c).isNone), cond, String.ofList value⟩

def restrictionTryFrom (s : String) : Except String Restriction := do
  return ⟨← (split s '|').mapM alternativeTryFrom⟩

def encodeAlternative (a : Alternative) : String := a.field ++ String.ofList [a.cond.toChar] ++ a.value

def encodeRestriction (r : Restriction) : String := "|".intercalate (r.alternatives.map encodeAlternative)

def readRestrictions (s : String) : Except String (List Restriction) := (split s '&').mapM restrictionTryFrom

def parts (rune : String) : String × String :=
  match split rune ':' with
  | [code, restrictions] => (code, restrictions)
  | _ => (rune, "")

def restrictions (rune : String) : List Restriction := (readRestrictions (parts rune).2).toOption.getD []

/-- The restriction that a unique id and a version make. -/
def idRestriction : Option String → Option String → List Restriction
  | some id, some version => [⟨[⟨"", .equal, id ++ "-" ++ version⟩]⟩]
  | some id, none => [⟨[⟨"", .equal, id⟩]⟩]
  | none, _ => []

def render (authcode : Bytes) (res : List Restriction) : String :=
  String.ofList (authcode.map fun b => Char.ofNat b.toNat) ++ ":" ++
    "&".intercalate (res.map encodeRestriction)

/-- Only what reads back. -/
def printed (authcode : Bytes) (res : List Restriction) : Except String String :=
  if restrictions (render authcode res) ≠ res then .error "not printable" else .ok (render authcode res)

def new (authcode : Bytes) (res : List Restriction) (uniqueId version : Option String) : Except String String :=
  printed authcode (idRestriction uniqueId version ++ res)

theorem restrictions_of_printed {authcode : Bytes} {res : List Restriction} {rune : String}
    (h : printed authcode res = .ok rune) : restrictions rune = res := by
  unfold printed at h
  rw [guard_eq_ok, not_not] at h
  obtain ⟨hread, rfl⟩ := And.imp_right Except.ok.inj h
  exact hread

def getId (rune : String) : Option String :=
  match restrictions rune with
  | ⟨[⟨"", .equal, id⟩]⟩ :: _ => (split id '-').head?
  | _ => none

def addRestriction (rune s : String) : Except String Unit × String :=
  match restrictionTryFrom s with
  | .error e => (.error e, rune)
  | .ok _ => (.ok (), rune ++ "&" ++ s)

/-- Every condition except `#` and `!` fails on an empty value. -/
def isMet (value : String) (a : Alternative) : Bool :=
  match a.cond with
  | .comment => true
  | .missing => value = ""
  | .equal => value ≠ "" ∧ value = a.value
  | .notEqual => value ≠ "" ∧ value ≠ a.value
  | .beginsWith => value ≠ "" ∧ a.value.toList <+: value.toList
  | .endsWith => value ≠ "" ∧ a.value.toList <:+ value.toList
  | .contains => value ≠ "" ∧ a.value.toList <:+: value.toList
  | .intLT => match value.toInt?, a.value.toInt? with
    | some v, some w => v < w
    | _, _ => false
  | .intGT => match value.toInt?, a.value.toInt? with
    | some v, some w => v > w
    | _, _ => false
  | .lexLT => value ≠ "" ∧ value < a.value
  | .lexGT => value ≠ "" ∧ value > a.value

def conditionChecker (value : String) (a : Alternative) : Except String Unit :=
  if isMet value a then .ok () else .error "not met"

def checkWithReason (master rune : String) (check : Alternative → Except String Unit) : Except String Unit :=
  if (parts rune).1 ≠ (parts master).1 then .error "authcode does not match"
  else if (restrictions rune).all fun r => r.alternatives.any fun a => (check a).isOk then .ok ()
  else .error "a restriction is not met"

theorem all_any_isOk_iff {rs : List Restriction} {check : Alternative → Except String Unit} :
    (rs.all fun r => r.alternatives.any fun a => (check a).isOk) = true ↔
      ∀ r ∈ rs, ∃ a ∈ r.alternatives, check a = .ok () := by
  have hisOk : ∀ a, (check a).isOk = true ↔ check a = .ok () := by
    intro a
    cases check a with
    | error e => simp [Except.isOk, Except.toBool]
    | ok u => simp [Except.isOk, Except.toBool]
  simp only [List.all_eq_true, List.any_eq_true, hisOk]

theorem ofChar_eq_none {c : Char} (hc : c.isAlphanum) : Condition.ofChar c = none := by
  refine List.find?_eq_none.2 fun cond _ h => ?_
  obtain rfl := of_decide_eq_true h
  revert hc
  cases cond <;> decide

theorem ofChar_toChar (cond : Condition) : Condition.ofChar cond.toChar = some cond := by
  cases cond <;> decide

theorem alternativeTryFrom_encode {a : Alternative} (h : ∀ c ∈ a.field.toList, Condition.ofChar c = none) :
    alternativeTryFrom (encodeAlternative a) = .ok a := by
  have hnone : ∀ c ∈ a.field.toList, (Condition.ofChar c).isNone := fun c hc => by simp [h c hc]
  have hchars : (encodeAlternative a).toList = a.field.toList ++ a.cond.toChar :: a.value.toList := by
    simp [encodeAlternative]
  have hdrop : (a.field.toList ++ a.cond.toChar :: a.value.toList).dropWhile
      (fun c => (Condition.ofChar c).isNone) = a.cond.toChar :: a.value.toList := by
    rw [List.dropWhile_append_of_pos hnone, List.dropWhile_cons_of_neg (by simp [ofChar_toChar])]
  have htake : (a.field.toList ++ a.cond.toChar :: a.value.toList).takeWhile
      (fun c => (Condition.ofChar c).isNone) = a.field.toList := by
    rw [List.takeWhile_append_of_pos hnone, List.takeWhile_cons_of_neg (by simp [ofChar_toChar]), List.append_nil]
  simp [alternativeTryFrom, hchars, hdrop, htake, ofChar_toChar]

theorem alternativeTryFrom_equal {field value : String} (hfield : ∀ c ∈ field.toList, c.isAlphanum) :
    alternativeTryFrom (field ++ "=" ++ value) = .ok ⟨field, .equal, value⟩ :=
  alternativeTryFrom_encode (a := ⟨field, .equal, value⟩) fun c hc => ofChar_eq_none (hfield c hc)

end Plain

/-! ### What reads back -/

/-- The field ends at the condition, and the text at a separator. -/
def Alternative.Printable (a : Alternative) : Prop :=
  (∀ c ∈ a.field.toList, Condition.ofChar c = none) ∧
    ∀ sep ∈ ['|', '&', ':'], sep ∉ a.field.toList ++ a.value.toList

instance (a : Alternative) : Decidable a.Printable :=
  decidable_of_iff ((a.field.toList.all fun c => (Condition.ofChar c).isNone) ∧
      ['|', '&', ':'].all fun sep => !(a.field.toList ++ a.value.toList).contains sep)
    (by simp [Alternative.Printable])

def Restriction.Printable (r : Restriction) : Prop := r.alternatives ≠ [] ∧ ∀ a ∈ r.alternatives, a.Printable

instance (r : Restriction) : Decidable r.Printable := by unfold Restriction.Printable; infer_instance

theorem Alternative.printable_of_isAlphanum {a : Alternative} (hfield : ∀ c ∈ a.field.toList, c.isAlphanum)
    (hvalue : ∀ c ∈ a.value.toList, c.isAlphanum) : a.Printable := by
  refine ⟨fun c hc => Plain.ofChar_eq_none (hfield c hc), fun sep hsep hmem => ?_⟩
  have hseparators : ∀ sep ∈ ['|', '&', ':'], ¬ sep.isAlphanum := by
    simp only [List.forall_mem_cons, List.not_mem_nil, false_implies, implies_true]
    decide
  refine hseparators sep hsep ?_
  rcases List.mem_append.1 hmem with hmem | hmem
  · exact hfield sep hmem
  · exact hvalue sep hmem

namespace Plain

theorem ne_toChar (cond : Condition) : ∀ sep ∈ ['|', '&', ':'], sep ≠ cond.toChar := by
  simp only [List.forall_mem_cons, List.not_mem_nil, false_implies, implies_true]
  cases cond <;> decide

theorem not_mem_encodeAlternative {a : Alternative} (h : a.Printable) {sep : Char} (hsep : sep ∈ ['|', '&', ':']) :
    sep ∉ (encodeAlternative a).toList := by
  have hparts := h.2 sep hsep
  have hcond : sep ≠ a.cond.toChar := ne_toChar a.cond sep hsep
  simp only [List.mem_append, not_or] at hparts
  simp [encodeAlternative, hparts, hcond]

theorem not_mem_encodeRestriction {r : Restriction} (h : r.Printable) {sep : Char} (hsep : sep ∈ ['&', ':']) :
    sep ∉ (encodeRestriction r).toList := by
  have hbar : ∀ sep ∈ ['&', ':'], sep ∉ "|".toList := by simp
  refine not_mem_intercalate (hbar sep hsep) fun text htext => ?_
  obtain ⟨a, ha, rfl⟩ := List.mem_map.1 htext
  exact not_mem_encodeAlternative (h.2 a ha) (List.mem_cons_of_mem _ hsep)

theorem restrictionTryFrom_encode {r : Restriction} (h : r.Printable) :
    restrictionTryFrom (encodeRestriction r) = .ok r := by
  have hbar : ∀ text ∈ r.alternatives.map encodeAlternative, '|' ∉ text.toList :=
    List.forall_mem_map.2 fun a ha => not_mem_encodeAlternative (h.2 a ha) (by decide)
  have hsplit : split (encodeRestriction r) '|' = r.alternatives.map encodeAlternative :=
    split_intercalate (by simpa using h.1) hbar
  rw [restrictionTryFrom, hsplit, mapM_map_eq_ok fun a ha => alternativeTryFrom_encode (h.2 a ha).1]
  rfl

theorem readRestrictions_encode {rs : List Restriction} (hne : rs ≠ []) (h : ∀ r ∈ rs, r.Printable) :
    readRestrictions ("&".intercalate (rs.map encodeRestriction)) = .ok rs := by
  have hand : ∀ text ∈ rs.map encodeRestriction, '&' ∉ text.toList :=
    List.forall_mem_map.2 fun r hr => not_mem_encodeRestriction (h r hr) (by decide)
  have hsplit : split ("&".intercalate (rs.map encodeRestriction)) '&' = rs.map encodeRestriction :=
    split_intercalate (by simpa using hne) hand
  rw [readRestrictions, hsplit, mapM_map_eq_ok fun r hr => restrictionTryFrom_encode (h r hr)]

theorem split_code (code : String) {rs : List Restriction} (hcode : ':' ∉ code.toList) (h : ∀ r ∈ rs, r.Printable) :
    split (code ++ ":" ++ "&".intercalate (rs.map encodeRestriction)) ':' =
      [code, "&".intercalate (rs.map encodeRestriction)] := by
  have hbody : ':' ∉ ("&".intercalate (rs.map encodeRestriction)).toList :=
    not_mem_intercalate (by decide) <|
      List.forall_mem_map.2 fun r hr => not_mem_encodeRestriction (h r hr) (by decide)
  rw [String.append_assoc, split_append (t := "&".intercalate (rs.map encodeRestriction)) (by simp) hcode,
    split_eq_singleton hbody]

end Plain

def Runeauth.plain : Runeauth where
  Rune := String
  restrictionTryFrom := Plain.restrictionTryFrom
  new := Plain.new
  authcode rune := (Plain.parts rune).1.toList.map fun c => c.toNat.toUInt8
  restrictions := Plain.restrictions
  fromBase64 := .ok
  toBase64 := id
  toString := id
  getId := Plain.getId
  addRestriction := Plain.addRestriction
  conditionChecker := Plain.conditionChecker
  checkWithReason := Plain.checkWithReason

namespace Runeauth

theorem checksRestrictions_plain : plain.ChecksRestrictions := by
  intro master b64 check h
  simp only [plain, Plain.checkWithReason, guard_eq_ok] at h
  obtain ⟨-, h⟩ := h
  refine ⟨b64, rfl, ?_⟩
  dsimp only [plain]
  split at h
  · rename_i hall
    exact Plain.all_any_isOk_iff.1 hall
  · cases h

theorem newKeepsRestrictions_plain : plain.NewKeepsRestrictions := by
  intro authcode res uniqueId version rune h r hr
  dsimp only [plain] at h ⊢
  rw [Plain.restrictions_of_printed h]
  exact List.mem_append_right _ hr

theorem base64RoundTrip_plain : plain.Base64RoundTrip := fun _ => rfl

theorem equalIsIdentity_plain : plain.EqualIsIdentity := by
  intro value a hcond h
  simp only [plain, Plain.conditionChecker, Plain.isMet, hcond] at h
  split at h
  · rename_i hmet
    exact (of_decide_eq_true hmet).2
  · cases h

theorem newAddsOnlyId_plain : plain.NewAddsOnlyId := by
  intro authcode res uniqueId version rune h r hr
  dsimp only [plain] at h hr
  rw [Plain.restrictions_of_printed h] at hr
  rcases List.mem_append.1 hr with hr | hr
  · exact Or.inr (List.mem_singleton.1 hr)
  · exact Or.inl hr

theorem readsEqual_plain : plain.ReadsEqual := by
  intro field value _ hfield hvalue
  dsimp only [plain, Plain.restrictionTryFrom]
  have hbar : '|' ∉ (field ++ "=" ++ value).toList := by
    simp only [String.toList_append, List.mem_append, not_or]
    exact ⟨⟨fun h => absurd (hfield _ h) (by decide), by decide⟩, fun h => absurd (hvalue _ h) (by decide)⟩
  rw [split_eq_singleton hbar, List.mapM_cons, Plain.alternativeTryFrom_equal hfield]
  rfl

theorem identityPassesEqual_plain : plain.IdentityPassesEqual := by
  intro a hcond hvalue
  simp [plain, Plain.conditionChecker, Plain.isMet, hcond, hvalue]

end Runeauth

end Greenlight.Runes
