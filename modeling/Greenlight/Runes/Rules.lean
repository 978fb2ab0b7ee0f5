import Greenlight.Runes.Plain

/-!
# Predefined rules

`DefRules` and `RuneFactory::carve` of `runes.rs`: a rule set is generated as restrictions, and these are added to a
rune.  The constructors of the crate and its `add_restriction` are a parameter (`RuneBuilder`), with what is used
of their documented behaviour as properties of it.
-/

namespace Greenlight.Runes

open Greenlight.Lib

/-- How carving ends without a rune: with an error of the crate, or with the panic of an `unwrap`. -/
inductive CarveFailure where
  | err (e : String)
  | panic
  deriving DecidableEq, Repr

/-- What rules are built with, in the crate `runeauth`. -/
structure RuneBuilder (lib : Runeauth) where
  /-- `Alternative::new`; the flag allows the field of the unique id. -/
  alternativeNew : String → Condition → String → Bool → Except String Alternative
  restrictionNew : List Alternative → Except String Restriction
  /-- `add_restriction` of a restriction: the rune is changed in place. -/
  addRestriction : lib.Rune → Restriction → Except String Unit × lib.Rune

inductive DefRules where
  | readOnly
  | pay
  | add (rules : List DefRules)

/-- Field and value are made of letters and digits, and the field is there. -/
def Alternative.IsWord (a : Alternative) : Prop :=
  a.field ≠ "" ∧ (∀ c ∈ a.field.toList, c.isAlphanum) ∧ ∀ c ∈ a.value.toList, c.isAlphanum

theorem Alternative.IsWord.printable {a : Alternative} (h : a.IsWord) : a.Printable :=
  Alternative.printable_of_isAlphanum h.2.1 h.2.2

namespace RuneBuilder

variable {lib : Runeauth} (b : RuneBuilder lib)

/-- `unwrap` of a constructor. -/
def unwrap {α : Type} : Except String α → Except CarveFailure α
  | .ok a => .ok a
  | .error _ => .error .panic

def alternative (field : String) (cond : Condition) (value : String) : Except String Alternative :=
  b.alternativeNew field cond value false

mutual

def generate : DefRules → Except CarveFailure (List Restriction)
  | .readOnly => do
    let get ← unwrap (b.alternative "method" .beginsWith "Get")
    let list ← unwrap (b.alternative "method" .beginsWith "List")
    return [← unwrap (b.restrictionNew [get, list])]
  | .pay => do
    let pay ← unwrap (b.alternative "method" .equal "pay")
    return [← unwrap (b.restrictionNew [pay])]
  | .add rules => do
    let altSet ← generateAll rules []
    return [← (b.restrictionNew altSet).mapError .err]

/-- The fold over the rules of an `Add`, with the alternatives so far. -/
def generateAll : List DefRules → List Alternative → Except CarveFailure (List Alternative)
  | [], acc => return acc
  | rule :: rules, acc => do
    let res ← generate rule
    generateAll rules (acc ++ res.flatMap (·.alternatives))

end

/-- `RuneFactory::carve`; what `add_restriction` returns is dropped. -/
def carve (origin : lib.Rune) (append : List DefRules) : Except CarveFailure String := do
  let restrictions ← append.foldlM (fun acc res => do return acc ++ (← b.generate res)) []
  return lib.toBase64 (restrictions.foldl (fun rune r => (b.addRestriction rune r).2) origin)

/-! ### What is used of the crate -/

/-- An alternative of words is built of its parts. -/
def BuildsAlternatives : Prop :=
  ∀ a : Alternative, a.IsWord → b.alternativeNew a.field a.cond a.value false = .ok a

def BuildsRestrictions : Prop := ∀ alts, alts ≠ [] → b.restrictionNew alts = .ok ⟨alts⟩

/-- A restriction of words that has been added is among those of the rune. -/
def AddsRestrictions : Prop :=
  ∀ rune r, r.alternatives ≠ [] → (∀ a ∈ r.alternatives, a.IsWord) →
    r ∈ lib.restrictions (b.addRestriction rune r).2

end RuneBuilder

/-- `^`: passes if the value begins with that of the alternative. -/
def Runeauth.BeginsWithIsPrefix (lib : Runeauth) : Prop :=
  ∀ value a, a.cond = .beginsWith → lib.conditionChecker value a = .ok () → startsWith value a.value

theorem Context.startsWith_method_of_check {lib : Runeauth} (hbegins : lib.BeginsWithIsPrefix) {ctx : Context}
    {alt : Alternative} (hfield : alt.field = "method") (hcond : alt.cond = .beginsWith)
    (h : ctx.checkAlternative lib alt = .ok ()) : startsWith ctx.method alt.value := by
  simp only [checkAlternative, hfield] at h
  exact hbegins _ _ hcond h

/-! ### The read-only rule -/

/-- `method^Get|method^List`. -/
def readOnlyRestriction : Restriction := ⟨[⟨"method", .beginsWith, "Get"⟩, ⟨"method", .beginsWith, "List"⟩]⟩

theorem isWord_of_mem_readOnly {a : Alternative} (h : a ∈ readOnlyRestriction.alternatives) : a.IsWord := by
  simp only [readOnlyRestriction, List.mem_cons, List.not_mem_nil, or_false] at h
  rcases h with rfl | rfl
  · exact ⟨by decide, List.all_eq_true.1 (by decide), List.all_eq_true.1 (by decide)⟩
  · exact ⟨by decide, List.all_eq_true.1 (by decide), List.all_eq_true.1 (by decide)⟩

theorem method_of_mem_readOnly {a : Alternative} (h : a ∈ readOnlyRestriction.alternatives) :
    a.field = "method" ∧ a.cond = .beginsWith ∧ ∃ c ∈ a.value.toList, c.isUpper := by
  simp only [readOnlyRestriction, List.mem_cons, List.not_mem_nil, or_false] at h
  rcases h with rfl | rfl
  · exact ⟨rfl, rfl, 'G', by decide, by decide⟩
  · exact ⟨rfl, rfl, 'L', by decide, by decide⟩

namespace RuneBuilder

variable {lib : Runeauth} {b : RuneBuilder lib}

theorem generate_readOnly (halt : b.BuildsAlternatives) (hres : b.BuildsRestrictions) :
    b.generate .readOnly = .ok [readOnlyRestriction] := by
  have hget : b.alternative "method" .beginsWith "Get" = .ok ⟨"method", .beginsWith, "Get"⟩ :=
    halt ⟨"method", .beginsWith, "Get"⟩ (isWord_of_mem_readOnly (by decide))
  have hlist : b.alternative "method" .beginsWith "List" = .ok ⟨"method", .beginsWith, "List"⟩ :=
    halt ⟨"method", .beginsWith, "List"⟩ (isWord_of_mem_readOnly (by decide))
  have hboth : b.restrictionNew readOnlyRestriction.alternatives = .ok readOnlyRestriction := hres _ (by decide)
  rw [generate, hget, hlist]
  dsimp only [unwrap, bind, Except.bind]
  rw [readOnlyRestriction] at hboth
  rw [hboth]
  rfl

theorem mem_restrictions_of_carve (halt : b.BuildsAlternatives) (hres : b.BuildsRestrictions)
    (hadd : b.AddsRestrictions) (hcodec : lib.Base64RoundTrip) {origin : lib.Rune} {carved : String}
    (h : b.carve origin [.readOnly] = .ok carved) :
    ∃ rune, lib.fromBase64 carved = .ok rune ∧ readOnlyRestriction ∈ lib.restrictions rune := by
  obtain ⟨restrictions, hfold, h⟩ := bind_eq_ok.1 h
  cases h
  rw [List.foldlM_cons, generate_readOnly halt hres] at hfold
  cases hfold
  exact ⟨_, hcodec _, hadd origin readOnlyRestriction (by decide) fun a => isWord_of_mem_readOnly⟩

end RuneBuilder

/-! ### Rules in plain text -/

namespace Plain

theorem restrictions_encode {r : Restriction} (h : r.Printable) : restrictions (":" ++ encodeRestriction r) = [r] := by
  have hrs : ∀ r' ∈ [r], r'.Printable := List.forall_mem_singleton.2 h
  have hparts := split_code "" (by simp) hrs
  have hread := readRestrictions_encode (List.cons_ne_nil r []) hrs
  simp only [List.map_cons, List.map_nil, String.intercalate_singleton, String.empty_append] at hparts hread
  simp only [restrictions, parts, hparts, hread]
  rfl

/-- A restriction is added to a text that reads back; any other text loses its authcode. -/
def addRestrictionOf (rune : String) (r : Restriction) : Except String Unit × String :=
  let added := rune ++ "&" ++ encodeRestriction r
  (.ok (), if r ∈ restrictions added then added else ":" ++ encodeRestriction r)

end Plain

def RuneBuilder.plain : RuneBuilder Runeauth.plain where
  alternativeNew field cond value allowId :=
    if field = "" ∧ allowId = false then .error "no field" else .ok ⟨field, cond, value⟩
  restrictionNew alts := if alts = [] then .error "no alternative" else .ok ⟨alts⟩
  addRestriction := Plain.addRestrictionOf

namespace RuneBuilder

theorem buildsAlternatives_plain : plain.BuildsAlternatives := by
  intro a ha
  dsimp only [plain]
  rw [if_neg fun h => ha.1 h.1]

theorem buildsRestrictions_plain : plain.BuildsRestrictions := by
  intro alts hne
  dsimp only [plain]
  rw [if_neg hne]

theorem addsRestrictions_plain : plain.AddsRestrictions := by
  intro rune r hne h
  dsimp only [plain, Plain.addRestrictionOf, Runeauth.plain]
  split
  · assumption
  · rw [Plain.restrictions_encode ⟨hne, fun a ha => (h a ha).printable⟩]
    exact List.mem_singleton_self r

end RuneBuilder

theorem Runeauth.beginsWithIsPrefix_plain : Runeauth.plain.BeginsWithIsPrefix := by
  intro value a hcond h
  simp only [plain, Plain.conditionChecker, Plain.isMet, hcond] at h
  split at h
  · rename_i hmet
    exact decide_eq_true (of_decide_eq_true hmet).2
  · cases h

end Greenlight.Runes
