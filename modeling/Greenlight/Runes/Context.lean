import Greenlight.Lib.Result
import Greenlight.Lib.Text

/-!
# Runes

`runes.rs`: the context a rune is checked in.  The crate `runeauth` is a parameter (`Runeauth`), with what is used
of its documented behaviour as properties of it: a rune is met when each of its restrictions is, a restriction
when one of its alternatives is, and an alternative is a field, a condition character and a value.
-/

namespace Greenlight.Runes

open Greenlight.Lib

/-- The conditions of an alternative: `=`, `/`, `^`, `$`, `~`, `<`, `>`, `{`, `}`, `#` and `!`. -/
inductive Condition where
  | equal
  | notEqual
  | beginsWith
  | endsWith
  | contains
  | intLT
  | intGT
  | lexLT
  | lexGT
  | comment
  | missing
  deriving DecidableEq, Repr

structure Alternative where
  field : String
  cond : Condition
  value : String
  deriving DecidableEq, Repr

structure Restriction where
  alternatives : List Alternative
  deriving DecidableEq, Repr

/-- The crate `runeauth`, as far as it is used here.  An error is its text. -/
structure Runeauth where
  Rune : Type
  /-- `Restriction::try_from` of a string. -/
  restrictionTryFrom : String → Except String Restriction
  /-- `Rune::new`, of an authcode, restrictions, a unique id and a version. -/
  new : Bytes → List Restriction → Option String → Option String → Except String Rune
  authcode : Rune → Bytes
  restrictions : Rune → List Restriction
  fromBase64 : String → Except String Rune
  toBase64 : Rune → String
  toString : Rune → String
  getId : Rune → Option String
  /-- `add_restriction` of a string: the rune is changed in place. -/
  addRestriction : Rune → String → Except String Unit × Rune
  /-- `ConditionChecker { value }.check_alternative`. -/
  conditionChecker : String → Alternative → Except String Unit
  /-- `check_with_reason` of a master rune, on a rune in its base64 form and the check of an alternative. -/
  checkWithReason : Rune → String → (Alternative → Except String Unit) → Except String Unit

namespace Runeauth

/-- A rune that passes the check has in each restriction an alternative that does. -/
def ChecksRestrictions (lib : Runeauth) : Prop :=
  ∀ master b64 check, lib.checkWithReason master b64 check = .ok () →
    ∃ rune, lib.fromBase64 b64 = .ok rune ∧
      ∀ r ∈ lib.restrictions rune, ∃ a ∈ r.alternatives, check a = .ok ()

/-- A new rune has the restrictions it is given. -/
def NewKeepsRestrictions (lib : Runeauth) : Prop :=
  ∀ authcode res uniqueId version rune, lib.new authcode res uniqueId version = .ok rune →
    ∀ r ∈ res, r ∈ lib.restrictions rune

/-- With a unique id, a new rune has besides only the restriction to this id and the version. -/
def NewAddsOnlyId (lib : Runeauth) : Prop :=
  ∀ authcode res uniqueId version rune, lib.new authcode res (some uniqueId) (some version) = .ok rune →
    ∀ r ∈ lib.restrictions rune, r ∈ res ∨ r = ⟨[⟨"", .equal, uniqueId ++ "-" ++ version⟩]⟩

def Base64RoundTrip (lib : Runeauth) : Prop :=
  ∀ rune, lib.fromBase64 (lib.toBase64 rune) = .ok rune

/-- A field of letters and digits, a `=` and a value of letters and digits are read as that alternative. -/
def ReadsEqual (lib : Runeauth) : Prop :=
  ∀ field value : String, field ≠ "" → (∀ c ∈ field.toList, c.isAlphanum) → (∀ c ∈ value.toList, c.isAlphanum) →
    lib.restrictionTryFrom (field ++ "=" ++ value) = .ok ⟨[⟨field, .equal, value⟩]⟩

/-- `=`: passes if equal, that is, identical. -/
def EqualIsIdentity (lib : Runeauth) : Prop :=
  ∀ value a, a.cond = .equal → lib.conditionChecker value a = .ok () → value = a.value

/-- `=` passes on a value that is there and identical. -/
def IdentityPassesEqual (lib : Runeauth) : Prop :=
  ∀ a, a.cond = .equal → a.value ≠ "" → lib.conditionChecker a.value a = .ok ()

end Runeauth

/-- What is known of a request when its rune is checked; `time` is in nanoseconds since the epoch. -/
structure Context where
  method : String
  pubkey : String
  uniqueId : String
  time : ℤ

def Context.checkAlternative (lib : Runeauth) (ctx : Context) (alt : Alternative) : Except String Unit := do
  let value ← match alt.field with
    | "" => .ok ctx.uniqueId
    | "method" => .ok ctx.method
    | "pubkey" => .ok ctx.pubkey
    | "time" =>
      if ctx.time < 0 then .error "Can not extract seconds from timestamp"
      else .ok (Nat.repr (ctx.time / 1000000000).toNat)
    | _ => .ok "" -- If we don't know the field we can not set it!
  lib.conditionChecker value alt

/-- The context satisfies all restrictions of a rune. -/
def Context.Satisfies (lib : Runeauth) (ctx : Context) (rune : lib.Rune) : Prop :=
  ∀ r ∈ lib.restrictions rune, ∃ a ∈ r.alternatives, ctx.checkAlternative lib a = .ok ()

def Alternative.IsPubkey (a : Alternative) : Prop := a.field = "pubkey" ∧ a.cond = .equal

instance (a : Alternative) : Decidable a.IsPubkey := by unfold Alternative.IsPubkey; infer_instance

theorem isAlphanum_pubkey : ∀ c ∈ "pubkey".toList, c.isAlphanum := List.all_eq_true.1 (by decide)

theorem Context.pubkey_eq_of_check {lib : Runeauth} (heq : lib.EqualIsIdentity) {ctx : Context}
    {alt : Alternative} (halt : alt.IsPubkey) (h : ctx.checkAlternative lib alt = .ok ()) :
    ctx.pubkey = alt.value := by
  obtain ⟨hfield, hcond⟩ := halt
  simp only [checkAlternative, hfield] at h
  exact heq _ _ hcond h

/-- Only alternatives on the field `pubkey` look at the public key. -/
theorem Context.checkAlternative_pubkey (lib : Runeauth) (ctx : Context) (pk : String) {alt : Alternative}
    (halt : alt.field ≠ "pubkey") :
    ({ ctx with pubkey := pk } : Context).checkAlternative lib alt = ctx.checkAlternative lib alt := by
  unfold checkAlternative
  split <;> first | rfl | exact absurd ‹_› halt

end Greenlight.Runes
