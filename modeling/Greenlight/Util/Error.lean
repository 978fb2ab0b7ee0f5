import Greenlight.Lib.Text

/-!
# Errors that travel as a gRPC status

`gl-util/src/error.rs`: an error has a code of a crate's own enumeration, a message and an optional hint.  It is
sent as a `tonic::Status` whose details are a JSON object of the numeric code and the hint, and read back
through the `from_code` of the enumeration.  What survives is exactly what `from_code` recovers from `code`
(`tryFrom_toStatus`, `roundTrip_iff`).  The JSON library is a parameter.
-/

namespace Greenlight.Util

open Greenlight.Lib

/-- The codes of an enumeration and the way back. -/
class ErrorCode (C : Type) where
  code : C → Int32
  fromCode : Int32 → Option C

inductive GrpcCode where
  | unknown
  | invalidArgument
  | failedPrecondition
  | internal
  deriving DecidableEq, Repr

class ErrorStatusConversionExt (C : Type) extends ErrorCode C where
  statusCode : C → GrpcCode

structure GrpcErrorDetails where
  code : Int32
  hint : Option String
  deriving DecidableEq, Repr

structure Status where
  code : GrpcCode
  message : String
  details : Bytes
  deriving DecidableEq, Repr

structure GrpcErrorInfo where
  code : Int32
  message : String
  hint : Option String
  grpcCode : GrpcCode
  deriving DecidableEq, Repr

/-- `Error<C>`; the source is its text. -/
structure Error (C : Type) where
  code : C
  message : String
  hint : Option String
  context : Option String
  source : Option String
  deriving DecidableEq, Repr

/-- `serde_json::to_vec` and `from_slice` for the details; an error is its text. -/
structure DetailsJson where
  toVec : GrpcErrorDetails → Except String Bytes
  fromSlice : Bytes → Except String GrpcErrorDetails

/-- Decoding undoes encoding. -/
def DetailsJson.Lossless (json : DetailsJson) : Prop :=
  ∀ details, ∃ bytes, json.toVec details = .ok bytes ∧ json.fromSlice bytes = .ok details

namespace Error

variable {C : Type}

def new (code : C) (message : String) : Error C := ⟨code, message, none, none, none⟩

def withHint (e : Error C) (hint : String) : Error C := { e with hint := some hint }

def withContext (e : Error C) (context : String) : Error C := { e with context := some context }

def withSource (e : Error C) (source : String) : Error C := { e with source := some source }

end Error

structure RpcError where
  code : Option Int32
  message : String
  deriving DecidableEq, Repr

class RpcErrConversion (C : Type) where
  fromRpcError : RpcError → C

/-- `From<RpcError>`: the `?` of a call to lightningd. -/
def Error.fromRpc {C : Type} [RpcErrConversion C] (e : RpcError) : Error C :=
  .new (RpcErrConversion.fromRpcError e) e.message

/-! ### To a status and back -/

section Transport

variable {C : Type} (json : DetailsJson)

/-- The text that is sent when the details cannot be serialized. -/
def fallbackDetails (code : Int32) (message : String) : Bytes :=
  utf8 ("\x7b\"code\":" ++ toString code.toInt ++ ",\"message\":\"" ++ message ++ "\"\x7d")

/-- `From<Error<C>> for tonic::Status`. -/
def Error.toStatus [ErrorStatusConversionExt C] (value : Error C) : Status :=
  let details := match json.toVec ⟨ErrorCode.code value.code, value.hint⟩ with
    | .ok bytes => bytes
    | .error _ => fallbackDetails (ErrorCode.code value.code) value.message
  ⟨ErrorStatusConversionExt.statusCode value.code, value.message, details⟩

/-- `TryFrom<tonic::Status> for GrpcErrorInfo`. -/
def GrpcErrorInfo.tryFrom (value : Status) : Except String GrpcErrorInfo := do
  let parsed ← json.fromSlice value.details
  return ⟨parsed.code, value.message, parsed.hint, value.code⟩

/-- `TryFrom<tonic::Status> for Error<C>`; a `ParsingError` is its text. -/
def Error.tryFrom [ErrorCode C] (value : Status) : Except String (Error C) :=
  match GrpcErrorInfo.tryFrom json value with
  | .error e => .error ("failed to convert Status into GrpcErrorInfo " ++ e)
  | .ok grpcErr =>
    match ErrorCode.fromCode grpcErr.code with
    | none => .error ("unknown error code: " ++ toString grpcErr.code.toInt)
    | some code => .ok ⟨code, grpcErr.message, grpcErr.hint, none, none⟩

variable {json} [ErrorStatusConversionExt C]

theorem tryFrom_toStatus (hj : json.Lossless) (e : Error C) :
    (Error.tryFrom json (e.toStatus json) : Except String (Error C)) =
      match (ErrorCode.fromCode (ErrorCode.code e.code) : Option C) with
      | none => .error ("unknown error code: " ++ toString (ErrorCode.code e.code).toInt)
      | some code => .ok ⟨code, e.message, e.hint, none, none⟩ := by
  obtain ⟨bytes, henc, hdec⟩ := hj ⟨ErrorCode.code e.code, e.hint⟩
  have hinfo : GrpcErrorInfo.tryFrom json (e.toStatus json) =
      .ok ⟨ErrorCode.code e.code, e.message, e.hint, ErrorStatusConversionExt.statusCode e.code⟩ := by
    simp only [GrpcErrorInfo.tryFrom, Error.toStatus, henc, hdec]
    rfl
  simp only [Error.tryFrom, hinfo]

def RoundTrips (json : DetailsJson) (e : Error C) : Prop :=
  ∃ e' : Error C, Error.tryFrom json (e.toStatus json) = .ok e' ∧
    e'.code = e.code ∧ e'.message = e.message ∧ e'.hint = e.hint

/-- **An error arrives exactly if `from_code` undoes `code` on its code.** -/
theorem roundTrip_iff (hj : json.Lossless) (e : Error C) :
    RoundTrips json e ↔ (ErrorCode.fromCode (ErrorCode.code e.code) : Option C) = some e.code := by
  unfold RoundTrips
  rw [tryFrom_toStatus hj e]
  cases hc : (ErrorCode.fromCode (ErrorCode.code e.code) : Option C) with
  | none => simp
  | some code =>
    constructor
    · rintro ⟨e', he', hcode, _, _⟩
      have : e' = ⟨code, e.message, e.hint, none, none⟩ := (Except.ok.inj he').symm
      rw [← hcode, this]
    · intro h
      exact ⟨_, rfl, Option.some.inj h, rfl, rfl⟩

end Transport

/-! ### A JSON library -/

def intText (n : Int32) : List Char :=
  if n.toInt < 0 then '-' :: Nat.toDigits 10 n.toInt.natAbs else Nat.toDigits 10 n.toInt.natAbs

def intOfText : List Char → Int32
  | '-' :: digits => Int32.ofInt (-(Nat.ofDigitChars 10 digits 0 : ℤ))
  | digits => Int32.ofInt (Nat.ofDigitChars 10 digits 0)

def isNumeric (c : Char) : Bool := c == '-' || c.isDigit

theorem isNumeric_of_mem_intText {n : Int32} {c : Char} (h : c ∈ intText n) : isNumeric c := by
  have hdigit : ∀ {d : Char}, d ∈ Nat.toDigits 10 n.toInt.natAbs → isNumeric d := fun hd => by
    simp [isNumeric, Nat.isDigit_of_mem_toDigits (by decide) (by decide) hd]
  unfold intText at h
  split at h
  · rcases List.mem_cons.1 h with rfl | h
    · decide
    · exact hdigit h
  · exact hdigit h

theorem intOfText_intText (n : Int32) : intOfText (intText n) = n := by
  have hdigits : Nat.ofDigitChars 10 (Nat.toDigits 10 n.toInt.natAbs) 0 = n.toInt.natAbs :=
    Nat.ofDigitChars_toDigits (by decide) (by decide)
  unfold intText
  split
  · rename_i hneg
    have habs : -(n.toInt.natAbs : ℤ) = n.toInt := by omega
    simp only [intOfText, hdigits, habs, Int32.ofInt_toInt]
  · rename_i hpos
    have habs : (n.toInt.natAbs : ℤ) = n.toInt := by omega
    unfold intOfText
    split
    · rename_i heq
      have : '-' ∈ Nat.toDigits 10 n.toInt.natAbs := heq ▸ List.mem_cons_self ..
      exact absurd (Nat.isDigit_of_mem_toDigits (by decide) (by decide) this) (by decide)
    · rw [hdigits, habs, Int32.ofInt_toInt]

/-- The object of the code and, if there is one, of a hint whose characters need no escape. -/
def detailsText (details : GrpcErrorDetails) : List Char :=
  "\x7b\"code\":".toList ++ (intText details.code ++ match details.hint with
    | none => ['\x7d']
    | some hint => ",\"hint\":\"".toList ++ hint.toList ++ ['"', '\x7d'])

/-- The details that a text stands for, if it is the text of some. -/
def detailsOfText (text : List Char) : GrpcErrorDetails :=
  let body := text.drop 8
  let rest := body.dropWhile isNumeric
  { code := intOfText (body.takeWhile isNumeric)
    hint := if rest = ['\x7d'] then none else some (String.ofList (rest.drop 9).dropLast.dropLast) }

theorem detailsOfText_detailsText (details : GrpcErrorDetails) :
    detailsOfText (detailsText details) = details := by
  obtain ⟨code, hint⟩ := details
  have hall : ∀ c ∈ intText code, isNumeric c := fun c hc => isNumeric_of_mem_intText hc
  -- the digits of the code end where the text goes on with another character
  have hsplit : ∀ (c : Char) (tail : List Char), isNumeric c = false →
      (intText code ++ c :: tail).takeWhile isNumeric = intText code ∧
        (intText code ++ c :: tail).dropWhile isNumeric = c :: tail := fun c tail hc => by
    rw [List.takeWhile_append_of_pos hall, List.dropWhile_append_of_pos hall]
    simp [hc]
  cases hint with
  | none =>
    obtain ⟨htake, hdrop⟩ := hsplit '\x7d' [] (by decide)
    have htext : (detailsText ⟨code, none⟩).drop 8 = intText code ++ ['\x7d'] := rfl
    simp only [detailsOfText, htext, htake, hdrop, intOfText_intText, if_true]
  | some hint =>
    obtain ⟨htake, hdrop⟩ := hsplit ',' ("\"hint\":\"".toList ++ hint.toList ++ ['"', '\x7d']) (by decide)
    have htext : (detailsText ⟨code, some hint⟩).drop 8 =
        intText code ++ ',' :: ("\"hint\":\"".toList ++ hint.toList ++ ['"', '\x7d']) := rfl
    have hhint : (',' :: ("\"hint\":\"".toList ++ hint.toList ++ ['"', '\x7d'])).drop 9 =
        hint.toList ++ ['"'] ++ ['\x7d'] := by simp
    have hne : ',' :: ("\"hint\":\"".toList ++ hint.toList ++ ['"', '\x7d']) ≠ ['\x7d'] := by simp
    simp only [detailsOfText, htext, htake, hdrop, intOfText_intText, if_neg hne, hhint,
      List.dropLast_concat, String.ofList_toList]

/-- A JSON library that accepts exactly the texts it writes. -/
def plainJson : DetailsJson where
  toVec details := .ok (utf8 (String.ofList (detailsText details)))
  fromSlice bytes :=
    match String.fromUTF8? ⟨bytes.toArray⟩ with
    | none => .error "invalid unicode"
    | some text =>
      let details := detailsOfText text.toList
      if detailsText details = text.toList then .ok details else .error "invalid JSON"

theorem plainJson_lossless : plainJson.Lossless := by
  intro details
  refine ⟨utf8 (String.ofList (detailsText details)), rfl, ?_⟩
  simp only [plainJson, fromUTF8_utf8, String.toList_ofList, detailsOfText_detailsText, if_true]

end Greenlight.Util
