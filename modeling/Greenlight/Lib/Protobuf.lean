import Greenlight.Lib.Result
import Greenlight.Lib.Word
import Mathlib.Algebra.Order.Ring.Nat

/-!
# The wire format of protobuf

Numbers in base 128, the lowest digits first, and a message as a list of fields, each a number or some bytes under the
number of the field.  What was written is read back (`decodeFields_encodeFields`).  The numbers here have no bound,
where a machine reads ten digits; fields of a fixed width and groups are left out.
-/

namespace Greenlight.Lib.Protobuf

/-! ### Numbers -/

def putVarint (n : ℕ) : Bytes :=
  if n < 128 then [UInt8.ofNat n] else UInt8.ofNat (n % 128 + 128) :: putVarint (n / 128)

def getVarint : Bytes → Option (ℕ × Bytes)
  | [] => none
  | byte :: b =>
    if byte.toNat < 128 then some (byte.toNat, b)
    else (getVarint b).map fun r => (byte.toNat - 128 + 128 * r.1, r.2)

theorem getVarint_putVarint (n : ℕ) (rest : Bytes) : getVarint (putVarint n ++ rest) = some (n, rest) := by
  induction n using Nat.strongRecOn with
  | ind n ih =>
    rw [putVarint]
    split_ifs with hsmall
    · have hbyte : (UInt8.ofNat n).toNat = n := UInt8.toNat_ofNat_of_lt' (by rw [UInt8.size]; omega)
      rw [List.singleton_append, getVarint, hbyte, if_pos hsmall]
    · have hbyte : (UInt8.ofNat (n % 128 + 128)).toNat = n % 128 + 128 :=
        UInt8.toNat_ofNat_of_lt' (by rw [UInt8.size]; omega)
      rw [List.cons_append, getVarint, hbyte, if_neg (by omega), ih (n / 128) (by omega)]
      simp only [Option.map_some, Option.some.injEq, Prod.mk.injEq, and_true]
      omega

theorem putVarint_ne_nil (n : ℕ) : putVarint n ≠ [] := by
  rw [putVarint]
  split_ifs <;> simp

/-! ### Fields -/

inductive Value where
  | varint (n : ℕ)
  | bytes (b : Bytes)
  deriving DecidableEq, Repr

structure Field where
  number : ℕ
  value : Value
  deriving DecidableEq, Repr

def Value.wireType : Value → ℕ
  | varint _ => 0
  | bytes _ => 2

def Value.encode : Value → Bytes
  | varint n => putVarint n
  | bytes b => putVarint b.length ++ b

def Field.encode (f : Field) : Bytes := putVarint (f.number * 8 + f.value.wireType) ++ f.value.encode

def Value.decode (wireType : ℕ) (b : Bytes) : Option (Value × Bytes) :=
  match wireType with
  | 0 => (getVarint b).map fun r => (.varint r.1, r.2)
  | 2 => do
    let (len, b) ← getVarint b
    if b.length < len then none else some (.bytes (b.take len), b.drop len)
  | _ => none

def Field.decode (b : Bytes) : Option (Field × Bytes) := do
  let (key, b) ← getVarint b
  let (value, b) ← Value.decode (key % 8) b
  return (⟨key / 8, value⟩, b)

theorem Value.decode_encode (v : Value) (rest : Bytes) :
    Value.decode v.wireType (v.encode ++ rest) = some (v, rest) := by
  cases v with
  | varint n =>
    show (getVarint (putVarint n ++ rest)).map _ = _
    rw [getVarint_putVarint]
    rfl
  | bytes b =>
    show (getVarint (putVarint b.length ++ b ++ rest)).bind _ = _
    rw [List.append_assoc, getVarint_putVarint, Option.bind_some]
    simp

theorem Field.decode_encode (f : Field) (rest : Bytes) : Field.decode (f.encode ++ rest) = some (f, rest) := by
  have htype : f.value.wireType < 8 := by cases f.value <;> simp [Value.wireType]
  have hkind : (f.number * 8 + f.value.wireType) % 8 = f.value.wireType := by omega
  have hnumber : (f.number * 8 + f.value.wireType) / 8 = f.number := by omega
  simp only [Field.decode, Field.encode, List.append_assoc, getVarint_putVarint, Option.bind_eq_bind,
    Option.bind_some, hkind, Value.decode_encode, hnumber]
  rfl

theorem Field.encode_ne_nil (f : Field) : f.encode ≠ [] := by
  simp [Field.encode, putVarint_ne_nil]

/-! ### Messages -/

def encodeFields (fields : List Field) : Bytes := fields.flatMap Field.encode

/-- The fields of some bytes, as many of them as there is fuel for. -/
def decodeFieldsFrom : ℕ → Bytes → Option (List Field)
  | _, [] => some []
  | 0, _ :: _ => none
  | fuel + 1, b => do
    let (f, b) ← Field.decode b
    let fields ← decodeFieldsFrom fuel b
    return f :: fields

/-- Every field takes a byte or more. -/
def decodeFields (b : Bytes) : Option (List Field) := decodeFieldsFrom b.length b

theorem decodeFieldsFrom_encodeFields (fields : List Field) {fuel : ℕ} (h : fields.length ≤ fuel) :
    decodeFieldsFrom fuel (encodeFields fields) = some fields := by
  induction fields generalizing fuel with
  | nil => cases fuel <;> rfl
  | cons f fields ih =>
    obtain ⟨fuel, rfl⟩ : ∃ k, fuel = k + 1 := ⟨fuel - 1, by simp at h; omega⟩
    have hbytes : encodeFields (f :: fields) = f.encode ++ encodeFields fields := List.flatMap_cons
    obtain ⟨byte, b, hcons⟩ := List.exists_cons_of_ne_nil f.encode_ne_nil
    have hstep : decodeFieldsFrom (fuel + 1) (f.encode ++ encodeFields fields) = (do
        let (f, b) ← Field.decode (f.encode ++ encodeFields fields)
        let fields ← decodeFieldsFrom fuel b
        return f :: fields) := by
      rw [hcons]
      rfl
    rw [hbytes, hstep, Field.decode_encode]
    simp only [Option.bind_eq_bind, Option.bind_some, ih (Nat.le_of_succ_le_succ h)]
    rfl

theorem length_le_encodeFields (fields : List Field) : fields.length ≤ (encodeFields fields).length := by
  induction fields with
  | nil => exact Nat.zero_le _
  | cons f fields ih =>
    have hbytes : encodeFields (f :: fields) = f.encode ++ encodeFields fields := List.flatMap_cons
    have hpos := List.length_pos_of_ne_nil f.encode_ne_nil
    rw [hbytes, List.length_append, List.length_cons]
    omega

/-- **A message is read back**, field by field. -/
theorem decodeFields_encodeFields (fields : List Field) : decodeFields (encodeFields fields) = some fields :=
  decodeFieldsFrom_encodeFields fields (length_le_encodeFields fields)

end Greenlight.Lib.Protobuf
