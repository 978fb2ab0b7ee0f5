import Mathlib.Order.Lattice

/-!
# Machine words

The order of `UInt64` as a linear order, the eight big-endian bytes of a word, its arithmetic in the two ways to build
the code, and the conversion between the two floating-point formats.
-/

namespace Greenlight.Lib

abbrev Bytes := List UInt8

instance linearOrderUInt64 : LinearOrder UInt64 where
  le_refl _ := by grind
  le_trans _ _ _ := by grind
  lt_iff_le_not_ge _ _ := by grind
  le_antisymm _ _ := by grind
  le_total _ _ := by grind
  toDecidableLE := inferInstance
  toDecidableLT := inferInstance
  toDecidableEq := inferInstance
  min := min
  max := max
  min_def _ _ := rfl
  max_def _ _ := rfl

/-- The bytes `put_u64` appends to a buffer: the word in big-endian order. -/
def beBytes (w : UInt64) : Bytes :=
  [(w >>> 56).toUInt8, (w >>> 48).toUInt8, (w >>> 40).toUInt8, (w >>> 32).toUInt8,
    (w >>> 24).toUInt8, (w >>> 16).toUInt8, (w >>> 8).toUInt8, w.toUInt8]

@[simp] theorem length_beBytes (w : UInt64) : (beBytes w).length = 8 := rfl

theorem beBytes_injective : Function.Injective beBytes := by
  intro v w h
  simp only [beBytes, List.cons.injEq, and_true, ← UInt8.toNat_inj, UInt64.toNat_toUInt8,
    UInt64.toNat_shiftRight, Nat.shiftRight_eq_div_pow] at h
  have hv := v.toNat_lt
  have hw := w.toNat_lt
  apply UInt64.toNat.inj
  simp only [UInt64.reduceToNat, Nat.reduceMod, Nat.reducePow] at h
  omega

/-- The word `get_u64` reads from the front of a buffer; it panics if there are less than eight bytes. -/
def getU64 : Bytes → Option UInt64
  | a :: b :: c :: d :: e :: f :: g :: h :: _ =>
    some (a.toUInt64 <<< 56 ||| b.toUInt64 <<< 48 ||| c.toUInt64 <<< 40 ||| d.toUInt64 <<< 32 |||
      e.toUInt64 <<< 24 ||| f.toUInt64 <<< 16 ||| g.toUInt64 <<< 8 ||| h.toUInt64)
  | _ => none

theorem isSome_getU64_iff (b : Bytes) : (getU64 b).isSome ↔ 8 ≤ b.length := by
  unfold getU64
  split
  · simp
  · rename_i hshort
    refine iff_of_false (by simp) fun hlen => ?_
    match b, hlen with
    | a :: b :: c :: d :: e :: f :: g :: h :: rest, _ => exact hshort a b c d e f g h rest rfl

example : getU64 (beBytes 1700000000000 ++ [1]) = some 1700000000000 := by decide

/-- How the code is built: a debug build checks for overflows, a release build wraps. -/
inductive Build where
  | debug
  | release
  deriving DecidableEq, Repr

/-- A result of word arithmetic, from the exact number and the word that is left of it; `none` is the panic of an
overflow. -/
def checkU64 (build : Build) (exact : ℕ) (wrapped : UInt64) : Option UInt64 :=
  if exact < UInt64.size then some wrapped
  else
    match build with
    | .debug => none
    | .release => some wrapped

def mulU64 (build : Build) (x y : UInt64) : Option UInt64 := checkU64 build (x.toNat * y.toNat) (x * y)

def addU64 (build : Build) (x y : UInt64) : Option UInt64 := checkU64 build (x.toNat + y.toNat) (x + y)

/-- `sum`, over words. -/
def sumU64 (build : Build) (l : List UInt64) : Option UInt64 := l.foldlM (addU64 build) 0

section

variable {build : Build} {exact : ℕ} {x y z : UInt64}

/-- If there is a result, it is the one modulo the size of a word. -/
theorem checkU64_eq_some (h : checkU64 build exact x = some z) : z = x := by
  unfold checkU64 at h
  split at h
  · exact (Option.some.inj h).symm
  · cases build with
    | debug => cases h
    | release => exact (Option.some.inj h).symm

variable (build) in
theorem mulU64_of_lt (h : x.toNat * y.toNat < UInt64.size) : mulU64 build x y = some (x * y) :=
  if_pos h

theorem mulU64_eq_some (h : mulU64 build x y = some z) : z = x * y :=
  checkU64_eq_some h

theorem addU64_eq_some (h : addU64 build x y = some z) : z = x + y :=
  checkU64_eq_some h

theorem lt_add_one_iff : x < x + 1 ↔ x.toNat + 1 < UInt64.size := by
  have hx := x.toNat_lt
  rw [UInt64.lt_iff_toNat_lt, UInt64.toNat_add, UInt64.toNat_one]
  simp only [UInt64.size]
  omega

end

/-! ### Floating point -/

open Float.Model in
/-- `as f64`, of an `f32`. -/
def asF64 (x : Float32) : Float :=
  .ofModel (pack (match x.toModel.unpack with
    | .finite sign mantissa exponent _ => UnpackedFloat.round Format.binary64 sign mantissa exponent
    | x => x))

end Greenlight.Lib
