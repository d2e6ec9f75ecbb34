import Mathlib.Data.String.Basic
import Mathlib.Algebra.Group.Int

/-!
# Field name hashing

`operator"" _octo_field_name_hash` (`FieldHash.h`) turns a field name into its
`FieldId` with the FNV-1a loop.  The loop XORs each `char` of the literal into a
`uint32_t` and multiplies by the FNV prime in `int64_t`.  Two details of C++
arithmetic decide what it computes: a `char` is promoted to `int` before the XOR,
so where `char` is signed every byte from `0x80` up enters as its sign extension,
and the product is signed, so an overflow would be undefined.

The model keeps both: the signedness of `char` is a parameter of the platform, and
the multiplication returns `none` where `int64_t` would overflow.
-/

namespace Octo

/-- `FNV_offset`, the offset basis and initial value of the hash. -/
def fnvOffset : UInt32 := 2166136261

/-- `FNV_prime_32`, declared `int64_t` so that the product is taken in 64 bits. -/
def fnvPrime32 : Int := 16777619

/-- The value of a `char` of the literal once promoted to `int`: its byte where
`char` is unsigned, its two's complement value where `char` is signed. -/
def charToInt (charIsSigned : Bool) (char : UInt8) : Int :=
  if charIsSigned && 128 ≤ char.toNat then char.toNat - 256 else char.toNat

/-- Conversion of an integer to `uint32_t`: its value modulo `2^32`. -/
def uint32OfInt (value : Int) : UInt32 :=
  UInt32.ofNat (value % 2 ^ 32).toNat

/-- Multiplication of two `int64_t` values, `none` where the product leaves the
range of `int64_t`. -/
def int64Mul? (left right : Int) : Option Int :=
  if -2 ^ 63 ≤ left * right ∧ left * right < 2 ^ 63 then some (left * right) else none

/-- One turn of the `while` loop: `hash = hash ^ (*chars++)`, then
`hash = (uint32_t)(hash * FNV_prime_32)`. -/
def hashStep (charIsSigned : Bool) (hash : UInt32) (char : UInt8) : Option UInt32 := do
  let hash := hash ^^^ uint32OfInt (charToInt charIsSigned char)
  let product ← int64Mul? hash.toNat fnvPrime32
  pure (uint32OfInt product)

/-- `operator"" _octo_field_name_hash` over the bytes of the literal. -/
def octoFieldNameHash (charIsSigned : Bool) (chars : List UInt8) : Option UInt32 :=
  chars.foldlM (hashStep charIsSigned) fnvOffset

/-- The reference FNV-1a hash over octets: XOR the byte, multiply modulo `2^32`. -/
def fnv1a32 (bytes : List UInt8) : UInt32 :=
  bytes.foldl (fun hash byte => (hash ^^^ byte.toUInt32) * 16777619) 2166136261

/-! ## The loop never overflows -/

theorem toNat_uint32OfInt (value : Int) : (uint32OfInt value).toNat = (value % 2 ^ 32).toNat := by
  have : (value % 2 ^ 32).toNat < 2 ^ 32 := by omega
  exact Nat.mod_eq_of_lt this

theorem uint32OfInt_ofNat (value : Nat) : uint32OfInt value = UInt32.ofNat value := by
  apply UInt32.ext
  rw [toNat_uint32OfInt]
  show _ = value % 2 ^ 32
  omega

/-- The product of a `uint32_t` with `FNV_prime_32` stays below `2^56`, far inside
the range of `int64_t`, and its cast back to `uint32_t` is `uint32_t`
multiplication. -/
theorem int64Mul?_fnvPrime32 (hash : UInt32) :
    (int64Mul? hash.toNat fnvPrime32).map uint32OfInt = some (hash * 16777619) := by
  have product : (hash.toNat : Int) * fnvPrime32 = ((hash.toNat * 16777619 : Nat) : Int) := by
    simp [fnvPrime32]
  have inRange : hash.toNat * 16777619 < 2 ^ 63 := by
    have := hash.toNat_lt
    omega
  have noOverflow :
      int64Mul? hash.toNat fnvPrime32 = some ((hash.toNat * 16777619 : Nat) : Int) := by
    simp only [int64Mul?, product]
    exact if_pos ⟨by omega, by omega⟩
  simp only [noOverflow, Option.map_some', uint32OfInt_ofNat, Option.some.injEq]
  apply UInt32.ext
  rw [UInt32.toNat_mul, UInt32.toNat_ofNat]
  rfl

@[simp] theorem hashStep_eq (charIsSigned : Bool) (hash : UInt32) (char : UInt8) :
    hashStep charIsSigned hash char =
      some ((hash ^^^ uint32OfInt (charToInt charIsSigned char)) * 16777619) := by
  have step := int64Mul?_fnvPrime32 (hash ^^^ uint32OfInt (charToInt charIsSigned char))
  simp only [hashStep]
  cases h : int64Mul? _ fnvPrime32 <;> simp_all

/-- On every platform the field hash is defined (no multiplication overflows) and
is the FNV-1a fold over the promoted `char` values. -/
theorem octoFieldNameHash_eq_foldl (charIsSigned : Bool) (chars : List UInt8) :
    octoFieldNameHash charIsSigned chars =
      some (chars.foldl (fun hash char =>
        (hash ^^^ uint32OfInt (charToInt charIsSigned char)) * 16777619) fnvOffset) := by
  unfold octoFieldNameHash
  generalize fnvOffset = hash
  induction chars generalizing hash with
  | nil => rfl
  | cons char chars ih => simp [ih]

/-- An unsigned `char` enters the XOR as its byte. -/
theorem uint32OfInt_charToInt_unsigned (char : UInt8) :
    uint32OfInt (charToInt false char) = char.toUInt32 := by
  simp only [charToInt, Bool.false_and, Bool.false_eq_true, if_false, uint32OfInt_ofNat]
  apply UInt32.ext
  show char.toNat % 2 ^ 32 = char.toNat
  have := char.toNat_lt
  omega

/-- Where `char` is unsigned the operator is FNV-1a for every byte string. -/
theorem octoFieldNameHash_unsigned (chars : List UInt8) :
    octoFieldNameHash false chars = some (fnv1a32 chars) := by
  simp only [octoFieldNameHash_eq_foldl, uint32OfInt_charToInt_unsigned, fnv1a32, fnvOffset]

/-- An ASCII byte enters the XOR as itself whether `char` is signed or not. -/
theorem uint32OfInt_charToInt_ascii (charIsSigned : Bool) {char : UInt8}
    (ascii : char.toNat < 128) :
    uint32OfInt (charToInt charIsSigned char) = char.toUInt32 := by
  have notHigh : ¬(128 ≤ char.toNat) := by omega
  rw [← uint32OfInt_charToInt_unsigned]
  simp [charToInt, notHigh]

/-- On every platform the operator is FNV-1a on names made of ASCII bytes. -/
theorem octoFieldNameHash_ascii (charIsSigned : Bool) {chars : List UInt8}
    (ascii : ∀ char ∈ chars, char.toNat < 128) :
    octoFieldNameHash charIsSigned chars = some (fnv1a32 chars) := by
  rw [octoFieldNameHash_eq_foldl, fnv1a32, fnvOffset, Option.some.injEq]
  exact List.foldl_ext _ _ _ fun hash char member => by
    rw [uint32OfInt_charToInt_ascii charIsSigned (ascii char member)]

theorem octoFieldNameHash_ascii_employee_ids :
    (∀ char ∈ "employee_ids".toUTF8.data.toList, char.toNat < 128) ∧
      octoFieldNameHash true "employee_ids".toUTF8.data.toList =
        some (fnv1a32 "employee_ids".toUTF8.data.toList) :=
  ⟨by decide, octoFieldNameHash_ascii true (by decide)⟩

/-- The UTF-8 test vector of `FieldHash_test.cpp`: the expected `20395768` is what a
signed-`char` platform computes, while FNV-1a of those bytes, and the operator on an
unsigned-`char` platform, give `2589910776`. -/
theorem octoFieldNameHash_theta :
    octoFieldNameHash true "theta is Θ or Ө or θ".toUTF8.data.toList = some 20395768 ∧
      octoFieldNameHash false "theta is Θ or Ө or θ".toUTF8.data.toList = some 2589910776 ∧
      fnv1a32 "theta is Θ or Ө or θ".toUTF8.data.toList = 2589910776 := by
  decide

end Octo
