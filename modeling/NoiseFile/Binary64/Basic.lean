/-!
# Binary64 numbers

A size is a 64-bit floating-point number, kept as its interchange word.

* `field` : the word without its sign bit. Fields are ordered as the magnitudes they stand for, with
  `infinityField` above every finite one and below every field of a NaN;
* `unitsOf` : the magnitude of a field, counted in units of `2⁻¹⁰⁷⁴`, the smallest positive number, so that every
  finite magnitude is a natural number of units;
* `units`, `signedUnits` : the value of a number in units.
-/

namespace NoiseFile

structure Binary64 where
  bits : UInt64
  deriving DecidableEq

namespace Binary64

/-! ## Fields of the word -/

/-- The weight of the sign bit, `2⁶³`. -/
def signBit : Nat := 0x8000000000000000

/-- The weight of the leading one that words leave out, `2⁵²`; it is also the distance of two exponents in a field. -/
def leadingOne : Nat := 0x10000000000000

def infinityField : Nat := 0x7FF0000000000000

/-- The word without its sign bit. -/
def field (x : Binary64) : Nat := x.bits.toNat % signBit

def negative (x : Binary64) : Bool := decide (signBit ≤ x.bits.toNat)

def ofField (negative : Bool) (field : Nat) : Binary64 :=
  ⟨UInt64.ofNat (if negative then signBit + field else field)⟩

/-- The quiet NaN with no payload. -/
def nan : Binary64 := ⟨0x7FF8000000000000⟩

def infinity (negative : Bool) : Binary64 := ofField negative infinityField

def isFinite (x : Binary64) : Bool := decide (x.field < infinityField)

def isNaN (x : Binary64) : Bool := decide (infinityField < x.field)

/-! ## Values -/

def unitsPerOne : Nat := Nat.pow 2 1074

/-- The magnitude of a field in units: the fraction itself below `2⁵²`, and above it the fraction under a leading
one, doubled for every further step of the exponent. -/
def unitsOf (field : Nat) : Nat :=
  if field < leadingOne then field
  else (leadingOne + field % leadingOne) * Nat.pow 2 (field / leadingOne - 1)

/-- The magnitude of a number in units. Infinity counts as `2¹⁰²⁴`. -/
def units (x : Binary64) : Nat := unitsOf x.field

/-- The value of a finite number in units. -/
def signedUnits (x : Binary64) : Int := if x.negative then -x.units else x.units

/-- Below zero; neither zero is, and no NaN is. -/
def isBelowZero (x : Binary64) : Bool := !x.isNaN && x.negative && decide (0 < x.field)

/-- Numerical equality: a NaN equals nothing, and the two zeros are equal. -/
def sameValue (x y : Binary64) : Bool :=
  !x.isNaN && !y.isNaN && (decide (x = y) || (decide (x.field = 0) && decide (y.field = 0)))

end Binary64

end NoiseFile
