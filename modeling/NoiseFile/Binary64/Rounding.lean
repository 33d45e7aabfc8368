import NoiseFile.Binary64.Basic

/-!
# Rounding to binary64

* `roundHalfEven` : a quotient of natural numbers to the nearest one;
* `nearestField` : the field nearest to a quotient of units. Consecutive fields are one unit apart below `2⁵³` units
  and `2ᵏ` apart in the `k`-th binade above, where the field is `k · 2⁵²` more than the magnitude in steps of `2ᵏ`; so
  rounding in steps and adding `k · 2⁵²` also carries over into the next binade, and past the last one into infinity;
* `mul`, `div`, `add`, `sub` : the exact result, rounded;
* `wholePart`, `toInt64` : a number without its fraction.
-/

namespace NoiseFile

/-- `num / den` to the nearest natural number, a half going to the even neighbour. -/
def roundHalfEven (num den : Nat) : Nat :=
  if 2 * (num % den) < den then num / den
  else if den < 2 * (num % den) then num / den + 1
  else num / den + num / den % 2

namespace Binary64

/-- How many doublings lie between a unit and the step between the fields around `num / den`. -/
def binade (num den : Nat) : Nat := Nat.log2 (num / den) - 52

/-- The field of the binary64 number nearest to `num / den` units, ties to even; infinity when none is as large. -/
def nearestField (num den : Nat) : Nat :=
  min (binade num den * leadingOne + roundHalfEven num (den * Nat.pow 2 (binade num den))) infinityField

/-- The number nearest to `num / den` units, with the given sign. -/
def ofRatio (negative : Bool) (num den : Nat) : Binary64 := ofField negative (nearestField num den)

def ofNat (n : Nat) : Binary64 := ofRatio false (n * unitsPerOne) 1

def ofInt (n : Int) : Binary64 := ofRatio (decide (n < 0)) (n.natAbs * unitsPerOne) 1

/-! ## Arithmetic on finite numbers -/

def neg (x : Binary64) : Binary64 := ofField (!x.negative) x.field

def mul (x y : Binary64) : Binary64 :=
  ofRatio (x.negative != y.negative) (x.units * y.units) unitsPerOne

/-- The quotient by a number other than zero. -/
def div (x y : Binary64) : Binary64 :=
  ofRatio (x.negative != y.negative) (x.units * unitsPerOne) y.units

/-- The sum; a sum of zero is negative only if both terms are. -/
def add (x y : Binary64) : Binary64 :=
  let sum := x.signedUnits + y.signedUnits
  ofRatio (decide (sum < 0) || (decide (sum = 0) && x.negative && y.negative)) sum.natAbs 1

def sub (x y : Binary64) : Binary64 := x.add y.neg

/-- The order of finite numbers. -/
def isLess (x y : Binary64) : Bool := decide (x.signedUnits < y.signedUnits)

def wholePart (x : Binary64) : Nat := x.units / unitsPerOne

/-- The number without its fraction, or the end of the range that it lies beyond; zero for a NaN. -/
def toInt64 (x : Binary64) : Int64 :=
  if x.isNaN then 0 else Int64.ofIntClamp (if x.negative then -x.wholePart else x.wholePart)

end Binary64

end NoiseFile
