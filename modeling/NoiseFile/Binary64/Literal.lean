import NoiseFile.Binary64.Rounding

/-!
# Numbers written in decimal

* `Literal` : what a text can denote: a NaN, an infinity, or a decimal number `digits · 10 ^ scale`;
* `Literal.parse?` : an optional sign, then one of the words `inf`, `infinity`, `nan` in any letter case, or digits
  with at most one point among or around them and an optional exponent;
* `Literal.toBinary64` : the nearest binary64 number.
-/

namespace NoiseFile

inductive Literal
  | nan
  | infinity (negative : Bool)
  /-- `digits · 10 ^ scale`, or its negative. -/
  | decimal (negative : Bool) (digits : Nat) (scale : Int)
  deriving DecidableEq

namespace Literal

/-! ## Reading -/

def digitValue (c : Char) : Nat := c.toNat - '0'.toNat

def digitsValue (ds : List Char) : Nat := ds.foldl (fun n d => 10 * n + digitValue d) 0

/-- The written exponent. It stops growing once it has reached `2¹⁶`, far beyond every exponent that matters. -/
def exponentValue (ds : List Char) : Nat :=
  ds.foldl (fun n d => if n < 65536 then 10 * n + digitValue d else n) 0

def splitSign : List Char → Bool × List Char
  | '-' :: cs => (true, cs)
  | '+' :: cs => (false, cs)
  | cs => (false, cs)

def splitFraction : List Char → List Char × List Char
  | '.' :: cs => (cs.takeWhile Char.isDigit, cs.dropWhile Char.isDigit)
  | cs => ([], cs)

/-- The exponent that ends a number: nothing, or `e`, an optional sign and digits. -/
def exponent? : List Char → Option Int
  | [] => some 0
  | c :: cs =>
    let (negative, ds) := splitSign cs
    if c.toLower = 'e' ∧ ds ≠ [] ∧ ds.all Char.isDigit then
      some (if negative then -exponentValue ds else exponentValue ds)
    else none

def decimal? (negative : Bool) (cs : List Char) : Option Literal :=
  let whole := cs.takeWhile Char.isDigit
  let (fraction, tail) := splitFraction (cs.dropWhile Char.isDigit)
  if whole ++ fraction = [] then none
  else (exponent? tail).map fun e => .decimal negative (digitsValue (whole ++ fraction)) (e - fraction.length)

def parse? (text : List Char) : Option Literal :=
  let (negative, cs) := splitSign text
  let word := cs.map Char.toLower
  if word = ['i', 'n', 'f'] ∨ word = ['i', 'n', 'f', 'i', 'n', 'i', 't', 'y'] then some (.infinity negative)
  else if word = ['n', 'a', 'n'] then some .nan
  else decimal? negative cs

/-! ## Value -/

def toBinary64 : Literal → Binary64
  | .nan => .nan
  | .infinity negative => .infinity negative
  | .decimal negative digits (.ofNat scale) =>
    .ofRatio negative (digits * Nat.pow 10 scale * Binary64.unitsPerOne) 1
  | .decimal negative digits (.negSucc scale) =>
    .ofRatio negative (digits * Binary64.unitsPerOne) (Nat.pow 10 (scale + 1))

end Literal

end NoiseFile
