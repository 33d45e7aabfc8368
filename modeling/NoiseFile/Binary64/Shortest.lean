import NoiseFile.Binary64.Rounding

/-!
# The shortest decimal that reads back

A magnitude is a whole number of `10⁻¹⁰⁷⁴`, since `2⁻¹⁰⁷⁴ = 5¹⁰⁷⁴ · 10⁻¹⁰⁷⁴`. So all decimals that matter are points
`n · 10ᵖ` on grids of natural numbers, counted in `10⁻¹⁰⁷⁴`, and the magnitude itself is a point of the grid `p = 0`.

* `shortestFrom` : goes from a coarse grid to finer ones and takes the first point that reads back. Of the points of
  one grid only the two neighbours of the magnitude need a look; the nearer one wins, and the upper one a tie;
* `plain` : writes `digits · 10ᵖ` without an exponent;
* `text` : the text of a number.
-/

namespace NoiseFile.Binary64

/-! ## Search -/

/-- The places behind the point that an exact magnitude can need. -/
def places : Nat := 1074

/-- The power of ten of the coarsest grid that can hold a finite magnitude: `10³⁰⁸`. -/
def topPower : Nat := 308 + places

/-- The magnitude of a field, counted in `10⁻¹⁰⁷⁴`. -/
def decimalUnits (field : Nat) : Nat := unitsOf field * Nat.pow 5 places

/-- The field nearest to `n · 10ᵖ`, counted in `10⁻¹⁰⁷⁴`. -/
def fieldOfPoint (n p : Nat) : Nat := nearestField (n * Nat.pow 10 p) (Nat.pow 5 places)

/-- Whether the point `n · 10ᵖ` reads back as the field. -/
def readsBack (field p n : Nat) : Bool := decide (fieldOfPoint n p = field)

/-- Of two neighbours, `low` and the next, the one that reads back; if both do, the nearer one. -/
def neighbour? (reads : Nat → Bool) (low : Nat) (lowIsNearer : Bool) : Option Nat :=
  match reads low, reads (low + 1) with
  | true, true => some (if lowIsNearer then low else low + 1)
  | true, false => some low
  | false, true => some (low + 1)
  | false, false => none

/-- The point of the grid of `10ᵖ` that reads back as the field and is nearest to it, if there is one. -/
def pointOn? (field p : Nat) : Option Nat :=
  let low := decimalUnits field / Nat.pow 10 p
  let rest := decimalUnits field % Nat.pow 10 p
  neighbour? (readsBack field p) low (decide (2 * rest < Nat.pow 10 p))

/-- The first point that `point?` has on the grids from `10ᵖ` down, with the power of ten of its grid. The finest grid,
of `10⁰`, has the point `finest`. -/
def firstFrom (point? : Nat → Option Nat) (finest : Nat) : Nat → Nat × Nat
  | 0 => (finest, 0)
  | p + 1 => match point? (p + 1) with
    | some n => (n, p + 1)
    | none => firstFrom point? finest p

/-- The first point that reads back, on the grids from `10ᵖ` down, with the power of ten of its grid. -/
def shortestFrom (field p : Nat) : Nat × Nat := firstFrom (pointOn? field) (decimalUnits field) p

/-! ## Text -/

/-- Writes `n · 10ᵖ`, counted in `10⁻¹⁰⁷⁴`, in digits and at most one point. -/
def plain (n p : Nat) : List Char :=
  let digits := Nat.toDigits 10 n
  if places ≤ p then digits ++ List.replicate (p - places) '0'
  else
    let behind := places - p
    let padded := List.replicate (behind + 1 - digits.length) '0' ++ digits
    padded.take (padded.length - behind) ++ '.' :: padded.drop (padded.length - behind)

/-- The text of a finite magnitude; zero has one digit. -/
def magnitudeText (field : Nat) : List Char :=
  if field = 0 then ['0']
  else
    let point := shortestFrom field topPower
    plain point.1 point.2

/-- The text of a number: the fewest digits that read back, never with an exponent. -/
def text (x : Binary64) : String :=
  if x.isNaN then "NaN"
  else
    let sign := if x.negative then ['-'] else []
    String.ofList (sign ++ if x.isFinite then magnitudeText x.field else ['i', 'n', 'f'])

end NoiseFile.Binary64
