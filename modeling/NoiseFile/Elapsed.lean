import NoiseFile.Binary64.Rounding

/-!
# Elapsed time

* `Instant` : a reading of the clock; `Instant.toBinary64` is the time that a run reckons with;
* `HourSplit` : a number of seconds as hours, minutes and seconds, all of the sign of the whole;
* `hourText` : the same with colons, each part at least two characters wide.
-/

namespace NoiseFile

/-- A reading of the clock: whole seconds since some origin, and nanoseconds on top of them. -/
structure Instant where
  seconds : Int64 := 0
  nanoseconds : UInt32 := 0
  deriving DecidableEq

/-- The time in seconds. The fraction is rounded, and then the sum once more. -/
def Instant.toBinary64 (instant : Instant) : Binary64 :=
  (Binary64.ofInt instant.seconds.toInt).add
    ((Binary64.ofNat instant.nanoseconds.toNat).div (Binary64.ofNat 1000000000))

structure HourSplit where
  hours : Int64
  minutes : Int64
  seconds : Int64
  deriving DecidableEq

/-- The split of a number of seconds; division goes toward zero, so no part has the other sign. -/
def HourSplit.ofSeconds (total : Int64) : HourSplit where
  hours := total / 3600
  minutes := total % 3600 / 60
  seconds := total % 60

/-- At least two characters: a single digit gets a zero in front, and a sign counts as a character. -/
def twoWide (n : Int) : String :=
  if 0 ≤ n ∧ n < 10 then "0" ++ toString n else toString n

def hourText (total : Int64) : String :=
  let split := HourSplit.ofSeconds total
  twoWide split.hours.toInt ++ ":" ++ twoWide split.minutes.toInt ++ ":" ++ twoWide split.seconds.toInt

end NoiseFile
