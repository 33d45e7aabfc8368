import NoiseFile.Binary64.Literal
import NoiseFile.Text.Blank

/-!
# Sizes

A size is a binary64 number of GiB.

* `SizeFault` : why a size or a chunk size is refused, with its `message`;
* `checkSize` : a size is finite and not below zero;
* `parseSize` : the size that a text denotes;
* `byteCount` : the size in bytes, a fraction of a byte dropped.
-/

namespace NoiseFile

inductive SizeFault
  | notANumber
  | notFinite
  | negative
  | tooLarge
  | zeroChunkSize
  deriving DecidableEq

def SizeFault.message : SizeFault → String
  | .notANumber => "size is not a number"
  | .notFinite => "size must be a finite number"
  | .negative => "size must not be negative"
  | .tooLarge => "size exceeds the largest representable byte count"
  | .zeroChunkSize => "chunk size must be greater than zero"

def gib : Nat := 1073741824

/-- The first byte count that does not fit in 64 bits. -/
def byteLimit : Nat := 0x10000000000000000

/-- A size is finite and not below zero. -/
def checkSize (size : Binary64) : Except SizeFault Unit :=
  if !size.isFinite then .error .notFinite
  else if size.isBelowZero then .error .negative
  else .ok ()

/-- The size that a text denotes, blanks around it aside. -/
def parseSize (text : String) : Except SizeFault Binary64 :=
  match Literal.parse? (Text.trimChars text.toList) with
  | none => .error .notANumber
  | some literal => (checkSize literal.toBinary64).map fun _ => literal.toBinary64

/-- The bytes of a size, rounded down. -/
def byteCount (size : Binary64) : Except SizeFault UInt64 :=
  match checkSize size with
  | .error fault => .error fault
  | .ok () =>
    let bytes := (size.mul (.ofNat gib)).wholePart
    if byteLimit ≤ bytes then .error .tooLarge else .ok (UInt64.ofNat bytes)

end NoiseFile
