import NoiseFile.CommandLine.Run

/-!
# The program

The system at hand as a machine, and the entry point.

* `SystemFault.ofError` : the kind of a failure that the system reports;
* `Written` : a handle with the number of bytes written through it. A file is empty when it is opened and only ever
  written behind its end, so that number is its size.

Syncing cuts a file at its end, which changes nothing and which a device refuses.
-/

namespace NoiseFile

/-- The kind of a failure that the system reports. -/
def SystemFault.ofError : IO.Error → SystemFault
  | .alreadyExists _ code _ | .interrupted _ code _ | .noFileOrDirectory _ code _ | .invalidArgument _ code _
  | .permissionDenied _ code _ | .resourceExhausted _ code _ | .inappropriateType _ code _ | .noSuchThing _ code _
  | .otherError code _ | .resourceBusy code _ | .resourceVanished code _ | .unsupportedOperation code _
  | .hardwareFault code _ | .unsatisfiedConstraints code _ | .illegalOperation code _ | .protocolError code _
  | .timeExpired code _ => .ofErrno code.toNat
  | .unexpectedEof => .unexpectedEof
  | .userError _ => .other

/-- An open file of the system, and the bytes written to it. -/
structure Written where
  file : IO.FS.Handle
  bytes : IO.Ref Nat

def attempt {α : Type} (action : IO α) : IO (Except SystemFault α) := do
  match ← action.toBaseIO with
  | .ok value => return .ok value
  | .error error => return .error (.ofError error)

def systemDraw (n : Nat) : IO (Draw n) := do
  match ← (IO.getRandomBytes n.toUSize).toBaseIO with
  | .ok bytes =>
    if size_eq : bytes.size = n then return .full bytes size_eq
    else return .short .empty (Nat.zero_le n) "too few bytes"
  | .error error => return .short .empty (Nat.zero_le n) (toString error)

instance : Machine IO Written where
  isDirectory path := do
    if path = "" then return false
    match ← attempt (IO.FS.Handle.mk (path ++ "/.") .read) with
    | .ok _ => return true
    | .error _ => return false
  create path := attempt do return { file := ← IO.FS.Handle.mk path .write, bytes := ← IO.mkRef 0 }
  write target bytes := attempt do
    target.file.write bytes
    target.file.flush
    target.bytes.modify (· + bytes.size)
  size target := attempt do return UInt64.ofNat (← target.bytes.get)
  sync target := attempt do
    target.file.flush
    target.file.truncate
  draw := systemDraw
  print text := attempt do
    let output ← IO.getStdout
    output.putStr text
    output.flush
  complain text := discard (attempt (IO.eprint text))
  now := do
    let nanoseconds ← IO.monoNanosNow
    return {
      seconds := Int64.ofNat (nanoseconds / 1000000000)
      nanoseconds := UInt32.ofNat (nanoseconds % 1000000000) }

end NoiseFile

open NoiseFile in
/-- Runs the command line; a run that is broken off has a code of its own. -/
def main (arguments : List String) : IO UInt32 := do
  match ← (CommandLine.run (arguments.map .ofString) : IO CommandLine.Outcome) with
  | .exited code => return code
  | .aborted text =>
    IO.eprintln text
    return 101
