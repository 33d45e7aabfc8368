import NoiseFile.Size
import NoiseFile.SystemFault

/-!
# Failures

* `Failure` : why a run fails: a file, the random source, the size, the output, a remark of its own,
  or a chunk too long to be held;
* `Failure.message` : the line shown for it;
* `Failure.isInvalidArgument` : whether the caller asked for something impossible.
-/

namespace NoiseFile

inductive Failure
  /-- An operation on the file with the given path failed. -/
  | file (fault : SystemFault) (path : String)
  | random (reason : String)
  | size (fault : SizeFault)
  /-- The output refused the notice. -/
  | output (fault : SystemFault)
  | remark (text : String)
  /-- A chunk is longer than any buffer; nobody can report this, and the run is broken off. -/
  | noBuffer
  deriving DecidableEq

/-- What a fault means for a file; where nothing more apt is known, its general description. -/
def SystemFault.forFile : SystemFault → String
  | .notFound => "not found (missing directory?)"
  | .permissionDenied => "permission denied"
  | .alreadyExists => "already exists"
  | .invalidInput => "invalid path"
  | .timedOut => "operation timed out"
  | .writeZero => "failed write"
  | .interrupted => "operation interrupted"
  | .unexpectedEof => "unexpected EOF"
  | .other => "unknown error"
  | fault => fault.description

def SystemFault.forOutput : SystemFault → String
  | .brokenPipe => "closed"
  | .interrupted => "operation interrupted"
  | fault => fault.description

namespace Failure

def message : Failure → String
  | .file fault path => "File error : file \"" ++ path ++ "\" " ++ fault.forFile
  | .random reason => "Random error : random source failed : " ++ reason
  | .size fault => "Invalid size : " ++ fault.message
  | .output fault => "Output error : stdout " ++ fault.forOutput
  | .remark text => text
  | .noBuffer => "capacity overflow"

def isInvalidArgument : Failure → Bool
  | .size _ => true
  | _ => false

end Failure

end NoiseFile
