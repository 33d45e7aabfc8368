import NoiseFile.Elapsed
import NoiseFile.Source

/-!
# Machines

* `Machine` : what a run needs of the machine it runs on: files, a random source, two outlets and a clock. A run is
  written once against it, and works on the system at hand as well as on one kept in memory.
-/

namespace NoiseFile

/-- The operations of a machine, whose open files are known by handles. -/
class Machine (m : Type → Type) (Handle : outParam Type) where
  /-- Whether a path leads to a directory. -/
  isDirectory : String → m Bool
  /-- Opens a file for writing, emptied or newly made. -/
  create : String → m (Except SystemFault Handle)
  /-- Writes all the bytes where the last write ended. -/
  write : Handle → ByteArray → m (Except SystemFault Unit)
  size : Handle → m (Except SystemFault UInt64)
  /-- Brings a file to storage. -/
  sync : Handle → m (Except SystemFault Unit)
  /-- Asks the random source for `n` bytes. -/
  draw : (n : Nat) → m (Draw n)
  /-- Writes a text to the output. -/
  print : String → m (Except SystemFault Unit)
  /-- Writes a text to the error output. -/
  complain : String → m Unit
  now : m Instant

end NoiseFile
