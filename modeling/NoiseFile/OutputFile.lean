import NoiseFile.Machine

/-!
# Output files

* `OutputFile` : an open file together with the path it was opened by, which every failure of it names;
* `OutputFile.create`, `append`, `size`, `close` : its operations.
-/

namespace NoiseFile

structure OutputFile (Handle : Type) where
  handle : Handle
  path : String

namespace OutputFile

variable {m : Type → Type} {Handle : Type} [Monad m] [Machine m Handle]

/-- The outcome of an operation on the file with the given path. -/
def tagged {α : Type} (path : String) (operation : m (Except SystemFault α)) : ExceptT Failure m α :=
  ExceptT.mk ((Except.mapError (Failure.file · path)) <$> operation)

/-- Opens a file for writing, emptied if it exists and made if it does not. -/
def create (path : String) : ExceptT Failure m (OutputFile Handle) := do
  let handle ← tagged path (Machine.create path)
  return { handle, path }

def append (file : OutputFile Handle) (bytes : ByteArray) : ExceptT Failure m Unit :=
  tagged file.path (Machine.write file.handle bytes)

def size (file : OutputFile Handle) : ExceptT Failure m UInt64 :=
  tagged file.path (Machine.size file.handle)

/-- Brings the file to storage, so that a failure to keep what was written shows here. -/
def close (file : OutputFile Handle) : ExceptT Failure m Unit :=
  tagged file.path (Machine.sync file.handle)

end OutputFile

end NoiseFile
