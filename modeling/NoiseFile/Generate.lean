import NoiseFile.Chunks
import NoiseFile.OutputFile
import NoiseFile.Request
import NoiseFile.Stats

/-!
# Generating a file

* `generate` : writes the file of a request. A size or a chunk size that makes no sense is refused before the file is
  touched;
* `generateAndAnnounce` : the same, and then the notice on the output.
-/

namespace NoiseFile

variable {m : Type → Type} {Handle : Type} [Monad m] [Machine m Handle]

/-- Passes a refused size on as a failure. -/
def accepted {α : Type} : Except SizeFault α → ExceptT Failure m α
  | .ok value => return value
  | .error fault => throw (.size fault)

def generate (request : Request) : ExceptT Failure m Stats := do
  let target ← accepted (byteCount request.size)
  let _ ← accepted (chunkCount target request.chunkSize)
  let start ← (Machine.now : m Instant)
  let file ← OutputFile.create request.outFile
  let chunks ← writeChunks Machine.draw file.append target request.chunkSize
  let written ← file.size
  file.close
  let finish ← (Machine.now : m Instant)
  return {
    targetBytes := target
    bytesWritten := written
    chunksWritten := chunks
    chunkSize := request.chunkSize
    start := start.toBinary64
    finish := finish.toBinary64 }

def generateAndAnnounce (request : Request) : ExceptT Failure m Stats := do
  let stats ← generate request
  match ← (Machine.print (request.notice ++ "\n") : m (Except SystemFault Unit)) with
  | .ok () => return stats
  | .error fault => throw (.output fault)

end NoiseFile
