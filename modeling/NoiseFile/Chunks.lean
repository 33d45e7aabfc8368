import NoiseFile.Buffer
import NoiseFile.Layout
import NoiseFile.Source

/-!
# Writing random chunks

* `drawFront` : fills the front of a buffer from a source;
* `writeFrom` : draws and hands over chunk after chunk through one buffer, up to the first failure;
* `writeChunks` : cuts a target into chunks and writes them all, for any source and any writer. A layout that makes no
  sense, or whose chunks no buffer can hold, is refused before anything is drawn.
-/

namespace NoiseFile

variable {m : Type → Type} [Monad m]

def drawFront (draw : (n : Nat) → m (Draw n)) (buffer : Buffer) (n : Nat) : ExceptT Failure m Buffer := do
  if buffer.capacity < n then throw .noBuffer
  let drawn ← draw n
  match drawn.outcome with
  | .ok () => return buffer.fill drawn.bytes
  | .error failure => throw failure

/-- Writes the last `left` chunks of a layout, each in one piece. -/
def writeFrom (draw : (n : Nat) → m (Draw n)) (write : ByteArray → ExceptT Failure m Unit) (layout : Layout) :
    Nat → Buffer → ExceptT Failure m Unit
  | 0, _ => return ()
  | left + 1, buffer => do
    let filled ← drawFront draw buffer (layout.chunkSize left)
    write (filled.front (layout.chunkSize left))
    writeFrom draw write layout left filled

/-- Writes a target of random bytes in chunks, and gives the number of chunks. -/
def writeChunks (draw : (n : Nat) → m (Draw n)) (write : ByteArray → ExceptT Failure m Unit)
    (target chunk : UInt64) : ExceptT Failure m UInt64 := do
  match Layout.plan target chunk with
  | .error fault => throw (.size fault)
  | .ok layout =>
    match Buffer.reserve? layout.bufferSize with
    | none => throw .noBuffer
    | some buffer =>
      writeFrom draw write layout layout.count.toNat buffer
      return layout.count

end NoiseFile
