import NoiseFile.Size

/-!
# Chunk layout

A target of bytes is cut into chunks of one size and a last chunk with the remainder.

* `chunkCount`, `lastChunk` : how many chunks there are, and the size of the last one;
* `Layout` : both together; `chunkSize` gives the size of a chunk by how many chunks follow it;
* `bufferSize` : room for any one chunk.
-/

namespace NoiseFile

def chunkCount (target chunk : UInt64) : Except SizeFault UInt64 :=
  if chunk = 0 then .error .zeroChunkSize
  else .ok (target / chunk + if target % chunk = 0 then 0 else 1)

/-- The size of the last chunk, which takes whatever the full chunks leave over. -/
def lastChunk (target chunk : UInt64) : Except SizeFault UInt64 :=
  if chunk = 0 then .error .zeroChunkSize
  else if target = 0 then .ok 0
  else if target % chunk = 0 then .ok chunk
  else .ok (target % chunk)

structure Layout where
  target : UInt64
  chunk : UInt64
  count : UInt64
  last : UInt64

namespace Layout

def plan (target chunk : UInt64) : Except SizeFault Layout := do
  let count ← chunkCount target chunk
  let last ← lastChunk target chunk
  return { target, chunk, count, last }

/-- The size of the chunk that has `after` more chunks behind it. -/
def chunkSize (layout : Layout) (after : Nat) : Nat :=
  if after = 0 then layout.last.toNat else layout.chunk.toNat

/-- Room for the largest chunk of the layout. -/
def bufferSize (layout : Layout) : Nat := min layout.chunk.toNat layout.target.toNat

end Layout

end NoiseFile
