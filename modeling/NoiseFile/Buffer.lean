import NoiseFile.Bytes

/-!
# Buffers

* `Buffer` : a fixed room for bytes that is filled from its front over and over. What has been filled at some time is
  kept; every byte behind that is still zero;
* `Buffer.reserve?` : a fresh buffer, if one can be that large;
* `Buffer.fill`, `Buffer.front` : writing over the front, and reading it (`front_fill`).
-/

namespace NoiseFile

def largestBuffer : Nat := 0x7FFFFFFFFFFFFFFF

structure Buffer where
  capacity : Nat
  /-- The front that has been filled at some time. -/
  filled : ByteArray := .empty

namespace Buffer

def reserve? (capacity : Nat) : Option Buffer := if capacity ≤ largestBuffer then some { capacity } else none

/-- Writes bytes over the front. -/
def fill (buffer : Buffer) (bytes : ByteArray) : Buffer := { buffer with filled := overwrite buffer.filled bytes }

def front (buffer : Buffer) (n : Nat) : ByteArray := buffer.filled.extract 0 n ++ zeros (n - buffer.filled.size)

theorem front_fill (buffer : Buffer) (bytes : ByteArray) : (buffer.fill bytes).front bytes.size = bytes := by
  have hzeros : bytes.size - (overwrite buffer.filled bytes).size = 0 := by
    rw [overwrite, ByteArray.size_append]
    omega
  rw [front, fill, hzeros, overwrite, ByteArray.extract_append_eq_left rfl]
  exact ByteArray.append_empty

end Buffer

end NoiseFile
