/-!
# Bytes

* `zeros` : a stretch of zero bytes;
* `overwrite` : a buffer with its front replaced;
* `overlay` : a content with bytes written over it at an offset.
-/

namespace NoiseFile

def zeros (n : Nat) : ByteArray := ⟨Array.replicate n 0⟩

def overwrite (buffer front : ByteArray) : ByteArray := front ++ buffer.extract front.size buffer.size

/-- The content after writing bytes at an offset; a gap before the offset is filled with zeros. -/
def overlay (content : ByteArray) (offset : Nat) (bytes : ByteArray) : ByteArray :=
  content.extract 0 offset ++ zeros (offset - content.size) ++ bytes ++
    content.extract (offset + bytes.size) content.size

theorem extract_of_size_le {bytes : ByteArray} {n : Nat} (h : bytes.size ≤ n) : bytes.extract 0 n = bytes := by
  apply ByteArray.ext
  rw [ByteArray.data_extract]
  exact Array.extract_eq_self_of_le h

theorem size_zeros (n : Nat) : (zeros n).size = n :=
  Array.size_replicate

theorem size_overlay (content bytes : ByteArray) (offset : Nat) :
    (overlay content offset bytes).size = max content.size (offset + bytes.size) := by
  rw [overlay, ByteArray.size_append, ByteArray.size_append, ByteArray.size_append, ByteArray.size_extract,
    ByteArray.size_extract, size_zeros, Nat.min_self]
  omega

end NoiseFile
