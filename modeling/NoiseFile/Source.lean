import NoiseFile.Bytes
import NoiseFile.Failure

/-!
# Random sources

* `Draw n` : what a source gives when it is asked for `n` bytes: all of them, or the bytes dealt before it failed;
* `Draw.into` : a draw put into the front of a buffer;
* `Source` : a source as its callers see it: the stream of bytes that it deals out, and the calls that it cuts short;
* `Source.deal` : one call, from a `Cursor` that counts calls and bytes.
-/

namespace NoiseFile

/-- What a source gives when it is asked for `n` bytes. -/
inductive Draw (n : Nat)
  | full (bytes : ByteArray) (size_eq : bytes.size = n)
  /-- The source failed after dealing some of the bytes. -/
  | short (bytes : ByteArray) (size_le : bytes.size ≤ n) (reason : String)

namespace Draw

def bytes {n : Nat} : Draw n → ByteArray
  | .full bytes _ => bytes
  | .short bytes _ _ => bytes

theorem size_bytes_le {n : Nat} : (draw : Draw n) → draw.bytes.size ≤ n
  | .full _ size_eq => Nat.le_of_eq size_eq
  | .short _ size_le _ => size_le

def outcome {n : Nat} : Draw n → Except Failure Unit
  | .full _ _ => .ok ()
  | .short _ _ reason => .error (.random reason)

/-- The buffer after a draw: whatever was dealt stands in its front. -/
def into {n : Nat} (draw : Draw n) (buffer : ByteArray) : ByteArray := overwrite buffer draw.bytes

end Draw

/-! ## Sources that deal out a stream -/

/-- A call that fails after dealing at most `after` bytes. -/
structure Cut where
  after : Nat
  reason : String

/-- A stream of bytes, and the calls that fail. -/
structure Source where
  byteAt : Nat → UInt8
  /-- The cut of a call, by the number of calls before it. -/
  cut : Nat → Option Cut

/-- How far a source has been used: the calls made and the bytes dealt out. -/
structure Cursor where
  calls : Nat := 0
  position : Nat := 0
  deriving DecidableEq

namespace Source

/-- The `n` bytes of the stream from a position on. -/
def slice (source : Source) (position n : Nat) : ByteArray :=
  ⟨Array.ofFn fun i : Fin n => source.byteAt (position + i)⟩

theorem size_slice (source : Source) (position n : Nat) : (source.slice position n).size = n := by
  simp [slice, ByteArray.size]

theorem slice_append (source : Source) (position m n : Nat) :
    source.slice position m ++ source.slice (position + m) n = source.slice position (m + n) := by
  apply ByteArray.ext
  apply Array.ext
  · simp [slice]
  · intro i hi hi'
    simp only [slice, ByteArray.data_append, Array.getElem_append, Array.getElem_ofFn, Array.size_ofFn]
    split
    · rfl
    · exact congrArg source.byteAt (by omega)

def deal (source : Source) (cursor : Cursor) (n : Nat) : Draw n × Cursor :=
  match source.cut cursor.calls with
  | none =>
    (.full (source.slice cursor.position n) (source.size_slice _ _),
      { calls := cursor.calls + 1, position := cursor.position + n })
  | some cut =>
    (.short (source.slice cursor.position (min cut.after n))
        (source.size_slice _ _ ▸ Nat.min_le_right cut.after n) cut.reason,
      { calls := cursor.calls + 1, position := cursor.position + min cut.after n })

end Source

end NoiseFile
