import NoiseFile.Bytes
import NoiseFile.FileSystem.Tree
import NoiseFile.SystemFault

/-!
# Contents of open files

* `Tree.writeAt`, `Tree.sizeAt`, `Tree.syncAt` : writing, measuring and syncing what an open file refers to.
-/

namespace NoiseFile.FileSystem

namespace Tree

/-- Writes bytes at an offset. Writing no bytes does nothing, on any file. -/
def writeAt (tree : Tree) (place : Place) (offset : Nat) (bytes : ByteArray) : Except SystemFault Tree :=
  if bytes.size = 0 then .ok tree
  else match tree.node? place with
    | some (.file content) => .ok (tree.set place (.file (overlay content offset bytes)))
    | some (.device .full) => .error .storageFull
    | _ => .ok tree

/-- The size that a file reports; a device reports none. -/
def sizeAt (tree : Tree) (place : Place) : Nat :=
  match tree.node? place with
  | some (.file content) => content.size
  | _ => 0

/-- Brings a file to storage, which a device has no way to do. -/
def syncAt (tree : Tree) (place : Place) : Except SystemFault Unit :=
  match tree.node? place with
  | some (.device _) => .error .invalidInput
  | _ => .ok ()

end Tree

end NoiseFile.FileSystem
