import NoiseFile.FileSystem.Path
import NoiseFile.FileSystem.Tree
import NoiseFile.SystemFault

/-!
# Walking a path

* `walkWith` : follows steps from a directory. A link is replaced by the steps of its target, from the link's own
  directory or from the root;
* `walk` : the same with a bound on the links of one walk;
* `resolve` : where a path leads, either to a node or to a free name in an existing directory;
* `Tree.isDirectory` : whether a path leads to a directory;
* `Tree.create` : opens a path for writing from the start, with an empty file put where there is none.
-/

namespace NoiseFile.FileSystem

/-- What a walk is for. Creating refuses a last name with a slash behind it before looking it up. -/
inductive Purpose
  | look
  | create
  deriving DecidableEq

inductive Spot
  | taken (names : List String) (node : Node)
  /-- A free name in an existing directory. -/
  | free (names : List String)

/-- The directory that the walk along a link's target begins in. -/
def startOf (here : List String) (target : String) : List String := if isAbsolute target then [] else here

/-- Follows steps from a directory; `follow` goes on with the target of a link. -/
def walkWith (tree : Tree) (purpose : Purpose)
    (follow : List String → List Step → Except SystemFault Spot) :
    List String → List Step → Except SystemFault Spot
  | here, [] => .ok (.taken here .directory)
  | here, .stay :: rest => walkWith tree purpose follow here rest
  | here, .close :: rest => walkWith tree purpose follow here rest
  | here, .up :: rest => walkWith tree purpose follow here.dropLast rest
  | here, .name name :: rest =>
    if purpose = .create ∧ rest = [.close] then .error .isADirectory
    else if longestName < name.utf8ByteSize then .error .invalidFilename
    else match tree.node? (.named (here ++ [name])) with
      | none => if rest = [] then .ok (.free (here ++ [name])) else .error .notFound
      | some .directory => walkWith tree purpose follow (here ++ [name]) rest
      | some (.link target) => follow (startOf here target) (stepsOf target ++ rest)
      | some node => if rest = [] then .ok (.taken (here ++ [name]) node) else .error .notADirectory

def walk (tree : Tree) (purpose : Purpose) : Nat → List String → List Step → Except SystemFault Spot
  | 0 => walkWith tree purpose fun _ _ => .error .filesystemLoop
  | links + 1 => walkWith tree purpose (walk tree purpose links)

/-- The links that one walk may go through. -/
def mostLinks : Nat := 40

def resolve (tree : Tree) (home : List String) (purpose : Purpose) (path : String) : Except SystemFault Spot :=
  if '\x00' ∈ path.toList then .error .invalidInput
  else if longestPath < path.utf8ByteSize then .error .invalidFilename
  else if path = "" then .error .notFound
  else walk tree purpose mostLinks (if isAbsolute path then [] else home) (stepsOf path)

namespace Tree

/-- Whether a path leads to a directory; a path that leads nowhere does not. -/
def isDirectory (tree : Tree) (home : List String) (path : String) : Bool :=
  match resolve tree home .look path with
  | .ok (.taken _ .directory) => true
  | _ => false

/-- Opens a path for writing: a file is emptied, a free name gets an empty file, a device is left as it is. -/
def create (tree : Tree) (home : List String) (path : String) : Except SystemFault (Tree × Place) :=
  match resolve tree home .create path with
  | .error fault => .error fault
  | .ok (.free names) => .ok (tree.set (.named names) (.file .empty), .named names)
  | .ok (.taken names (.file _)) => .ok (tree.set (.named names) (.file .empty), .named names)
  | .ok (.taken _ .directory) => .error .isADirectory
  | .ok (.taken names _) => .ok (tree, .named names)

end Tree

end NoiseFile.FileSystem
