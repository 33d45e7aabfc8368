import NoiseFile.FileSystem.Walk

/-!
# Directory entries

* `makeDirectories` : makes the directories of a path that are missing;
* `makeLink`, `entryOf` : a link under a path, and the place that a path names without following a last link;
* `read?` : the content that a path leads to.
-/

namespace NoiseFile.FileSystem.Tree

/-- Goes along steps from a directory and makes each directory that is missing. -/
def makeDirectoriesFrom (tree : Tree) : List String → List Step → Except SystemFault Tree
  | _, [] => .ok tree
  | here, step :: rest =>
    match walk tree .look mostLinks here [step] with
    | .error fault => .error fault
    | .ok (.free names) => makeDirectoriesFrom (tree.set (.named names) .directory) names rest
    | .ok (.taken names .directory) => makeDirectoriesFrom tree names rest
    | .ok (.taken _ _) => .error .notADirectory

def makeDirectories (tree : Tree) (home : List String) (path : String) : Except SystemFault Tree :=
  makeDirectoriesFrom tree (if isAbsolute path then [] else home) (stepsOf path)

/-- The place that a path names, a link at its end not being followed. -/
def entryOf (tree : Tree) (home : List String) (path : String) : Except SystemFault (List String) :=
  let steps := stepsOf path
  match steps.getLast? with
  | some (.name name) =>
    match walk tree .look mostLinks (if isAbsolute path then [] else home) steps.dropLast with
    | .ok (.taken names .directory) => .ok (names ++ [name])
    | .ok (.taken _ _) => .error .notADirectory
    | .ok (.free _) => .error .notFound
    | .error fault => .error fault
  | _ => .error .isADirectory

def makeLink (tree : Tree) (home : List String) (path target : String) : Except SystemFault Tree :=
  match tree.entryOf home path with
  | .error fault => .error fault
  | .ok names =>
    match tree.node? (.named names) with
    | some _ => .error .alreadyExists
    | none => .ok (tree.set (.named names) (.link target))

/-- The content that a path leads to, if it can be read whole. -/
def read? (tree : Tree) (home : List String) (path : String) : Option ByteArray :=
  match resolve tree home .look path with
  | .ok (.taken _ (.file content)) => some content
  | .ok (.taken _ (.device .null)) => some .empty
  | _ => none

end NoiseFile.FileSystem.Tree
