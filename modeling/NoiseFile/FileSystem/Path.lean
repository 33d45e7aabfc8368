/-!
# Paths

* `segments` : a text cut at its slashes;
* `Step` : one step of a walk; `stepsOf` gives the steps of a path, a final slash being a step of its own;
* `isAbsolute` : whether a walk begins at the root;
* `longestName`, `longestPath` : how long a name and a path can be.
-/

namespace NoiseFile.FileSystem

/-- The parts of a text between its slashes; there is always at least one. -/
def segments : List Char → List (List Char)
  | [] => [[]]
  | c :: cs =>
    if c = '/' then [] :: segments cs
    else match segments cs with
      | [] => [[c]]
      | part :: parts => (c :: part) :: parts

inductive Step
  | name (name : String)
  /-- `.`: stay in the directory. -/
  | stay
  /-- `..`: go to its parent. -/
  | up
  /-- A slash at the end: what stands before it must be a directory. -/
  | close
  deriving DecidableEq

/-- The step of a part of a path; an empty part is none. -/
def Step.ofSegment? (part : List Char) : Option Step :=
  if part = [] then none
  else if part = ['.'] then some .stay
  else if part = ['.', '.'] then some .up
  else some (.name (String.ofList part))

def stepsOf (path : String) : List Step :=
  (segments path.toList).filterMap Step.ofSegment? ++ if path.toList.getLast? = some '/' then [.close] else []

def isAbsolute (path : String) : Bool := path.toList.head? = some '/'

/-- The longest name of a directory entry, in bytes. -/
def longestName : Nat := 255

/-- The longest path that can be walked, in bytes. -/
def longestPath : Nat := 4095

end NoiseFile.FileSystem
