/-!
# File trees

* `Node` : a directory, a file with its content, a link with the path it stands for, or a device;
* `Place` : where a node is kept: under the names that lead to it from the root, or under a number once its name has
  been removed while it was still open;
* `Tree` : the nodes by place, with `node?`, `set`, `remove`;
* `Tree.listing` : what stands below a directory, in order.
-/

namespace NoiseFile.FileSystem

/-- A special file that is not stored. -/
inductive Device
  /-- Accepts and drops every byte. -/
  | null
  /-- Refuses every byte for want of space. -/
  | full
  deriving DecidableEq

inductive Node
  | directory
  | file (content : ByteArray)
  | link (target : String)
  | device (device : Device)

inductive Place
  | named (names : List String)
  /-- A file without a name. -/
  | nameless (serial : Nat)
  deriving DecidableEq

structure Tree where
  entries : List (Place × Node)

namespace Tree

/-- The node at a place. The root is always there. -/
def node? (tree : Tree) (place : Place) : Option Node :=
  if place = .named [] then some .directory else tree.entries.lookup place

def set (tree : Tree) (place : Place) (node : Node) : Tree :=
  ⟨(place, node) :: tree.entries.filter fun entry => entry.1 != place⟩

def remove (tree : Tree) (place : Place) : Tree := ⟨tree.entries.filter fun entry => entry.1 != place⟩

theorem node?_root (tree : Tree) : tree.node? (.named []) = some .directory := by
  simp [node?]

theorem lookup_filter_ne {place other : Place} (h : other ≠ place) (entries : List (Place × Node)) :
    (entries.filter fun entry => entry.1 != place).lookup other = entries.lookup other := by
  induction entries with
  | nil => rfl
  | cons entry entries ih =>
    obtain ⟨key, node⟩ := entry
    by_cases hkey : key = place
    · subst hkey
      rw [List.filter_cons_of_neg (by simp), ih, List.lookup_cons, beq_false_of_ne h]
    · rw [List.filter_cons_of_pos (by simpa using hkey), List.lookup_cons, List.lookup_cons, ih]

theorem lookup_filter_self (entries : List (Place × Node)) (place : Place) :
    (entries.filter fun entry => entry.1 != place).lookup place = none := by
  induction entries with
  | nil => rfl
  | cons entry entries ih =>
    obtain ⟨key, node⟩ := entry
    by_cases hkey : key = place
    · rw [List.filter_cons_of_neg (by simpa using hkey), ih]
    · rw [List.filter_cons_of_pos (by simpa using hkey), List.lookup_cons, beq_false_of_ne (Ne.symm hkey)]
      exact ih

theorem node?_set_self {place : Place} (h : place ≠ .named []) (tree : Tree) (node : Node) :
    (tree.set place node).node? place = some node := by
  rw [node?, if_neg h, set, List.lookup_cons_self]

theorem node?_set_of_ne {place other : Place} (h : other ≠ place) (tree : Tree) (node : Node) :
    (tree.set place node).node? other = tree.node? other := by
  rw [node?, node?, set, List.lookup_cons, beq_false_of_ne h, lookup_filter_ne h]

theorem node?_remove_self {place : Place} (h : place ≠ .named []) (tree : Tree) :
    (tree.remove place).node? place = none := by
  rw [node?, if_neg h, remove, lookup_filter_self]

theorem node?_remove_of_ne {place other : Place} (h : other ≠ place) (tree : Tree) :
    (tree.remove place).node? other = tree.node? other := by
  rw [node?, node?, remove, lookup_filter_ne h]

/-- A number under which nothing is kept yet. -/
def freshSerial (tree : Tree) : Nat :=
  tree.entries.foldl (fun fresh entry => match entry.1 with
    | .nameless serial => max fresh (serial + 1)
    | .named _ => fresh) 0

/-! ## Listing -/

/-- The place of a name in the order of names: its characters in turn, which is also the order of its bytes. -/
def nameKey (name : String) : List Nat := name.toList.map Char.toNat

/-- Whether the names of a place come before those of another; a directory comes before what it holds. -/
def comesBefore (a b : List String) : Bool :=
  List.lex (a.map nameKey) (b.map nameKey) fun x y => List.lex x y fun m n => decide (m < n)

/-- The names that lead from a directory to a place below it. -/
def below? (directory : List String) : Place → Option (List String)
  | .named names =>
    if directory.isPrefixOf names && decide (directory.length < names.length) then
      some (names.drop directory.length)
    else none
  | .nameless _ => none

/-- Everything below a directory: a directory before its content, and names in the order of their bytes. -/
def listing (tree : Tree) (directory : List String) : List (List String × Node) :=
  (tree.entries.filterMap fun (place, node) => (below? directory place).map (·, node)).mergeSort
    fun a b => !comesBefore b.1 a.1

end Tree

end NoiseFile.FileSystem
