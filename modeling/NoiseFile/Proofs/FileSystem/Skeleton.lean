import NoiseFile.Proofs.FileSystem.Walk

/-!
# Walks in trees that differ in files only

* `Tree.SameSkeleton` : trees with the same directories, links and devices, whatever files they hold;
* `ending` : where a walk ends, with no regard to why it fails nor to whether the file at its end is there yet;
* `ending_walk` : in trees of one skeleton all walks end in the same way;
* `Tree.end?` : how opening a path for writing ends (`end?_of_create`), the same in all trees of one skeleton.
-/

namespace NoiseFile.FileSystem

/-! ## Skeletons -/

/-- A node, unless it is a file. -/
def Node.bone? : Option Node → Option Node
  | some (.file _) => none
  | node => node

/-- Trees with the same directories, links and devices. -/
def Tree.SameSkeleton (tree other : Tree) : Prop :=
  ∀ place, Node.bone? (other.node? place) = Node.bone? (tree.node? place)

/-- No node, or a file. -/
def Node.Loose (node : Option Node) : Prop := node = none ∨ ∃ content, node = some (.file content)

theorem Node.bone?_eq_none_iff (node : Option Node) : bone? node = none ↔ Loose node := by
  rcases node with _ | _ | content | target | device <;> simp [bone?, Loose]

theorem Node.bone?_of_ne_file {node : Node} (h : ∀ content, node ≠ .file content) : bone? (some node) = some node := by
  cases node with
  | file content => exact absurd rfl (h content)
  | _ => rfl

theorem Node.eq_some_of_bone? {node : Option Node} {bone : Node} (h : bone? node = some bone) :
    node = some bone ∧ ∀ content, bone ≠ .file content := by
  rcases node with _ | _ | content | target | device <;> simp_all [bone?] <;> simp [← h]

namespace Tree

theorem SameSkeleton.refl (tree : Tree) : tree.SameSkeleton tree := fun _ => rfl

theorem SameSkeleton.trans {first second third : Tree} (h : first.SameSkeleton second) (h' : second.SameSkeleton third) :
    first.SameSkeleton third := fun place => (h' place).trans (h place)

theorem ne_root_of_loose {tree : Tree} {place : Place} (h : Node.Loose (tree.node? place)) : place ≠ .named [] := by
  rintro rfl
  rw [node?_root] at h
  rcases h with h | ⟨_, h⟩ <;> cases h

theorem sameSkeleton_set {tree : Tree} {place : Place} (h : Node.Loose (tree.node? place)) (content : ByteArray) :
    tree.SameSkeleton (tree.set place (.file content)) := by
  intro other
  by_cases hother : other = place
  · subst hother
    have hplace : other ≠ .named [] := by
      rintro rfl
      rw [node?_root] at h
      rcases h with h | ⟨_, h⟩ <;> cases h
    rw [node?_set_self hplace, (Node.bone?_eq_none_iff _).mpr h]
    rfl
  · rw [node?_set_of_ne hother]

/-- What is no file is kept in trees of one skeleton. -/
theorem SameSkeleton.node?_iff {tree other : Tree} (h : tree.SameSkeleton other) {place : Place} {node : Node}
    (hnode : ∀ content, node ≠ .file content) : other.node? place = some node ↔ tree.node? place = some node := by
  have hiff : ∀ current : Option Node, Node.bone? current = some node ↔ current = some node := by
    intro current
    constructor
    · intro hbone
      exact (Node.eq_some_of_bone? hbone).1
    · rintro rfl
      exact Node.bone?_of_ne_file hnode
  rw [← hiff (other.node? place), ← hiff (tree.node? place), h place]

theorem set_set (tree : Tree) (place : Place) (node other : Node) :
    (tree.set place node).set place other = tree.set place other := by
  simp [set]

end Tree

/-! ## Walks -/

/-- A spot, with the file that may be there taken away. -/
def Spot.vacated : Spot → Spot
  | .taken names (.file _) => .free names
  | spot => spot

/-- Where a walk ends, with no regard to why it fails nor to whether the file at its end is there yet. -/
def ending (result : Except SystemFault Spot) : Option Spot := result.toOption.map Spot.vacated

section Walk
variable {tree other : Tree} {purpose : Purpose}
  {follow follow' : List String → List Step → Except SystemFault Spot}

/-- A name under which there is at most a file is the end of its path or of nothing. -/
theorem ending_loose {here : List String} {name : String} {rest : List Step}
    (hpurpose : ¬(purpose = .create ∧ rest = [.close])) (hname : name.utf8ByteSize ≤ longestName)
    (h : Node.Loose (tree.node? (.named (here ++ [name])))) :
    ending (walkWith tree purpose follow here (.name name :: rest)) =
      if rest = [] then some (.free (here ++ [name])) else none := by
  rw [walkWith_name hpurpose hname]
  rcases h with h | ⟨content, h⟩
  all_goals
    rw [h]
    dsimp only
    split <;> rfl

theorem ending_walkWith (h : tree.SameSkeleton other)
    (hfollow : ∀ here steps, ending (follow' here steps) = ending (follow here steps)) :
    ∀ (steps : List Step) (here : List String),
      ending (walkWith other purpose follow' here steps) = ending (walkWith tree purpose follow here steps) := by
  intro steps
  induction steps with
  | nil => exact fun _ => rfl
  | cons step rest ih =>
      intro here
      cases step with
      | stay => exact ih here
      | close => exact ih here
      | up => exact ih here.dropLast
      | name name =>
          by_cases hpurpose : purpose = .create ∧ rest = [.close]
          · rw [walkWith, walkWith, if_pos hpurpose, if_pos hpurpose]
          rcases Nat.lt_or_ge longestName name.utf8ByteSize with hlong | hname
          · rw [walkWith, walkWith, if_neg hpurpose, if_neg hpurpose, if_pos hlong, if_pos hlong]
          have hbone := h (.named (here ++ [name]))
          cases hnode : Node.bone? (tree.node? (.named (here ++ [name]))) with
          | none =>
              rw [hnode] at hbone
              rw [ending_loose hpurpose hname ((Node.bone?_eq_none_iff _).mp hbone),
                ending_loose hpurpose hname ((Node.bone?_eq_none_iff _).mp hnode)]
          | some node =>
              rw [hnode] at hbone
              obtain ⟨hother, -⟩ := Node.eq_some_of_bone? hbone
              obtain ⟨htree, hfile⟩ := Node.eq_some_of_bone? hnode
              rw [walkWith_name hpurpose hname, walkWith_name hpurpose hname, hother, htree]
              cases node with
              | directory => exact ih _
              | link target => exact hfollow _ _
              | device device => rfl
              | file content => exact absurd rfl (hfile content)

theorem ending_walk (h : tree.SameSkeleton other) (links : Nat) (here : List String) (steps : List Step) :
    ending (walk other purpose links here steps) = ending (walk tree purpose links here steps) := by
  induction links generalizing here steps with
  | zero => exact ending_walkWith h (fun _ _ => rfl) steps here
  | succ links ih => exact ending_walkWith h ih steps here

theorem ending_resolve (h : tree.SameSkeleton other) (home : List String) (path : String) :
    ending (resolve other home purpose path) = ending (resolve tree home purpose path) := by
  unfold resolve
  by_cases hnul : '\x00' ∈ path.toList
  · rw [if_pos hnul, if_pos hnul]
  rw [if_neg hnul, if_neg hnul]
  by_cases hlong : longestPath < path.utf8ByteSize
  · rw [if_pos hlong, if_pos hlong]
  rw [if_neg hlong, if_neg hlong]
  by_cases hempty : path = ""
  · rw [if_pos hempty, if_pos hempty]
  rw [if_neg hempty, if_neg hempty]
  exact ending_walk h mostLinks _ _

end Walk

/-! ## Opening for writing -/

namespace Tree

/-- Where a path leads that is opened for writing, with the file that may be there taken away. -/
def end? (tree : Tree) (home : List String) (path : String) : Option Spot := ending (resolve tree home .create path)

/-- The file that a path leads to, or would lead to once it were made. -/
def fileAt? (tree : Tree) (home : List String) (path : String) : Option (List String) :=
  (tree.end? home path).bind Spot.file?

theorem SameSkeleton.end?_eq {tree other : Tree} (h : tree.SameSkeleton other) (home : List String) (path : String) :
    other.end? home path = tree.end? home path := ending_resolve h home path

theorem fileAt?_eq_some_iff {tree : Tree} {home : List String} {path : String} {names : List String} :
    tree.fileAt? home path = some names ↔ tree.end? home path = some (.free names) := by
  unfold fileAt? end? ending
  rcases resolve tree home .create path with fault | ⟨found, _ | content | target | device⟩ | found <;>
    simp [Except.toOption, Spot.vacated, Spot.file?]

/-- The file at the end of a path may not be there yet, but nothing else is. -/
theorem loose_of_end? {tree : Tree} {home : List String} {path : String} {names : List String}
    (h : tree.end? home path = some (.free names)) : Node.Loose (tree.node? (.named names)) := by
  unfold end? ending at h
  rcases hresolve : resolve tree home .create path with fault | spot
  · rw [hresolve] at h
    cases h
  have hat := isAt_resolve hresolve
  rw [hresolve] at h
  rcases spot with ⟨found, _ | content | target | device⟩ | found <;> cases h
  · exact .inr ⟨content, hat⟩
  · exact .inl hat

/-- Where a path that was opened leads: to a file, which is empty now, or to a device. -/
theorem end?_of_create {tree opened : Tree} {home : List String} {path : String} {place : Place}
    (h : tree.create home path = .ok (opened, place)) :
    (∃ names, tree.end? home path = some (.free names) ∧ place = .named names ∧
        opened = tree.set place (.file .empty)) ∨
      ∃ names device, tree.end? home path = some (.taken names (.device device)) ∧ opened = tree ∧
        tree.node? place = some (.device device) := by
  unfold create at h
  unfold end? ending
  rcases hresolve : resolve tree home .create path with fault | spot
  · rw [hresolve] at h
    cases h
  have hat := isAt_resolve hresolve
  rw [hresolve] at h
  rcases spot with ⟨names, _ | content | target | device⟩ | names
  · cases h
  · cases h
    exact .inl ⟨names, rfl, rfl, rfl⟩
  · exact hat.elim
  · cases h
    exact .inr ⟨names, device, rfl, rfl, hat⟩
  · cases h
    exact .inl ⟨names, rfl, rfl, rfl⟩

/-- Where a path that could not be opened leads: nowhere, or to a directory. -/
theorem end?_of_create_error {tree : Tree} {home : List String} {path : String} {fault : SystemFault}
    (h : tree.create home path = .error fault) :
    tree.end? home path = none ∨ ∃ names, tree.end? home path = some (.taken names .directory) := by
  unfold create at h
  unfold end? ending
  rcases hresolve : resolve tree home .create path with fault | spot
  · exact .inl rfl
  have hat := isAt_resolve hresolve
  rw [hresolve] at h
  rcases spot with ⟨names, _ | content | target | device⟩ | names
  · exact .inr ⟨names, rfl⟩
  · cases h
  · exact hat.elim
  · cases h
  · cases h

end Tree

end NoiseFile.FileSystem
