import NoiseFile.FileSystem.Walk

/-!
# Where walks end

* `walkWith_name_cases` : what one name of a path can lead to;
* `Spot.IsAt` : a spot tells what the tree holds there, as it does wherever a walk ends (`isAt_walk`);
* `walk_look` : a walk that may create ends where a walk that only looks does;
* `create_of_isDirectory` : what is a directory to a walk that only looks cannot be opened;
* `Tree.Alike` : trees that hold the same everywhere but at one place;
* `resolve_alike` : a path to a file, or to where one can be put, leads to that file whatever is written to it;
* `create_cases` : opening a path gives an empty file at the end of the path, or a device.
-/

namespace NoiseFile.FileSystem

/-! ## One name of a path -/

section Name
variable {tree : Tree} {purpose : Purpose} {follow : List String → List Step → Except SystemFault Spot}
  {here : List String} {name : String} {rest : List Step} {spot : Spot}

theorem walkWith_name (hpurpose : ¬(purpose = .create ∧ rest = [.close])) (hname : name.utf8ByteSize ≤ longestName) :
    walkWith tree purpose follow here (.name name :: rest) = match tree.node? (.named (here ++ [name])) with
      | none => if rest = [] then .ok (.free (here ++ [name])) else .error .notFound
      | some .directory => walkWith tree purpose follow (here ++ [name]) rest
      | some (.link target) => follow (startOf here target) (stepsOf target ++ rest)
      | some node => if rest = [] then .ok (.taken (here ++ [name]) node) else .error .notADirectory := by
  rw [walkWith]
  exact (if_neg hpurpose).trans (if_neg (Nat.not_lt.mpr hname))

/-- A name leads to a free place at the end of the path, into a directory, along a link, or to a file or a device at the
end of the path. -/
theorem walkWith_name_cases (h : walkWith tree purpose follow here (.name name :: rest) = .ok spot) :
    ¬(purpose = .create ∧ rest = [.close]) ∧ name.utf8ByteSize ≤ longestName ∧
      (tree.node? (.named (here ++ [name])) = none ∧ rest = [] ∧ spot = .free (here ++ [name]) ∨
        tree.node? (.named (here ++ [name])) = some .directory ∧
          walkWith tree purpose follow (here ++ [name]) rest = .ok spot ∨
        (∃ target, tree.node? (.named (here ++ [name])) = some (.link target) ∧
          follow (startOf here target) (stepsOf target ++ rest) = .ok spot) ∨
        (∃ content, tree.node? (.named (here ++ [name])) = some (.file content) ∧ rest = [] ∧
          spot = .taken (here ++ [name]) (.file content)) ∨
        ∃ device, tree.node? (.named (here ++ [name])) = some (.device device) ∧ rest = [] ∧
          spot = .taken (here ++ [name]) (.device device)) := by
  by_cases hpurpose : purpose = .create ∧ rest = [.close]
  · rw [walkWith, if_pos hpurpose] at h
    cases h
  rcases Nat.lt_or_ge longestName name.utf8ByteSize with hlong | hname
  · rw [walkWith, if_neg hpurpose, if_pos hlong] at h
    cases h
  refine ⟨hpurpose, hname, ?_⟩
  rw [walkWith_name hpurpose hname] at h
  rcases hnode : tree.node? (.named (here ++ [name])) with _ | _ | content | target | device
  all_goals
    rw [hnode] at h
    dsimp only at h
  · split at h
    · next hrest => exact .inl ⟨rfl, hrest, by cases h; rfl⟩
    · cases h
  · exact .inr (.inl ⟨rfl, h⟩)
  · split at h
    · next hrest => exact .inr (.inr (.inr (.inl ⟨content, rfl, hrest, by cases h; rfl⟩)))
    · cases h
  · exact .inr (.inr (.inl ⟨target, rfl, h⟩))
  · split at h
    · next hrest => exact .inr (.inr (.inr (.inr ⟨device, rfl, hrest, by cases h; rfl⟩)))
    · cases h

end Name

/-! ## Spots -/

/-- What a spot says of a tree. A walk may end in the directory it began in, of which the tree need not know. -/
def Spot.IsAt (tree : Tree) : Spot → Prop
  | .free names => tree.node? (.named names) = none
  | .taken _ .directory => True
  | .taken _ (.link _) => False
  | .taken names node => tree.node? (.named names) = some node

theorem isAt_walkWith {tree : Tree} {purpose : Purpose} {follow : List String → List Step → Except SystemFault Spot}
    (hfollow : ∀ here steps spot, follow here steps = .ok spot → spot.IsAt tree) :
    ∀ (steps : List Step) (here : List String) (spot : Spot),
      walkWith tree purpose follow here steps = .ok spot → spot.IsAt tree := by
  intro steps
  induction steps with
  | nil =>
      intro here spot h
      cases h
      trivial
  | cons step rest ih =>
      intro here spot h
      cases step with
      | stay => exact ih here spot h
      | close => exact ih here spot h
      | up => exact ih here.dropLast spot h
      | name name =>
          obtain ⟨-, -, hfree | hinto | ⟨target, -, halong⟩ | ⟨content, hfile⟩ | ⟨device, hdevice⟩⟩ :=
            walkWith_name_cases h
          · rw [hfree.2.2]
            exact hfree.1
          · exact ih _ spot hinto.2
          · exact hfollow _ _ spot halong
          · rw [hfile.2.2]
            exact hfile.1
          · rw [hdevice.2.2]
            exact hdevice.1

theorem isAt_walk {tree : Tree} {purpose : Purpose} {links : Nat} {here : List String} {steps : List Step}
    {spot : Spot} (h : walk tree purpose links here steps = .ok spot) : spot.IsAt tree := by
  induction links generalizing here steps spot with
  | zero =>
      refine isAt_walkWith (fun _ _ _ hfollow => ?_) steps here spot h
      cases hfollow
  | succ links ih => exact isAt_walkWith (fun _ _ _ hfollow => ih hfollow) steps here spot h

/-- A resolved path passed the checks that do not look at the tree. -/
theorem resolve_eq_walk {tree : Tree} {home : List String} {purpose : Purpose} {path : String} {spot : Spot}
    (h : resolve tree home purpose path = .ok spot) (other : Tree) (purpose' : Purpose) :
    resolve other home purpose' path =
      walk other purpose' mostLinks (if isAbsolute path then [] else home) (stepsOf path) := by
  unfold resolve at h ⊢
  by_cases hnul : '\x00' ∈ path.toList
  · rw [if_pos hnul] at h
    cases h
  rw [if_neg hnul] at h ⊢
  by_cases hlong : longestPath < path.utf8ByteSize
  · rw [if_pos hlong] at h
    cases h
  rw [if_neg hlong] at h ⊢
  by_cases hempty : path = ""
  · rw [if_pos hempty] at h
    cases h
  rw [if_neg hempty]

theorem isAt_resolve {tree : Tree} {home : List String} {purpose : Purpose} {path : String} {spot : Spot}
    (h : resolve tree home purpose path = .ok spot) : spot.IsAt tree :=
  isAt_walk ((resolve_eq_walk h tree purpose).symm.trans h)

/-! ## Creating and looking -/

theorem walkWith_look {tree : Tree} {follow follow' : List String → List Step → Except SystemFault Spot}
    (hfollow : ∀ here steps spot, follow here steps = .ok spot → follow' here steps = .ok spot) :
    ∀ (steps : List Step) (here : List String) (spot : Spot),
      walkWith tree .create follow here steps = .ok spot → walkWith tree .look follow' here steps = .ok spot := by
  intro steps
  induction steps with
  | nil => exact fun _ _ h => h
  | cons step rest ih =>
      intro here spot h
      cases step with
      | stay => exact ih here spot h
      | close => exact ih here spot h
      | up => exact ih here.dropLast spot h
      | name name =>
          obtain ⟨-, hname, hcases⟩ := walkWith_name_cases h
          rw [walkWith_name (by simp) hname]
          rcases hcases with ⟨hnode, hrest, rfl⟩ | ⟨hnode, hinto⟩ | ⟨target, hnode, halong⟩ |
            ⟨content, hnode, hrest, rfl⟩ | ⟨device, hnode, hrest, rfl⟩
          · simp only [hnode, if_pos hrest]
          · simp only [hnode, ih _ spot hinto]
          · simp only [hnode, hfollow _ _ spot halong]
          · simp only [hnode, if_pos hrest]
          · simp only [hnode, if_pos hrest]

theorem walk_look {tree : Tree} {links : Nat} {here : List String} {steps : List Step} {spot : Spot}
    (h : walk tree .create links here steps = .ok spot) : walk tree .look links here steps = .ok spot := by
  induction links generalizing here steps spot with
  | zero => exact walkWith_look (fun _ _ _ hfollow => hfollow) steps here spot h
  | succ links ih => exact walkWith_look (fun _ _ _ hfollow => ih hfollow) steps here spot h

theorem resolve_look {tree : Tree} {home : List String} {path : String} {spot : Spot}
    (h : resolve tree home .create path = .ok spot) : resolve tree home .look path = .ok spot := by
  rw [resolve_eq_walk h tree .look]
  exact walk_look ((resolve_eq_walk h tree .create).symm.trans h)

/-- A walk that ends in a directory, or does not go on because one is asked for. -/
def EndsInDirectory (result : Except SystemFault Spot) : Prop :=
  (∃ names, result = .ok (.taken names .directory)) ∨ result = .error .isADirectory

theorem walkWith_directory {tree : Tree} {follow follow' : List String → List Step → Except SystemFault Spot}
    (hfollow : ∀ here steps names, follow here steps = .ok (.taken names .directory) →
      EndsInDirectory (follow' here steps)) :
    ∀ (steps : List Step) (here names : List String),
      walkWith tree .look follow here steps = .ok (.taken names .directory) →
        EndsInDirectory (walkWith tree .create follow' here steps) := by
  intro steps
  induction steps with
  | nil => exact fun here _ _ => .inl ⟨here, rfl⟩
  | cons step rest ih =>
      intro here names h
      cases step with
      | stay => exact ih here names h
      | close => exact ih here names h
      | up => exact ih here.dropLast names h
      | name name =>
          -- a last name with a slash behind it is refused as a directory, whatever it stands for
          by_cases hslash : rest = [.close]
          · right
            rw [walkWith, if_pos ⟨rfl, hslash⟩]
          obtain ⟨-, hname, hcases⟩ := walkWith_name_cases h
          rw [walkWith_name (fun hpurpose => hslash hpurpose.2) hname]
          rcases hcases with ⟨-, -, hspot⟩ | ⟨hnode, hinto⟩ | ⟨target, hnode, halong⟩ | ⟨_, -, -, hspot⟩ |
            ⟨_, -, -, hspot⟩
          · cases hspot
          · simp only [hnode]
            exact ih _ names hinto
          · simp only [hnode]
            exact hfollow _ _ names halong
          · cases hspot
          · cases hspot

theorem walk_directory {tree : Tree} {links : Nat} {here names : List String} {steps : List Step}
    (h : walk tree .look links here steps = .ok (.taken names .directory)) :
    EndsInDirectory (walk tree .create links here steps) := by
  induction links generalizing here names steps with
  | zero =>
      refine walkWith_directory (fun _ _ _ hfollow => ?_) steps here names h
      cases hfollow
  | succ links ih => exact walkWith_directory (fun _ _ _ hfollow => ih hfollow) steps here names h

theorem create_of_isDirectory {tree : Tree} {home : List String} {path : String}
    (h : tree.isDirectory home path = true) : tree.create home path = .error .isADirectory := by
  unfold Tree.isDirectory at h
  split at h
  · next names hresolve =>
      have hwalk := walk_directory ((resolve_eq_walk hresolve tree .look).symm.trans hresolve)
      rw [← resolve_eq_walk hresolve tree .create] at hwalk
      unfold Tree.create
      rcases hwalk with ⟨names', hdirectory⟩ | hrefused
      · rw [hdirectory]
      · rw [hrefused]
  · cases h

/-! ## Trees that differ in one place -/

/-- Trees that hold the same everywhere but at one place. -/
def Tree.Alike (place : Place) (before after : Tree) : Prop :=
  ∀ other, other ≠ place → after.node? other = before.node? other

theorem Tree.Alike.refl (place : Place) (tree : Tree) : tree.Alike place tree := fun _ _ => rfl

theorem Tree.Alike.trans {place : Place} {first second third : Tree} (h : first.Alike place second)
    (h' : second.Alike place third) : first.Alike place third := fun other hother =>
  (h' other hother).trans (h other hother)

theorem Tree.alike_set (tree : Tree) (place : Place) (node : Node) : tree.Alike place (tree.set place node) :=
  fun _ hother => node?_set_of_ne hother tree node

/-- The names of the file that a spot tells of, or of where one can be put. -/
def Spot.file? : Spot → Option (List String)
  | .free names => some names
  | .taken names (.file _) => some names
  | .taken _ _ => none

section Alike
variable {before after : Tree} {names : List String} {content : ByteArray}
  (halike : before.Alike (.named names) after) (hafter : after.node? (.named names) = some (.file content))
  (hbefore : before.node? (.named names) = none ∨ ∃ old, before.node? (.named names) = some (.file old))
include halike hafter hbefore

theorem walkWith_alike {purpose : Purpose} {follow follow' : List String → List Step → Except SystemFault Spot}
    (hfollow : ∀ here steps spot, follow here steps = .ok spot → spot.file? = some names →
      follow' here steps = .ok (.taken names (.file content))) :
    ∀ (steps : List Step) (here : List String) (spot : Spot), walkWith before purpose follow here steps = .ok spot →
      spot.file? = some names → walkWith after purpose follow' here steps = .ok (.taken names (.file content)) := by
  intro steps
  induction steps with
  | nil =>
      intro here spot h hfile
      cases h
      cases hfile
  | cons step rest ih =>
      intro here spot h hfile
      cases step with
      | stay => exact ih here spot h hfile
      | close => exact ih here spot h hfile
      | up => exact ih here.dropLast spot h hfile
      | name name =>
          obtain ⟨hslash, hname, hcases⟩ := walkWith_name_cases h
          rw [walkWith_name hslash hname]
          -- a directory or a link on the way is not where the file is
          have hother : ∀ node, before.node? (.named (here ++ [name])) = some node → (∀ old, node ≠ .file old) →
              after.node? (.named (here ++ [name])) = some node := by
            intro node hnode hnot
            rw [← hnode]
            apply halike
            intro heq
            rw [heq] at hnode
            rcases hbefore with hnone | ⟨old, hold⟩
            · rw [hnone] at hnode
              cases hnode
            · rw [hold] at hnode
              exact hnot old (Option.some.inj hnode).symm
          rcases hcases with ⟨-, hrest, rfl⟩ | ⟨hnode, hinto⟩ | ⟨target, hnode, halong⟩ |
            ⟨old, -, hrest, rfl⟩ | ⟨device, -, -, rfl⟩
          · cases hfile
            simp only [hafter, if_pos hrest]
          · simp only [hother _ hnode (fun _ => by simp), ih _ spot hinto hfile]
          · simp only [hother _ hnode (fun _ => by simp), hfollow _ _ spot halong hfile]
          · cases hfile
            simp only [hafter, if_pos hrest]
          · cases hfile

theorem walk_alike {purpose : Purpose} {links : Nat} {here : List String} {steps : List Step} {spot : Spot}
    (h : walk before purpose links here steps = .ok spot) (hfile : spot.file? = some names) :
    walk after purpose links here steps = .ok (.taken names (.file content)) := by
  induction links generalizing here steps spot with
  | zero =>
      refine walkWith_alike halike hafter hbefore (fun _ _ _ hfollow _ => ?_) steps here spot h hfile
      cases hfollow
  | succ links ih =>
      exact walkWith_alike halike hafter hbefore (fun _ _ _ hfollow hfile => ih hfollow hfile) steps here spot h hfile

/-- A path to a file, or to where one can be put, leads to the file that is there afterwards. -/
theorem resolve_alike {purpose : Purpose} {home : List String} {path : String} {spot : Spot}
    (h : resolve before home purpose path = .ok spot) (hfile : spot.file? = some names) :
    resolve after home purpose path = .ok (.taken names (.file content)) := by
  rw [resolve_eq_walk h after purpose]
  exact walk_alike halike hafter hbefore ((resolve_eq_walk h before purpose).symm.trans h) hfile

end Alike

/-! ## The file at the end of a path -/

/-- Trees that differ at most in the one file that a path leads to, which may be new. -/
structure Tree.OnlyFileOf (home : List String) (path : String) (before after : Tree) : Prop where
  others : after = before ∨ ∃ names content spot, resolve before home .look path = .ok spot ∧ spot.file? = some names ∧
    resolve after home .look path = .ok (.taken names (.file content)) ∧ before.Alike (.named names) after
  /-- Directories, links and devices are the same. -/
  kept : ∀ place node, (∀ content, node ≠ .file content) →
    (after.node? place = some node ↔ before.node? place = some node)
  present : ∀ place, (before.node? place).isSome → (after.node? place).isSome

theorem Tree.OnlyFileOf.refl (home : List String) (path : String) (tree : Tree) : tree.OnlyFileOf home path tree :=
  ⟨.inl rfl, fun _ _ _ => .rfl, fun _ h => h⟩

theorem node?_of_file? {tree : Tree} {spot : Spot} {names : List String} (h : spot.IsAt tree)
    (hfile : spot.file? = some names) :
    tree.node? (.named names) = none ∨ ∃ content, tree.node? (.named names) = some (.file content) := by
  rcases spot with ⟨_, _ | content | _ | _⟩ | _
  all_goals cases hfile
  · exact .inr ⟨content, h⟩
  · exact .inl h

theorem onlyFileOf_of_alike {before after : Tree} {home : List String} {path : String} {spot : Spot}
    {names : List String} {content : ByteArray} (hresolve : resolve before home .look path = .ok spot)
    (hfile : spot.file? = some names) (halike : before.Alike (.named names) after)
    (hafter : after.node? (.named names) = some (.file content)) : before.OnlyFileOf home path after := by
  have hbefore := node?_of_file? (isAt_resolve hresolve) hfile
  refine ⟨.inr ⟨names, content, spot, hresolve, hfile, ?_, halike⟩, ?_, ?_⟩
  · exact resolve_alike halike hafter hbefore hresolve hfile
  · intro place node hnode
    by_cases hother : place = .named names
    · subst hother
      rw [hafter]
      constructor
      · intro h
        exact absurd (Option.some.inj h).symm (hnode content)
      · intro h
        rcases hbefore with hnone | ⟨old, hold⟩
        · rw [hnone] at h
          cases h
        · rw [hold] at h
          exact absurd (Option.some.inj h).symm (hnode old)
    · rw [halike place hother]
  · intro place hplace
    by_cases hother : place = .named names
    · rw [hother, hafter]
      rfl
    · rw [halike place hother]
      exact hplace

/-! ## Opening -/

theorem ne_root_of_file? {tree : Tree} {spot : Spot} {names : List String} (h : spot.IsAt tree)
    (hfile : spot.file? = some names) : names ≠ [] := by
  rintro rfl
  rcases node?_of_file? h hfile with hnone | ⟨content, hcontent⟩
  · rw [tree.node?_root] at hnone
    cases hnone
  · rw [tree.node?_root] at hcontent
    cases hcontent

/-- An opened path is an empty file now, put where the path leads to a file or to a free name, or it is a device and the
tree is as it was. -/
theorem create_cases {tree opened : Tree} {home : List String} {path : String} {place : Place}
    (h : tree.create home path = .ok (opened, place)) :
    (∃ names spot, place = .named names ∧ opened = tree.set place (.file .empty) ∧
        resolve tree home .create path = .ok spot ∧ spot.file? = some names) ∨
      ∃ device, opened = tree ∧ tree.node? place = some (.device device) := by
  unfold Tree.create at h
  rcases hresolve : resolve tree home .create path with fault | spot
  · rw [hresolve] at h
    cases h
  have hat := isAt_resolve hresolve
  rw [hresolve] at h
  rcases spot with ⟨names, _ | content | target | device⟩ | names
  · cases h
  · cases h
    exact .inl ⟨names, _, rfl, rfl, rfl, rfl⟩
  · exact hat.elim
  · cases h
    exact .inr ⟨device, rfl, hat⟩
  · cases h
    exact .inl ⟨names, _, rfl, rfl, rfl, rfl⟩

theorem isDirectory_of_create {tree opened : Tree} {home : List String} {path : String} {place : Place}
    (h : tree.create home path = .ok (opened, place)) :
    tree.isDirectory home path = false ∧ opened.isDirectory home path = false := by
  have hbefore : tree.isDirectory home path = false := by
    rw [← Bool.not_eq_true]
    intro hdirectory
    rw [create_of_isDirectory hdirectory] at h
    cases h
  refine ⟨hbefore, ?_⟩
  rcases create_cases h with ⟨names, spot, rfl, rfl, hresolve, hfile⟩ | ⟨device, rfl, -⟩
  · have hat := isAt_resolve hresolve
    have hafter : (tree.set (.named names) (.file .empty)).node? (.named names) = some (.file .empty) :=
      Tree.node?_set_self (by simpa using ne_root_of_file? hat hfile) tree _
    unfold Tree.isDirectory
    rw [resolve_alike (tree.alike_set _ _) hafter (node?_of_file? hat hfile) (resolve_look hresolve) hfile]
  · exact hbefore

end NoiseFile.FileSystem
