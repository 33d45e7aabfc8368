import Mathlib.Logic.Equiv.Defs
import NoiseFile.Proofs.Generate.Deed

/-!
# Deeds in a row

* `Tree.SameThrough` : trees whose nodes look the same; `Node.sized` looks at the sizes of files only;
* `doAll` : the tree after a row of deeds. A file holds what the last deed on it left (`node?_doAll_last`), and what no
  deed is on stays as it is (`node?_doAll_of_ne`);
* `sameThrough_repeat` : doing a deed twice changes no size;
* `sameThrough_swap`, `node?_swap` : neighbouring deeds on different files can change places, which changes no size, and
  nothing at all if their bytes change places too.
-/

namespace NoiseFile

open FileSystem

/-! ## Trees that look the same -/

/-- A node of which a file shows its size only. -/
def FileSystem.Node.sized : Node → Node
  | .file content => .file (zeros content.size)
  | node => node

namespace FileSystem.Tree

/-- Trees whose nodes look the same. -/
def SameThrough {β : Type} (view : Node → β) (tree other : Tree) : Prop :=
  ∀ place, (other.node? place).map view = (tree.node? place).map view

section Look
variable {β : Type} {view : Node → β} {first second third : Tree}

theorem SameThrough.refl (tree : Tree) : tree.SameThrough view tree := fun _ => rfl

theorem SameThrough.trans (h : first.SameThrough view second) (h' : second.SameThrough view third) :
    first.SameThrough view third := fun place => (h' place).trans (h place)

theorem sameThrough_of_node? (h : ∀ place, second.node? place = first.node? place) : first.SameThrough view second :=
  fun place => congrArg (Option.map view) (h place)

theorem node?_set (tree : Tree) (place : Place) (node : Node) (other : Place) :
    (tree.set place node).node? other = if other = place ∧ place ≠ .named [] then some node else tree.node? other := by
  by_cases hother : other = place
  · subst hother
    by_cases hroot : other = .named []
    · rw [if_neg fun h => h.2 hroot, hroot, node?_root, node?_root]
    · rw [if_pos ⟨rfl, hroot⟩, node?_set_self hroot]
  · rw [if_neg fun h => hother h.1, node?_set_of_ne hother]

theorem sameThrough_set (h : first.SameThrough view second) (place : Place) {node node' : Node}
    (hnode : view node' = view node) : (first.set place node).SameThrough view (second.set place node') := by
  intro other
  rw [node?_set, node?_set]
  split
  · exact congrArg some hnode
  · exact h other

end Look

end FileSystem.Tree

/-! ## Rows of deeds -/

def drawnBy : List Deed → Nat
  | [] => 0
  | deed :: rest => deed.drawn + drawnBy rest

/-- The tree after a row of deeds, each with the bytes of the source behind those of the deed before it. -/
def doAll (source : Source) : List Deed → Nat → Tree → Tree
  | [], _, tree => tree
  | deed :: rest, position, tree => doAll source rest (position + deed.drawn) (deed.done source position tree)

section Rows
variable {source : Source} {position : Nat} {tree : Tree}

theorem doAll_append (before after : List Deed) :
    doAll source (before ++ after) position tree =
      doAll source after (position + drawnBy before) (doAll source before position tree) := by
  induction before generalizing position tree with
  | nil => rfl
  | cons deed rest ih => rw [List.cons_append, doAll, ih, doAll, drawnBy, Nat.add_assoc]

theorem node?_done_of_ne {deed : Deed} {place : Place} (h : ∀ names, deed.file? = some names → place ≠ .named names) :
    (deed.done source position tree).node? place = tree.node? place := by
  unfold Deed.done
  cases hfile : deed.file? with
  | none => rfl
  | some names => exact Tree.node?_set_of_ne (h names hfile) tree _

/-- What no deed is on stays as it is. -/
theorem node?_doAll_of_ne {deeds : List Deed} {place : Place}
    (h : ∀ deed ∈ deeds, ∀ names, deed.file? = some names → place ≠ .named names) :
    (doAll source deeds position tree).node? place = tree.node? place := by
  induction deeds generalizing position tree with
  | nil => rfl
  | cons deed rest ih =>
      rw [doAll, ih fun other hother => h other (List.mem_cons_of_mem deed hother)]
      exact node?_done_of_ne (h deed (List.mem_cons_self ..))

/-- A file holds what the last deed on it left. -/
theorem node?_doAll_last {before after : List Deed} {deed : Deed} {names : List String} (hnames : names ≠ [])
    (hdeed : deed.file? = some names) (hafter : ∀ later ∈ after, later.file? ≠ some names) :
    (doAll source (before ++ deed :: after) position tree).node? (.named names) =
      some (.file (source.slice (position + drawnBy before) deed.drawn)) := by
  rw [doAll_append, doAll, node?_doAll_of_ne, Deed.done, hdeed]
  · exact Tree.node?_set_self (by simpa using hnames) _ _
  · intro later hlater other hother heq
    cases heq
    exact hafter later hlater hother

end Rows

/-! ## Rows that look the same -/

section Look
variable {β : Type} {view : Node → β} {source other : Source} {position start : Nat} {tree tree' : Tree}

theorem sameThrough_done {deed : Deed} (htree : tree.SameThrough view tree')
    (hslice : view (.file (other.slice start deed.drawn)) = view (.file (source.slice position deed.drawn))) :
    (deed.done source position tree).SameThrough view (deed.done other start tree') := by
  unfold Deed.done
  cases deed.file? with
  | none => exact htree
  | some names => exact Tree.sameThrough_set htree (.named names) hslice

/-- A row of deeds on trees that look the same, with bytes that look the same. -/
theorem sameThrough_doAll {deeds : List Deed} (htree : tree.SameThrough view tree')
    (hslice : ∀ offset n, offset + n ≤ drawnBy deeds →
      view (.file (other.slice (start + offset) n)) = view (.file (source.slice (position + offset) n))) :
    (doAll source deeds position tree).SameThrough view (doAll other deeds start tree') := by
  induction deeds generalizing position start tree tree' with
  | nil => exact htree
  | cons deed rest ih =>
      rw [drawnBy] at hslice
      apply ih
      · exact sameThrough_done htree (hslice 0 deed.drawn (by omega))
      · intro offset n hle
        rw [Nat.add_assoc, Nat.add_assoc]
        exact hslice (deed.drawn + offset) n (by omega)

theorem sized_slice (source other : Source) (position start n : Nat) :
    Node.sized (.file (other.slice start n)) = Node.sized (.file (source.slice position n)) := by
  rw [Node.sized, Node.sized, Source.size_slice, Source.size_slice]

/-- Doing a deed twice changes no size. -/
theorem sameThrough_repeat (before after : List Deed) (deed : Deed) :
    (doAll source (before ++ deed :: after) position tree).SameThrough Node.sized
      (doAll source (before ++ deed :: deed :: after) position tree) := by
  rw [doAll_append, doAll_append, doAll, doAll, doAll]
  refine sameThrough_doAll ?_ fun offset n _ => sized_slice ..
  generalize doAll source before position tree = tree
  unfold Deed.done
  cases deed.file? with
  | none => exact .refl tree
  | some names =>
      dsimp only
      rw [Tree.set_set]
      exact Tree.sameThrough_set (.refl tree) (.named names) (sized_slice ..)

/-! ## Deeds that change places -/

/-- Deeds on different files, or on none. -/
def Deed.Apart (first second : Deed) : Prop := ∀ names, first.file? = some names → second.file? ≠ some names

variable {first second : Deed} (hapart : first.Apart second)
include hapart

theorem node?_done_comm (place : Place) :
    (first.done source position (second.done source start tree)).node? place =
      (second.done source start (first.done source position tree)).node? place := by
  unfold Deed.done
  cases hfirst : first.file? with
  | none => rfl
  | some names =>
      cases hsecond : second.file? with
      | none => rfl
      | some others =>
          have hne : names ≠ others := by
            rintro rfl
            exact hapart names hfirst hsecond
          simp only [Tree.node?_set]
          by_cases hplace : place = .named names
          · have hother : place ≠ .named others := by
              rw [hplace]
              simpa using hne
            simp [hplace, hne]
          · simp [hplace]

/-- Neighbouring deeds on different files can change places, as far as sizes go. -/
theorem sameThrough_swap (before after : List Deed) :
    (doAll source (before ++ first :: second :: after) position tree).SameThrough Node.sized
      (doAll source (before ++ second :: first :: after) position tree) := by
  rw [doAll_append, doAll_append, doAll, doAll, doAll, doAll]
  refine sameThrough_doAll ?_ fun offset n _ => sized_slice ..
  refine .trans (Tree.sameThrough_of_node? (node?_done_comm hapart)) ?_
  exact sameThrough_done (sameThrough_done (.refl _) (sized_slice ..)) (sized_slice ..)

end Look

/-- Two neighbouring stretches of numbers that change places, `first` numbers from `position` on and the `second` numbers
behind them. -/
def exchanged (position first second n : Nat) : Nat :=
  if n < position then n
  else if n < position + second then n + first
  else if n < position + second + first then n - second
  else n

theorem exchanged_exchanged (position first second n : Nat) :
    exchanged position second first (exchanged position first second n) = n := by
  unfold exchanged
  grind

def exchange (position first second : Nat) : Equiv.Perm Nat where
  toFun := exchanged position first second
  invFun := exchanged position second first
  left_inv := exchanged_exchanged position first second
  right_inv := exchanged_exchanged position second first

section Exchange
variable {position first second n : Nat}

theorem exchange_of_lt (h : n < position) : exchange position first second n = n := if_pos h

theorem exchange_front (h : n < second) : exchange position first second (position + n) = position + first + n := by
  show exchanged _ _ _ _ = _
  unfold exchanged
  rw [if_neg (by omega), if_pos (by omega)]
  omega

theorem exchange_back (h : n < first) : exchange position first second (position + second + n) = position + n := by
  show exchanged _ _ _ _ = _
  unfold exchanged
  rw [if_neg (by omega), if_neg (by omega), if_pos (by omega)]
  omega

theorem exchange_of_ge (h : position + second + first ≤ n) : exchange position first second n = n := by
  show exchanged _ _ _ _ = _
  unfold exchanged
  rw [if_neg (by omega), if_neg (by omega), if_neg (by omega)]

end Exchange

/-- The source whose bytes are dealt out in another order. -/
def Source.reorder (source : Source) (order : Equiv.Perm Nat) : Source :=
  { source with byteAt := fun n => source.byteAt (order n) }

theorem Source.slice_reorder {source : Source} {order : Equiv.Perm Nat} {position start n : Nat}
    (h : ∀ i, i < n → order (start + i) = position + i) :
    (source.reorder order).slice start n = source.slice position n := by
  unfold slice reorder
  congr 2
  funext i
  exact congrArg source.byteAt (h i i.isLt)

/-- Neighbouring deeds on different files can change places, if the bytes that they draw do so too. -/
theorem node?_swap {source : Source} {position : Nat} {tree : Tree} {first second : Deed} (hapart : first.Apart second)
    (before after : List Deed) (place : Place) :
    (doAll (source.reorder (exchange (position + drawnBy before) first.drawn second.drawn))
        (before ++ second :: first :: after) position tree).node? place =
      (doAll source (before ++ first :: second :: after) position tree).node? place := by
  generalize hmiddle : position + drawnBy before = middle
  suffices h : (doAll source (before ++ first :: second :: after) position tree).SameThrough id
      (doAll (source.reorder (exchange middle first.drawn second.drawn)) (before ++ second :: first :: after) position
        tree) by
    simpa using h place
  rw [doAll_append, doAll_append, doAll, doAll, doAll, doAll, hmiddle]
  apply sameThrough_doAll
  · refine .trans (Tree.sameThrough_of_node? (node?_done_comm hapart)) ?_
    apply sameThrough_done
    · apply sameThrough_done
      · apply sameThrough_doAll (.refl tree)
        intro offset n hle
        exact congrArg Node.file (Source.slice_reorder fun i hi => exchange_of_lt (by omega))
      · exact congrArg Node.file (Source.slice_reorder fun i hi => exchange_front hi)
    · exact congrArg Node.file (Source.slice_reorder fun i hi => exchange_back hi)
  · intro offset n _
    refine congrArg Node.file (Source.slice_reorder fun i _ => ?_)
    rw [exchange_of_ge (by omega)]
    omega

end NoiseFile
