import NoiseFile.OutputFile
import NoiseFile.Proofs.FileSystem.Walk
import NoiseFile.Proofs.Stateful
import NoiseFile.World

/-!
# Filling an open file

* `World.Unhitched`, `World.Faultless` : the storage has no failure ahead, and neither has the random source;
* `World.Filling` : a world in which a file is being filled, against the world in which it was opened: nothing else is
  touched, and what stands at its place is `Stored`;
* `World.Broken` : how an operation on the file fails. In a faultless world only a device does that;
* `ends_append`, `ends_size`, `ends_close`, `filling_draw` : what each operation does to a file that is being filled.
-/

namespace NoiseFile.World

open FileSystem

/-! ## Operations in one piece -/

def begun (world : World) : World := { world with operations := world.operations + 1 }

theorem nextHitch_bind {α : Type} (next : Option Hitch → StateM World α) (world : World) :
    (nextHitch >>= next) world = next (world.hitch world.operations) world.begun := rfl

theorem get_bind {α : Type} (next : World → StateM World α) (world : World) : (get >>= next) world = next world world :=
  rfl

theorem write_empty {bytes : ByteArray} (h : bytes.size = 0) (handle : Nat) (world : World) :
    World.write handle bytes world = (.ok (), world) := by
  unfold World.write
  rw [if_pos h]
  rfl

theorem write_eq {bytes : ByteArray} (h : bytes.size ≠ 0) (handle : Nat) (world : World) :
    World.write handle bytes world = match world.hitch world.operations with
      | none => put handle bytes world.begun
      | some hitch =>
        (.error hitch.fault, (put handle (bytes.extract 0 (min hitch.after bytes.size)) world.begun).2) := by
  unfold World.write
  rw [if_neg h, nextHitch_bind]
  cases world.hitch world.operations <;> rfl

theorem size_eq {handle : Nat} {file : OpenFile} {world : World} (h : world.opened[handle]? = some file) :
    World.size handle world = (match world.hitch world.operations with
      | none => .ok (UInt64.ofNat (world.tree.sizeAt file.place))
      | some hitch => .error hitch.fault, world.begun) := by
  unfold World.size
  rw [nextHitch_bind]
  cases world.hitch world.operations with
  | none =>
      have hbegun : world.begun.opened[handle]? = some file := h
      dsimp only
      rw [get_bind, hbegun]
      rfl
  | some hitch => rfl

theorem sync_eq {handle : Nat} {file : OpenFile} {world : World} (h : world.opened[handle]? = some file) :
    World.sync handle world = (match world.hitch world.operations with
      | none => world.tree.syncAt file.place
      | some hitch => .error hitch.fault, world.begun) := by
  unfold World.sync
  rw [nextHitch_bind]
  cases world.hitch world.operations with
  | none =>
      have hbegun : world.begun.opened[handle]? = some file := h
      dsimp only
      rw [get_bind, hbegun]
      rfl
  | some hitch => rfl

/-! ## What is kept while a file is filled -/

/-- The storage has no failure ahead: no write to an open file fails, no reading of its size, and no sync. -/
def Unhitched (world : World) : Prop := ∀ n, world.operations ≤ n → world.hitch n = none

/-- Neither the storage nor the random source has a failure ahead. -/
structure Faultless (world : World) : Prop where
  hitch : world.Unhitched
  cut : ∀ n, world.cursor.calls ≤ n → world.source.cut n = none

def IsDevice (world : World) (place : Place) : Prop := ∃ device, world.tree.node? place = some (.device device)

/-- What stands at a place after `done` bytes have been written there: a file of that size, or a device, which keeps
nothing. -/
inductive Stored (start : World) (place : Place) (done : Nat) (tree : Tree) : Prop
  | file {content : ByteArray} (opened : ¬start.IsDevice place) (node_eq : tree.node? place = some (.file content))
    (size_eq : content.size = done)
  | device {device : Device} (opened : start.tree.node? place = some (.device device)) (tree_eq : tree = start.tree)

/-- A world in which `done` bytes have been written to a file, against the world in which the file was opened. -/
structure Filling (start : World) (handle : Nat) (place : Place) (done : Nat) (world : World) : Prop where
  opened : world.opened[handle]? = some { place, offset := done }
  stored : Stored start place done world.tree
  alike : start.tree.Alike place world.tree
  hitch : world.hitch = start.hitch
  source : world.source = start.source
  operations : start.operations ≤ world.operations
  calls : start.cursor.calls ≤ world.cursor.calls

/-- A failed operation on a file that is being filled. -/
structure Broken (start : World) (file : OutputFile Nat) (place : Place) (failure : Failure) (after : World) : Prop where
  cause : (∃ reason, failure = .random reason) ∨ ∃ fault, failure = .file fault file.path
  filling : ∃ done, start.Filling file.handle place done after
  faultless : start.Faultless → start.IsDevice place

section Filling
variable {start world : World} {handle : Nat} {place : Place} {done : Nat}

theorem Filling.begun (h : start.Filling handle place done world) : start.Filling handle place done world.begun :=
  { h with operations := Nat.le_succ_of_le h.operations }

theorem Filling.hitch_eq_none (h : start.Filling handle place done world) (hfaultless : start.Faultless) :
    world.hitch world.operations = none := by
  rw [h.hitch]
  exact hfaultless.hitch _ h.operations

theorem Filling.cut_eq_none (h : start.Filling handle place done world) (hfaultless : start.Faultless) :
    world.source.cut world.cursor.calls = none := by
  rw [h.source]
  exact hfaultless.cut _ h.calls

theorem stored_writeAt {tree : Tree} (h : Stored start place done tree) (bytes : ByteArray) :
    match tree.writeAt place done bytes with
    | .ok after => Stored start place (done + bytes.size) after ∧ tree.Alike place after
    | .error _ => start.IsDevice place := by
  unfold Tree.writeAt
  by_cases hsize : bytes.size = 0
  · rw [if_pos hsize, hsize]
    exact ⟨h, .refl place tree⟩
  rw [if_neg hsize]
  cases h with
  | file opened node_eq size_eq =>
      have hplace : place ≠ .named [] := by
        rintro rfl
        rw [tree.node?_root] at node_eq
        cases node_eq
      simp only [node_eq]
      refine ⟨.file opened (Tree.node?_set_self hplace tree _) ?_, tree.alike_set place _⟩
      rw [size_overlay, size_eq]
      omega
  | @device device opened tree_eq =>
      subst tree_eq
      cases device with
      | null =>
          simp only [opened]
          exact ⟨.device opened rfl, .refl place start.tree⟩
      | full =>
          simp only [opened]
          exact ⟨.full, opened⟩

theorem filling_put (h : start.Filling handle place done world) (bytes : ByteArray) :
    match put handle bytes world with
    | (.ok (), after) => start.Filling handle place (done + bytes.size) after
    | (.error _, after) => start.Filling handle place done after ∧ start.IsDevice place := by
  have hwrite := stored_writeAt h.stored bytes
  unfold put
  simp only [h.opened]
  rcases hafter : world.tree.writeAt place done bytes with fault | tree
  · rw [hafter] at hwrite
    exact ⟨h, hwrite⟩
  · rw [hafter] at hwrite
    have hhandle : handle < world.opened.length := (List.getElem?_eq_some_iff.mp h.opened).1
    exact { h with
      opened := List.getElem?_set_self hhandle
      stored := hwrite.1
      alike := h.alike.trans hwrite.2 }

theorem filling_draw {file : OutputFile Nat} (h : start.Filling file.handle place done world) (n : Nat) :
    match World.draw n world with
    | (.short _ _ reason, after) => start.Broken file place (.random reason) after
    | (.full _ _, after) => start.Filling file.handle place done after := by
  have hcalls : start.cursor.calls ≤ world.cursor.calls + 1 := Nat.le_succ_of_le h.calls
  unfold World.draw Source.deal
  rcases hcut : world.source.cut world.cursor.calls with _ | cut
  · exact { h with calls := hcalls }
  · refine ⟨.inl ⟨_, rfl⟩, ⟨done, { h with calls := hcalls }⟩, ?_⟩
    intro hfaultless
    rw [h.cut_eq_none hfaultless] at hcut
    cases hcut

end Filling

/-! ## Operations on the file -/

theorem runFrom_append (file : OutputFile Nat) (bytes : ByteArray) (world : World) :
    runFrom (file.append bytes) world =
      ((World.write file.handle bytes world).1.mapError (Failure.file · file.path),
        (World.write file.handle bytes world).2) := rfl

theorem runFrom_size (file : OutputFile Nat) (world : World) :
    runFrom file.size world =
      ((World.size file.handle world).1.mapError (Failure.file · file.path), (World.size file.handle world).2) := rfl

theorem runFrom_close (file : OutputFile Nat) (world : World) :
    runFrom file.close world =
      ((World.sync file.handle world).1.mapError (Failure.file · file.path), (World.sync file.handle world).2) := rfl

section File
variable {start world : World} {file : OutputFile Nat} {place : Place} {done : Nat}
  (h : start.Filling file.handle place done world)
include h

theorem broken_of_hitch {hitch : Hitch} {after : World} (hhitch : world.hitch world.operations = some hitch)
    (hafter : ∃ done, start.Filling file.handle place done after) :
    start.Broken file place (.file hitch.fault file.path) after := by
  refine ⟨.inr ⟨hitch.fault, rfl⟩, hafter, ?_⟩
  intro hfaultless
  rw [h.hitch_eq_none hfaultless] at hhitch
  cases hhitch

theorem ends_append (bytes : ByteArray) :
    Ends (fun _ after => start.Filling file.handle place (done + bytes.size) after) (start.Broken file place)
      (runFrom (file.append bytes) world) := by
  rw [runFrom_append]
  by_cases hsize : bytes.size = 0
  · rw [write_empty hsize, hsize]
    exact h
  rw [write_eq hsize]
  rcases hhitch : world.hitch world.operations with _ | hitch
  · have hput := filling_put h.begun bytes
    dsimp only
    rcases hafter : put file.handle bytes world.begun with ⟨fault | _, after⟩
    · rw [hafter] at hput
      exact ⟨.inr ⟨fault, rfl⟩, ⟨done, hput.1⟩, fun _ => hput.2⟩
    · rw [hafter] at hput
      exact hput
  · -- the bytes before the failure may be in the file
    have hput := filling_put h.begun (bytes.extract 0 (min hitch.after bytes.size))
    apply broken_of_hitch h hhitch
    dsimp only
    rcases hafter : put file.handle (bytes.extract 0 (min hitch.after bytes.size)) world.begun with ⟨fault | _, after⟩
    · rw [hafter] at hput
      exact ⟨_, hput.1⟩
    · rw [hafter] at hput
      exact ⟨_, hput⟩

theorem ends_size :
    Ends (fun size after => start.Filling file.handle place done after ∧
        (¬start.IsDevice place → size = UInt64.ofNat done)) (start.Broken file place)
      (runFrom file.size world) := by
  rw [runFrom_size, size_eq h.opened]
  rcases hhitch : world.hitch world.operations with _ | hitch
  · refine ⟨h.begun, ?_⟩
    intro hfile
    cases h.stored with
    | file opened node_eq size_eq => rw [Tree.sizeAt, node_eq, ← size_eq]
    | device opened _ => exact absurd ⟨_, opened⟩ hfile
  · exact broken_of_hitch h hhitch ⟨done, h.begun⟩

theorem ends_close :
    Ends (fun _ after => start.Filling file.handle place done after ∧ ¬start.IsDevice place) (start.Broken file place)
      (runFrom file.close world) := by
  rw [runFrom_close, sync_eq h.opened]
  rcases hhitch : world.hitch world.operations with _ | hitch
  · cases h.stored with
    | file opened node_eq size_eq =>
        simp only [Tree.syncAt, node_eq]
        exact ⟨h.begun, opened⟩
    | device opened tree_eq =>
        simp only [Tree.syncAt, tree_eq, opened]
        exact ⟨.inr ⟨_, rfl⟩, ⟨done, h.begun⟩, fun _ => ⟨_, opened⟩⟩
  · exact broken_of_hitch h hhitch ⟨done, h.begun⟩

end File

end NoiseFile.World
