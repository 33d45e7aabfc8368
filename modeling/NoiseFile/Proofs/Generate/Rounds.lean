import NoiseFile.Proofs.Chunks.Drain
import NoiseFile.Proofs.World

/-!
# The rounds of writing a file

Which round of writing a file fails, and how, can be told from the world in which the file was opened: by the cuts of the
source and the hitches of the storage in the order in which they are met, and by what stands at the place.

* `World.roundFailure?`, `writingFailure?` : the failure of a round, and of the first round that fails;
* `World.sizeFailure?`, `syncFailure?` : the failures behind the last round;
* `World.Rounds` : a world in which a number of rounds has been made and none has failed; `round_told` : one more round,
  from its two halves (`rounds_draw`, `rounds_append`);
* `ends_drain_rounds` : writing fails as the first round that fails does.
-/

namespace NoiseFile

open FileSystem

/-! ## What is met -/

/-- What stands against writing bytes at a place. -/
def FileSystem.Tree.writeRefusal? (tree : Tree) (place : Place) : Option SystemFault :=
  match tree.node? place with
  | some (.device .full) => some .storageFull
  | _ => none

/-- What stands against bringing a place to storage. -/
def FileSystem.Tree.syncRefusal? (tree : Tree) (place : Place) : Option SystemFault :=
  match tree.node? place with
  | some (.device _) => some .invalidInput
  | _ => none

namespace World

/-- The fault of the operation that comes behind `n` others: that of the storage, or else what stands against it. -/
def fault? (opened : World) (n : Nat) (refusal? : Option SystemFault) : Option SystemFault :=
  match opened.hitch (opened.operations + n) with
  | some hitch => some hitch.fault
  | none => refusal?

/-- The failure of a round behind `n` others, first of its draw and then of its write. -/
def roundFailure? (opened : World) (path : String) (place : Place) (n : Nat) : Option Failure :=
  match opened.source.cut (opened.cursor.calls + n) with
  | some cut => some (.random cut.reason)
  | none => (opened.fault? n (opened.tree.writeRefusal? place)).map (.file · path)

/-- The failure of the first of `count` rounds that fails. -/
def writingFailure? (opened : World) (path : String) (place : Place) (count : Nat) : Option Failure :=
  (List.range count).findSome? (opened.roundFailure? path place)

def sizeFailure? (opened : World) (path : String) (count : Nat) : Option Failure :=
  (opened.fault? count none).map (.file · path)

def syncFailure? (opened : World) (path : String) (place : Place) (count : Nat) : Option Failure :=
  (opened.fault? (count + 1) (opened.tree.syncRefusal? place)).map (.file · path)

/-- A world in which `n` rounds have been made without a failure, against the world in which the file was opened. -/
structure Rounds (opened : World) (path : String) (place : Place) (n : Nat) (world : World) : Prop where
  operations : world.operations = opened.operations + n
  calls : world.cursor.calls = opened.cursor.calls + n
  clear : opened.writingFailure? path place n = none

theorem rounds_start (opened : World) (path : String) (place : Place) : opened.Rounds path place 0 opened :=
  ⟨rfl, rfl, rfl⟩

section Failures
variable {opened : World} {path : String} {place : Place} {n count : Nat}

theorem writingFailure?_succ : opened.writingFailure? path place (n + 1) =
    (opened.writingFailure? path place n).or (opened.roundFailure? path place n) := by
  rw [writingFailure?, List.range_succ, List.findSome?_append, List.findSome?_singleton]
  rfl

theorem writingFailure?_of_lt {failure : Failure} (hclear : opened.writingFailure? path place n = none)
    (hround : opened.roundFailure? path place n = some failure) (hlt : n < count) :
    opened.writingFailure? path place count = some failure := by
  obtain ⟨more, rfl⟩ := Nat.exists_eq_add_of_le hlt
  have hfirst : opened.writingFailure? path place (n + 1) = some failure := by
    rw [writingFailure?_succ, hclear, hround]
    rfl
  rw [writingFailure?, List.range_add, List.findSome?_append, ← writingFailure?, hfirst, Option.some_or]

/-- Only a device stands against anything. -/
theorem refusals_of_not_isDevice (hfile : ¬opened.IsDevice place) :
    opened.tree.writeRefusal? place = none ∧ opened.tree.syncRefusal? place = none := by
  unfold Tree.writeRefusal? Tree.syncRefusal?
  constructor
  all_goals
    split
    · next hdevice => exact absurd ⟨_, hdevice⟩ hfile
    · rfl

end Failures

/-! ## One round -/

section Round
variable {opened world : World} {file : OutputFile Nat} {place : Place} {done n : Nat}
  (h : opened.Filling file.handle place done world)
include h

theorem rounds_draw (hrounds : opened.Rounds file.path place n world) (size : Nat) :
    match World.draw size world with
    | (.short _ _ reason, _) => opened.roundFailure? file.path place n = some (.random reason)
    | (.full _ _, drawn) => opened.source.cut (opened.cursor.calls + n) = none ∧
        drawn.operations = opened.operations + n ∧ drawn.cursor.calls = opened.cursor.calls + (n + 1) := by
  have hcut : world.source.cut world.cursor.calls = opened.source.cut (opened.cursor.calls + n) := by
    rw [h.source, hrounds.calls]
  unfold World.draw Source.deal
  rw [hcut]
  rcases hnext : opened.source.cut (opened.cursor.calls + n) with _ | cut
  · exact ⟨rfl, hrounds.operations, congrArg (· + 1) hrounds.calls⟩
  · simp only [roundFailure?, hnext]

/-- Bytes are refused by what stands at the place, and by nothing else. -/
theorem put_refusal {bytes : ByteArray} (hsize : bytes.size ≠ 0) :
    match put file.handle bytes world with
    | (.ok (), after) => opened.tree.writeRefusal? place = none ∧ after.operations = world.operations ∧
        after.cursor = world.cursor
    | (.error fault, _) => opened.tree.writeRefusal? place = some fault := by
  unfold put
  rw [h.opened]
  dsimp only
  rw [Tree.writeAt, if_neg hsize]
  cases h.stored with
  | file hfile node_eq _ =>
      rw [node_eq]
      exact ⟨(refusals_of_not_isDevice hfile).1, rfl, rfl⟩
  | @device device hdevice tree_eq =>
      rw [tree_eq, hdevice, Tree.writeRefusal?, hdevice]
      cases device with
      | null => exact ⟨rfl, rfl, rfl⟩
      | full => rfl

theorem rounds_append {bytes : ByteArray} (hsize : bytes.size ≠ 0)
    (hclear : opened.writingFailure? file.path place n = none)
    (hcut : opened.source.cut (opened.cursor.calls + n) = none) (hoperations : world.operations = opened.operations + n)
    (hcalls : world.cursor.calls = opened.cursor.calls + (n + 1)) :
    Ends (fun _ after => opened.Rounds file.path place (n + 1) after)
      (fun failure _ => opened.roundFailure? file.path place n = some failure) (runFrom (file.append bytes) world) := by
  have hhitch : world.hitch world.operations = opened.hitch (opened.operations + n) := by rw [h.hitch, hoperations]
  rw [runFrom_append, write_eq hsize, hhitch]
  rcases hnext : opened.hitch (opened.operations + n) with _ | hitch
  · have hround : opened.roundFailure? file.path place n =
        (opened.tree.writeRefusal? place).map (.file · file.path) := by
      simp only [roundFailure?, hcut, fault?, hnext]
    have hput := put_refusal h.begun hsize
    dsimp only
    rcases hafter : put file.handle bytes world.begun with ⟨fault | _, after⟩
    · rw [hafter] at hput
      show opened.roundFailure? file.path place n = _
      rw [hround, hput]
      rfl
    · rw [hafter] at hput
      obtain ⟨hrefusal, hput, hcursor⟩ := hput
      refine ⟨?_, ?_, ?_⟩
      · rw [hput]
        exact congrArg (· + 1) hoperations
      · rw [hcursor]
        exact hcalls
      · rw [writingFailure?_succ, hclear, hround, hrefusal]
        rfl
  · show opened.roundFailure? file.path place n = _
    simp only [roundFailure?, hcut, fault?, hnext]
    rfl

/-- One round: a draw, and the write of what was drawn. -/
theorem round_told (hrounds : opened.Rounds file.path place n world) {size : Nat} (hpos : 0 < size) :
    match World.draw size world with
    | (.short _ _ reason, after) => opened.Broken file place (.random reason) after ∧
        opened.roundFailure? file.path place n = some (.random reason)
    | (.full bytes _, drawn) =>
      Ends (fun _ after => opened.Filling file.handle place (done + size) after ∧
          opened.Rounds file.path place (n + 1) after)
        (fun failure after => opened.Broken file place failure after ∧
          opened.roundFailure? file.path place n = some failure)
        (runFrom (file.append bytes) drawn) := by
  have hdraw := filling_draw h size
  have htold := rounds_draw h hrounds size
  rcases hdrawn : World.draw size world with ⟨⟨bytes, hsize⟩ | ⟨_, _, reason⟩, drawn⟩
  all_goals rw [hdrawn] at hdraw htold
  · obtain ⟨hcut, hoperations, hcalls⟩ := htold
    have happend := rounds_append hdraw (by omega : bytes.size ≠ 0) hrounds.clear hcut hoperations hcalls
    have hends := (ends_append hdraw bytes).and happend
    rw [hsize] at hends
    exact hends
  · exact ⟨hdraw, htold⟩

/-! ## Behind the last round -/

theorem size_told (hrounds : opened.Rounds file.path place n world) :
    Ends (fun _ after => opened.sizeFailure? file.path n = none ∧ after.operations = opened.operations + (n + 1))
      (fun failure _ => opened.sizeFailure? file.path n = some failure) (runFrom file.size world) := by
  have hhitch : world.hitch world.operations = opened.hitch (opened.operations + n) := by
    rw [h.hitch, hrounds.operations]
  rw [runFrom_size, size_eq h.opened, hhitch]
  rcases hnext : opened.hitch (opened.operations + n) with _ | hitch
  · refine ⟨?_, congrArg (· + 1) hrounds.operations⟩
    simp only [sizeFailure?, fault?, hnext, Option.map_none]
  · show opened.sizeFailure? file.path n = _
    simp only [sizeFailure?, fault?, hnext]
    rfl

theorem syncAt_eq : world.tree.syncAt place = match opened.tree.syncRefusal? place with
    | none => .ok ()
    | some fault => .error fault := by
  cases h.stored with
  | file hfile node_eq _ => rw [(refusals_of_not_isDevice hfile).2, Tree.syncAt, node_eq]
  | device hdevice tree_eq => rw [Tree.syncAt, Tree.syncRefusal?, tree_eq, hdevice]

theorem close_told (hoperations : world.operations = opened.operations + (n + 1)) :
    Ends (fun _ _ => opened.syncFailure? file.path place n = none)
      (fun failure _ => opened.syncFailure? file.path place n = some failure) (runFrom file.close world) := by
  have hhitch : world.hitch world.operations = opened.hitch (opened.operations + (n + 1)) := by rw [h.hitch, hoperations]
  rw [runFrom_close, sync_eq h.opened, hhitch, syncAt_eq h]
  rcases hnext : opened.hitch (opened.operations + (n + 1)) with _ | hitch
  · rcases hrefusal : opened.tree.syncRefusal? place with _ | fault
    · show opened.syncFailure? file.path place n = none
      simp only [syncFailure?, fault?, hnext, hrefusal, Option.map_none]
    · show opened.syncFailure? file.path place n = _
      simp only [syncFailure?, fault?, hnext, hrefusal]
      rfl
  · show opened.syncFailure? file.path place n = _
    simp only [syncFailure?, fault?, hnext]
    rfl

end Round

/-! ## All rounds -/

/-- Writing fills the file with the whole target, or fails as the first round that fails does. -/
theorem ends_drain_rounds {opened : World} {file : OutputFile Nat} {place : Place} {chunk : Nat} (hchunk : 0 < chunk)
    (target : Nat) (hfilling : opened.Filling file.handle place 0 opened) :
    Ends (fun _ after => opened.Filling file.handle place target after ∧
        opened.Rounds file.path place (chunkSizes chunk target).length after)
      (fun failure after => opened.Broken file place failure after ∧
        opened.writingFailure? file.path place (chunkSizes chunk target).length = some failure)
      (runFrom (drain World.draw file.append chunk hchunk target) opened) := by
  have hloop : Ends (fun rounds after => opened.Filling file.handle place target after ∧
        opened.Rounds file.path place rounds after ∧
        rounds + (chunkSizes chunk (target - target)).length = (chunkSizes chunk target).length)
      (fun failure after => opened.Broken file place failure after ∧
        opened.writingFailure? file.path place (chunkSizes chunk target).length = some failure)
      (runFrom (drain World.draw file.append chunk hchunk target) opened) := by
    refine ends_drain_done (fun rounds done world => opened.Filling file.handle place done world ∧
        opened.Rounds file.path place rounds world ∧
        rounds + (chunkSizes chunk (target - done)).length = (chunkSizes chunk target).length) hchunk
      (fun rounds done remaining world hpos hdone hinv => ?_)
      ⟨hfilling, rounds_start opened file.path place, Nat.zero_add _⟩
    obtain ⟨hworld, hrounds, hcount⟩ := hinv
    obtain rfl : target = done + remaining := hdone.symm
    rw [Nat.add_sub_cancel_left, chunkSizes_of_pos hchunk hpos, List.length_cons] at hcount
    have hleft : done + remaining - (done + min chunk remaining) = remaining - min chunk remaining :=
      Nat.add_sub_add_left ..
    have hlast {failure : Failure} (hround : opened.roundFailure? file.path place rounds = some failure) :
        opened.writingFailure? file.path place (chunkSizes chunk (done + remaining)).length = some failure :=
      writingFailure?_of_lt hrounds.clear hround (by omega)
    have hround := round_told hworld hrounds (by omega : 0 < min chunk remaining)
    rcases hdrawn : World.draw (min chunk remaining) world with ⟨⟨bytes, _⟩ | ⟨_, _, reason⟩, drawn⟩
    all_goals rw [hdrawn] at hround
    · refine hround.mono (fun _ after hafter => ?_) fun _ _ hbroken => ⟨hbroken.1, hlast hbroken.2⟩
      rw [hleft]
      exact ⟨hafter.1, hafter.2, by omega⟩
    · exact ⟨hround.1, hlast hround.2⟩
  apply hloop.mono _ fun _ _ hbroken => hbroken
  intro rounds after hafter
  obtain ⟨hworld, hrounds, hcount⟩ := hafter
  rw [Nat.sub_self, chunkSizes_zero, List.length_nil, Nat.add_zero] at hcount
  rw [← hcount]
  exact ⟨hworld, hrounds⟩

end World

end NoiseFile
