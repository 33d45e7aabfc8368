import NoiseFile.Proofs.Generate.Deed
import NoiseFile.Proofs.Sink

/-!
# An open file is a log

* `Use`, `OutputFile.useAll` : what can be done with an open file before it is closed, in any order;
* `World.Logging` : a world in which a file holds what was appended to it since it was opened, against the world before
  the opening (`ends_append_logging`, `ends_useAll`);
* `append_full`, `close_device` : what a device refuses;
* `appended_in_order` : a file holds what was appended to it in order, and nothing else; a device keeps nothing.
-/

namespace NoiseFile

open FileSystem

/-! ## Uses -/

inductive Use
  | append (bytes : ByteArray)
  | measure

def Use.bytes? : Use → Option ByteArray
  | .append bytes => some bytes
  | .measure => none

namespace OutputFile

/-- One use of a file; a size that is read is not needed. -/
def use (file : OutputFile Nat) : Use → ExceptT Failure (StateM World) Unit
  | .append bytes => file.append bytes
  | .measure => do
    let _ ← file.size
    return

/-- Uses of a file one after the other, until one fails. -/
def useAll (file : OutputFile Nat) : List Use → ExceptT Failure (StateM World) Unit
  | [] => return
  | use :: uses => do
    file.use use
    file.useAll uses

end OutputFile

theorem size_joined (pieces : List ByteArray) : (joined pieces).size = (pieces.map ByteArray.size).sum := by
  induction pieces with
  | nil => rfl
  | cons piece pieces ih =>
      have hjoined : joined (piece :: pieces) = piece ++ joined pieces := rfl
      rw [hjoined, ByteArray.size_append, ih, List.map_cons, List.sum_cons]

namespace World

/-- What the next operation on the file with the given path answers, if the storage lets it. -/
def answer {α : Type} (world : World) (path : String) (value : α) : Except Failure α :=
  match world.hitch world.operations with
  | none => .ok value
  | some hitch => .error (.file hitch.fault path)

theorem Unhitched.next {start world : World} (h : start.Unhitched) (hkept : start.Kept world) :
    world.hitch world.operations = none := by
  rw [hkept.hitch]
  exact h _ hkept.operations

theorem not_unhitched {start world : World} {hitch : Hitch} (hkept : start.Kept world)
    (h : world.hitch world.operations = some hitch) : ¬start.Unhitched := by
  intro hunhitched
  rw [hunhitched.next hkept] at h
  cases h

/-! ## Files -/

/-- A world in which a file at a place holds a log and is open at its end, against the world before it was opened. -/
structure Logging (start : World) (handle : Nat) (place : Place) (log : ByteArray) (world : World) : Prop where
  later : start.Kept world
  opened : world.opened[handle]? = some { place, offset := log.size }
  tree_eq : world.tree = start.tree.set place (.file log)

section File
variable {start world : World} {file : OutputFile Nat} {place : Place} {log : ByteArray}
  (hplace : place ≠ .named []) (h : start.Logging file.handle place log world)
include h

theorem Logging.node?_eq (hplace : place ≠ .named []) : world.tree.node? place = some (.file log) := by
  rw [h.tree_eq, Tree.node?_set_self hplace]

/-- The size of a file is the length of its log. -/
theorem Logging.runFrom_size (hplace : place ≠ .named []) :
    runFrom file.size world = (world.answer file.path (UInt64.ofNat log.size), world.begun) := by
  rw [World.runFrom_size, size_eq h.opened, answer, Tree.sizeAt, h.node?_eq hplace]
  cases world.hitch world.operations <;> rfl

theorem Logging.runFrom_close (hplace : place ≠ .named []) :
    runFrom file.close world = (world.answer file.path (), world.begun) := by
  rw [World.runFrom_close, sync_eq h.opened, answer, Tree.syncAt, h.node?_eq hplace]
  cases world.hitch world.operations <;> rfl

include hplace

/-- Bytes that are appended come behind the log, unless the storage fails. -/
theorem ends_append_logging (bytes : ByteArray) :
    Ends (fun _ after => start.Logging file.handle place (log ++ bytes) after) (fun _ _ => ¬start.Unhitched)
      (runFrom (file.append bytes) world) := by
  rw [runFrom_append]
  by_cases hsize : bytes.size = 0
  · obtain rfl : bytes = .empty := ByteArray.size_eq_zero_iff.mp hsize
    rw [write_empty hsize, ByteArray.append_empty]
    exact h
  rw [write_eq hsize]
  rcases hhitch : world.hitch world.operations with _ | hitch
  · have hopened : world.begun.opened[file.handle]? = some { place, offset := log.size } := h.opened
    have htree : world.begun.tree = start.tree.set place (.file log) := h.tree_eq
    have hwrite : (start.tree.set place (.file log)).writeAt place log.size bytes =
        .ok (start.tree.set place (.file (log ++ bytes))) := by
      rw [Tree.writeAt, if_neg hsize, Tree.node?_set_self hplace]
      dsimp only
      rw [overlay_end, Tree.set_set]
    have hhandle : file.handle < world.opened.length := (List.getElem?_eq_some_iff.mp h.opened).1
    dsimp only
    unfold put
    rw [hopened]
    dsimp only
    rw [htree, hwrite]
    exact {
      later := h.later.trans { kept_begun world with }
      opened := by
        rw [ByteArray.size_append]
        exact List.getElem?_set_self hhandle
      tree_eq := rfl }
  · exact not_unhitched h.later hhitch

theorem ends_use_logging (use : Use) :
    Ends (fun _ after => start.Logging file.handle place (log ++ use.bytes?.getD .empty) after)
      (fun _ _ => ¬start.Unhitched) (runFrom (file.use use) world) := by
  cases use with
  | append bytes => exact ends_append_logging hplace h bytes
  | measure =>
      refine ends_bind ?_
      rw [h.runFrom_size hplace, answer]
      rcases hhitch : world.hitch world.operations with _ | hitch
      · have hnothing : log ++ Use.measure.bytes?.getD .empty = log := ByteArray.append_empty
        rw [hnothing]
        exact { later := h.later.trans world.kept_begun, opened := h.opened, tree_eq := h.tree_eq }
      · exact not_unhitched h.later hhitch

theorem ends_useAll (uses : List Use) :
    Ends (fun _ after => start.Logging file.handle place (log ++ joined (uses.filterMap Use.bytes?)) after)
      (fun _ _ => ¬start.Unhitched) (runFrom (file.useAll uses) world) := by
  induction uses generalizing log world with
  | nil =>
      have hnothing : log ++ joined ([].filterMap Use.bytes?) = log := ByteArray.append_empty
      rw [hnothing]
      exact h
  | cons use uses ih =>
      refine ends_bind ((ends_use_logging hplace h use).mono (fun _ after hafter => ?_) fun _ _ hbroken => hbroken)
      have hjoined : log ++ joined ((use :: uses).filterMap Use.bytes?) =
          log ++ use.bytes?.getD .empty ++ joined (uses.filterMap Use.bytes?) := by
        cases use with
        | append bytes => exact ByteArray.append_assoc.symm
        | measure => exact congrArg (· ++ _) ByteArray.append_empty.symm
      rw [hjoined]
      exact ih hafter

end File

/-! ## Devices -/

section Device
variable {start world : World} {file : OutputFile Nat} {place : Place} {done : Nat} {device : Device}

/-- However a file is used, it stays open on what it was opened on. -/
theorem filling_useAll (h : start.Filling file.handle place done world) (uses : List Use) :
    ∃ done, start.Filling file.handle place done (runFrom (file.useAll uses) world).2 := by
  have hends : Ends (fun _ after => ∃ done, start.Filling file.handle place done after)
      (start.Broken file place) (runFrom (file.useAll uses) world) := by
    induction uses generalizing done world with
    | nil => exact ⟨done, h⟩
    | cons use uses ih =>
        refine ends_bind ?_
        cases use with
        | append bytes => exact (ends_append h bytes).mono (fun _ after hafter => ih hafter) fun _ _ hbroken => hbroken
        | measure =>
            refine ends_bind ((ends_size h).mono (fun _ after hafter => ?_) fun _ _ hbroken => hbroken)
            exact ih hafter.1
  rcases hrun : runFrom (file.useAll uses) world with ⟨failure | _, after⟩
  · rw [hrun] at hends
    exact hends.filling
  · rw [hrun] at hends
    exact hends

/-- A device does not change, and cannot be brought to storage. -/
theorem close_device (h : start.Filling file.handle place done world) (hdevice : start.tree.node? place = some (.device device)) :
    ∃ fault, runFrom file.close world = (.error (.file fault file.path), world.begun) ∧ world.tree = start.tree ∧
      (world.hitch world.operations = none → fault = .invalidInput) := by
  have htree : world.tree = start.tree := by
    cases h.stored with
    | file opened _ _ => exact absurd ⟨device, hdevice⟩ opened
    | device _ tree_eq => exact tree_eq
  have hsync : world.tree.syncAt place = .error .invalidInput := by
    rw [Tree.syncAt, htree, hdevice]
  rw [runFrom_close, sync_eq h.opened, hsync]
  rcases world.hitch world.operations with _ | hitch
  · exact ⟨.invalidInput, rfl, htree, fun _ => rfl⟩
  · exact ⟨hitch.fault, rfl, htree, fun hnone => absurd hnone (Option.some_ne_none _)⟩

theorem close_device_used (h : start.Filling file.handle place done world)
    (hdevice : start.tree.node? place = some (.device device)) (uses : List Use) :
    ∃ fault closed, runFrom file.close (runFrom (file.useAll uses) world).2 = (.error (.file fault file.path), closed) ∧
      closed.tree = start.tree ∧ (start.Unhitched → fault = .invalidInput) := by
  obtain ⟨done, hafter⟩ := filling_useAll h uses
  obtain ⟨fault, hclose, htree, hfault⟩ := close_device hafter hdevice
  refine ⟨fault, _, hclose, htree, fun hunhitched => hfault ?_⟩
  rw [hafter.hitch]
  exact hunhitched _ hafter.operations

theorem useAll_empty {buffers : List ByteArray} (h : ∀ bytes ∈ buffers, bytes.size = 0) (rest : List Use) (world : World) :
    runFrom (file.useAll (buffers.map .append ++ rest)) world = runFrom (file.useAll rest) world := by
  induction buffers with
  | nil => rfl
  | cons bytes buffers ih =>
      obtain ⟨hbytes, hbuffers⟩ := List.forall_mem_cons.mp h
      rw [← ih hbuffers]
      show runFrom (file.append bytes >>= fun _ => file.useAll (buffers.map .append ++ rest)) world = _
      rw [runFrom_bind, runFrom_append, write_empty hbytes]
      rfl

theorem writeAt_full {tree : Tree} (hdevice : tree.node? place = some (.device .full)) (offset : Nat)
    (bytes : ByteArray) :
    tree.writeAt place offset bytes = if bytes.size = 0 then .ok tree else .error .storageFull := by
  rw [Tree.writeAt, hdevice]

/-- A full device refuses the first bytes, even where the storage would have failed behind some of them. -/
theorem append_full {offset : Nat} (hopened : world.opened[file.handle]? = some { place, offset })
    (hdevice : world.tree.node? place = some (.device .full)) {bytes : ByteArray} (hsize : bytes.size ≠ 0) :
    ∃ fault after, runFrom (file.append bytes) world = (.error (.file fault file.path), after) ∧
      after.tree = world.tree ∧ (world.hitch world.operations = none → fault = .storageFull) := by
  have hput : ∀ bytes, put file.handle bytes world.begun =
      if bytes.size = 0 then (.ok (), { world.begun with
        opened := world.opened.set file.handle { place, offset := offset + bytes.size } })
      else (.error .storageFull, world.begun) := by
    intro bytes
    have hbegun : world.begun.opened[file.handle]? = some { place, offset } := hopened
    have htree : world.begun.tree = world.tree := rfl
    unfold put
    rw [hbegun]
    dsimp only
    rw [htree, writeAt_full hdevice]
    by_cases hempty : bytes.size = 0
    · rw [if_pos hempty, if_pos hempty]
      rfl
    · rw [if_neg hempty, if_neg hempty]
  rw [runFrom_append, write_eq hsize]
  rcases world.hitch world.operations with _ | hitch
  · rw [hput, if_neg hsize]
    exact ⟨.storageFull, world.begun, rfl, rfl, fun _ => rfl⟩
  · refine ⟨hitch.fault, _, rfl, ?_, fun hnone => absurd hnone (Option.some_ne_none _)⟩
    dsimp only
    rw [hput]
    split <;> rfl

theorem useAll_full {offset : Nat} (hopened : world.opened[file.handle]? = some { place, offset })
    (hdevice : world.tree.node? place = some (.device .full)) {buffers : List ByteArray}
    (hempty : ∀ bytes ∈ buffers, bytes.size = 0) {bytes : ByteArray} (hsize : bytes.size ≠ 0) (rest : List Use) :
    ∃ fault after, runFrom (file.useAll (buffers.map .append ++ .append bytes :: rest)) world =
        (.error (.file fault file.path), after) ∧
      after.tree = world.tree ∧ (world.hitch world.operations = none → fault = .storageFull) := by
  obtain ⟨fault, after, happend, hafter⟩ := append_full hopened hdevice hsize
  refine ⟨fault, after, ?_, hafter⟩
  rw [useAll_empty hempty]
  show runFrom (file.append bytes >>= fun _ => file.useAll rest) world = _
  rw [runFrom_bind, happend]

end Device

end World

/-! ## Opening -/

/-- A path to a file, or to where one can be made, can be opened. -/
theorem create_of_fileAt? {tree : Tree} {home : List String} {path : String} {names : List String}
    (h : tree.fileAt? home path = some names) :
    tree.create home path = .ok (tree.set (.named names) (.file .empty), .named names) ∧
      ∃ spot, resolve tree home .create path = .ok spot ∧ spot.file? = some names := by
  unfold Tree.fileAt? Tree.end? ending at h
  unfold Tree.create
  rcases hresolve : resolve tree home .create path with fault | ⟨found, _ | content | target | device⟩ | found
  all_goals
    rw [hresolve] at h
    cases h
  · exact ⟨rfl, _, rfl, rfl⟩
  · exact ⟨rfl, _, rfl, rfl⟩

/-- What is kept of the stretches that were appended to a file, in the tree in which the file is still open: a file that
is dropped is left like this, and one that is closed as well, since closing changes nothing. -/
structure Logged (start : World) (file : OutputFile Nat) (names : List String) (appended : List ByteArray)
    (after : World) : Prop where
  /-- The size is read as the sum of the lengths. -/
  size_eq : runFrom file.size after = (after.answer file.path (UInt64.ofNat (appended.map ByteArray.size).sum), after.begun)
  close_eq : runFrom file.close after = (after.answer file.path (), after.begun)
  node?_eq : after.tree.node? (.named names) = some (.file (joined appended))
  /-- The path leads to all that was appended, and to nothing else. -/
  read?_eq : after.tree.read? start.home file.path = some (joined appended)
  others : start.tree.Alike (.named names) after.tree

section Opened
variable {world after : World} {path : String} {names : List String}

theorem ne_root_of_fileAt? (hfile : world.tree.fileAt? world.home path = some names) : Place.named names ≠ .named [] :=
  Tree.ne_root_of_loose (Tree.loose_of_end? (Tree.fileAt?_eq_some_iff.mp hfile))

theorem logged_of_logging {file : OutputFile Nat} {appended : List ByteArray}
    (hfile : world.tree.fileAt? world.home file.path = some names)
    (h : world.Logging file.handle (.named names) (joined appended) after) : Logged world file names appended after := by
  have hplace := ne_root_of_fileAt? hfile
  have hnode := h.node?_eq hplace
  have halike : world.tree.Alike (.named names) after.tree := by
    rw [h.tree_eq]
    exact world.tree.alike_set _ _
  obtain ⟨-, spot, hresolve, hspot⟩ := create_of_fileAt? hfile
  refine ⟨?_, h.runFrom_close hplace, hnode, ?_, halike⟩
  · rw [h.runFrom_size hplace, size_joined]
  · have hbefore := node?_of_file? (isAt_resolve hresolve) hspot
    unfold Tree.read?
    rw [resolve_alike halike hnode hbefore (resolve_look hresolve) hspot]

/-- A file that is opened is logged from then on. -/
theorem ends_logged (hfile : world.tree.fileAt? world.home path = some names) (uses : List Use) :
    Ends (fun _ after => Logged world (world.nextFile path) names (uses.filterMap Use.bytes?) after ∧ world.Kept after)
      (fun _ _ => ¬world.Unhitched) (runFrom ((world.nextFile path).useAll uses)
        (world.opening (world.tree.set (.named names) (.file .empty)) (.named names))) := by
  have hopening : world.Logging (world.nextFile path).handle (.named names) .empty
      (world.opening (world.tree.set (.named names) (.file .empty)) (.named names)) :=
    ⟨{ World.Kept.refl world with }, List.getElem?_concat_length, rfl⟩
  refine (World.ends_useAll (ne_root_of_fileAt? hfile) hopening uses).mono (fun _ after hafter => ?_) fun _ _ h => h
  rw [ByteArray.empty_append] at hafter
  exact ⟨logged_of_logging hfile hafter, hafter.later⟩

end Opened

/-- Whatever is appended to a file that has been opened, and however often its size is read in between, the file holds
what was appended to it in order and nothing else, its size is the sum of the lengths, and no other entry of the tree
changes; none of this fails unless the storage does. A device does not change and cannot be closed; a full one takes
stretches without bytes and refuses the first that has some. -/
theorem appended_in_order (world : World) (path : String) :
    let create : ExceptT Failure (StateM World) (OutputFile Nat) := OutputFile.create path
    (∀ names, world.tree.fileAt? world.home path = some names →
      ∃ file opened, runFrom create world = (.ok file, opened) ∧ file.path = path ∧ ∀ uses,
        let appended := uses.filterMap Use.bytes?
        (world.Unhitched → ∃ after, runFrom (file.useAll uses) opened = (.ok (), after) ∧
          (runFrom file.size after).1 = .ok (UInt64.ofNat (appended.map ByteArray.size).sum) ∧
          (runFrom file.close after).1 = .ok ()) ∧
        ∀ after, runFrom (file.useAll uses) opened = (.ok (), after) → Logged world file names appended after) ∧
    ∀ names device, resolve world.tree world.home .create path = .ok (.taken names (.device device)) →
      ∃ file opened, runFrom create world = (.ok file, opened) ∧ opened.tree = world.tree ∧
        (∀ uses, ∃ fault closed, runFrom file.close (runFrom (file.useAll uses) opened).2 =
            (.error (.file fault path), closed) ∧
          closed.tree = world.tree ∧ (world.Unhitched → fault = .invalidInput)) ∧
        (device = .full → ∀ buffers : List ByteArray, (∀ bytes ∈ buffers, bytes.size = 0) →
          runFrom (file.useAll (buffers.map .append)) opened = (.ok (), opened) ∧
          ∀ bytes rest, bytes.size ≠ 0 → ∃ fault after,
            runFrom (file.useAll (buffers.map .append ++ .append bytes :: rest)) opened =
              (.error (.file fault path), after) ∧
            after.tree = world.tree ∧ (world.Unhitched → fault = .storageFull)) := by
  intro create
  refine ⟨fun names hfile => ?_, fun names device hdevice => ?_⟩
  · refine ⟨_, _, runFrom_create_ok (create_of_fileAt? hfile).1, rfl, fun uses => ?_⟩
    have hends := ends_logged hfile uses
    rcases hrun : runFrom ((world.nextFile path).useAll uses) _ with ⟨failure | _, after⟩
    · rw [hrun] at hends
      refine ⟨fun hunhitched => absurd hunhitched hends, ?_⟩
      rintro _ ⟨⟩
    · rw [hrun] at hends
      obtain ⟨hlogged, hkept⟩ := hends
      refine ⟨fun hunhitched => ⟨after, rfl, ?_, ?_⟩, ?_⟩
      · rw [hlogged.size_eq, World.answer, hunhitched.next hkept]
      · rw [hlogged.close_eq, World.answer, hunhitched.next hkept]
      · rintro _ ⟨⟩
        exact hlogged
  · have hcreate : world.tree.create world.home path = .ok (world.tree, .named names) := by
      unfold Tree.create
      rw [hdevice]
    have hnode : world.tree.node? (.named names) = some (.device device) := isAt_resolve hdevice
    have hfilling := filling_opening hcreate
    have hclose := World.close_device_used hfilling hnode
    refine ⟨_, _, runFrom_create_ok hcreate, rfl, hclose, ?_⟩
    rintro rfl buffers hempty
    refine ⟨?_, fun bytes rest hsize => ?_⟩
    · rw [← List.append_nil (buffers.map Use.append), World.useAll_empty hempty]
      rfl
    · obtain ⟨fault, after, hrun, htree, hfault⟩ := World.useAll_full hfilling.opened hnode hempty hsize rest
      exact ⟨fault, after, hrun, htree, fun hunhitched => hfault (hunhitched world.operations (Nat.le_refl _))⟩

/-- Three bytes into a file of five behind a link, and one byte, behind none, into a full device. -/
theorem appended_in_order_behind_link :
    let tree : Tree := ⟨[(.named ["d"], .directory), (.named ["d", "f"], .file ⟨#[9, 9, 9, 9, 9]⟩),
      (.named ["l"], .link "d/f"), (.named ["z"], .device .full)]⟩
    let world : World := { tree, home := [], source := { byteAt := fun _ => 7, cut := fun _ => none } }
    let create (path : String) : ExceptT Failure (StateM World) (OutputFile Nat) := OutputFile.create path
    let uses : List Use := [.append ⟨#[1, 2]⟩, .measure, .append .empty, .append ⟨#[3]⟩]
    world.Unhitched ∧
      (world.tree.fileAt? world.home "l" = some ["d", "f"] ∧ ∃ file opened after,
        runFrom (create "l") world = (.ok file, opened) ∧ runFrom (file.useAll uses) opened = (.ok (), after) ∧
        (runFrom file.size after).1 = .ok 3 ∧ (runFrom file.close after).1 = .ok () ∧
        after.tree.read? world.home "l" = some ⟨#[1, 2, 3]⟩) ∧
      resolve world.tree world.home .create "z" = .ok (.taken ["z"] (.device .full)) ∧ ∃ file opened after closed,
        runFrom (create "z") world = (.ok file, opened) ∧
        runFrom (file.useAll [.append .empty, .append ⟨#[1]⟩, .measure]) opened =
          (.error (.file .storageFull "z"), after) ∧
        after.tree = world.tree ∧
        runFrom file.close (runFrom (file.useAll uses) opened).2 = (.error (.file .invalidInput "z"), closed) := by
  intro tree world create uses
  have hunhitched : world.Unhitched := fun _ _ => rfl
  have hfile : world.tree.fileAt? world.home "l" = some ["d", "f"] := rfl
  have hdevice : resolve world.tree world.home .create "z" = .ok (.taken ["z"] (.device .full)) := rfl
  obtain ⟨file, opened, hcreate, hpath, huses⟩ := (appended_in_order world "l").1 _ hfile
  obtain ⟨hall, hlogged⟩ := huses uses
  obtain ⟨after, hrun, hsize, hclose⟩ := hall hunhitched
  have hread := (hlogged after hrun).read?_eq
  rw [hpath] at hread
  refine ⟨hunhitched, ⟨hfile, file, opened, after, hcreate, hrun, hsize, hclose, hread⟩, hdevice, ?_⟩
  obtain ⟨file, opened, hcreate, -, hcloses, hfull⟩ := (appended_in_order world "z").2 _ _ hdevice
  obtain ⟨fault, closed, hclose, -, hfault⟩ := hcloses uses
  obtain ⟨-, hrefuses⟩ := hfull rfl [.empty] (by simp)
  obtain ⟨fault', after, hrun, htree, hfault'⟩ := hrefuses ⟨#[1]⟩ [.measure] (by decide)
  rw [hfault hunhitched] at hclose
  rw [hfault' hunhitched] at hrun
  exact ⟨file, opened, after, closed, hcreate, hrun, htree, hclose⟩

end NoiseFile
