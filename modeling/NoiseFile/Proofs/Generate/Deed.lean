import NoiseFile.Proofs.FileSystem.Skeleton
import NoiseFile.Proofs.Generate.Frame

/-!
# Generations where nothing fails

* `Deed` : the bytes that a generation draws, and the file that they end up in; `Request.deed` tells it from the request
  and from where its path leads;
* `pouring_writing` : a file that takes every byte holds the bytes of the source, in order and nothing else;
* `generate_deed` : where nothing fails, a generation does its deed and changes nothing else of the tree.
-/

namespace NoiseFile

open FileSystem

theorem overlay_end (content bytes : ByteArray) : overlay content content.size bytes = content ++ bytes := by
  have hbefore : content.extract 0 content.size = content := by simp
  have hafter : content.extract (content.size + bytes.size) content.size = .empty := by simp
  have hgap : zeros 0 = .empty := rfl
  rw [overlay, Nat.sub_self, hgap, hbefore, hafter, ByteArray.append_empty, ByteArray.append_empty]

/-! ## Pouring -/

namespace World

/-- A world in which `done` bytes have been poured into an open file, which has made the tree into `kept done`. -/
structure Pouring (start : World) (handle : Nat) (place : Place) (kept : Nat → Tree) (done : Nat) (world : World) :
    Prop where
  later : start.Kept world
  opened : world.opened[handle]? = some { place, offset := done }
  tree_eq : world.tree = kept done
  position_eq : world.cursor.position = start.cursor.position + done

/-- The world after a draw that does not fail. -/
def drawn (world : World) (n : Nat) : World :=
  { world with cursor := { calls := world.cursor.calls + 1, position := world.cursor.position + n } }

theorem draw_of_faultless {world : World} (h : world.Faultless) (n : Nat) :
    World.draw n world =
      (.full (world.source.slice world.cursor.position n) (world.source.size_slice _ _), world.drawn n) := by
  have hcut : world.source.cut world.cursor.calls = none := h.cut _ (Nat.le_refl _)
  unfold World.draw Source.deal
  simp only [hcut]
  rfl

theorem runFrom_append_of_faultless {file : OutputFile Nat} {opened : OpenFile} {world : World} (h : world.Faultless)
    (hopened : world.opened[file.handle]? = some opened) {bytes : ByteArray} (hsize : bytes.size ≠ 0) :
    runFrom (file.append bytes) world = match world.tree.writeAt opened.place opened.offset bytes with
      | .error fault => (.error (.file fault file.path), world.begun)
      | .ok tree => (.ok (), { world.begun with
          tree, opened := world.opened.set file.handle { opened with offset := opened.offset + bytes.size } }) := by
  have hhitch : world.hitch world.operations = none := h.hitch _ (Nat.le_refl _)
  have hbegun : world.begun.opened[file.handle]? = some opened := hopened
  rw [runFrom_append, write_eq hsize, hhitch]
  unfold put
  rw [hbegun]
  dsimp only
  have htree : world.begun.tree = world.tree := rfl
  rw [htree]
  rcases world.tree.writeAt opened.place opened.offset bytes with fault | tree <;> rfl

theorem kept_drawn (world : World) (n : Nat) : world.Kept (world.drawn n) :=
  { Kept.refl world with calls := Nat.le_succ _ }

theorem pouring_round {start world : World} {file : OutputFile Nat} {place : Place} {kept : Nat → Tree} {done n : Nat}
    (hfaultless : start.Faultless) (h : start.Pouring file.handle place kept done world) (hpos : 0 < n)
    (htakes : (kept done).writeAt place done (start.source.slice (start.cursor.position + done) n) =
      .ok (kept (done + n))) :
    ∃ after, runFrom (file.append (world.source.slice world.cursor.position n)) (world.drawn n) = (.ok (), after) ∧
      start.Pouring file.handle place kept (done + n) after := by
  have hdrawn : start.Kept (world.drawn n) := h.later.trans (world.kept_drawn n)
  have hsize : (world.source.slice world.cursor.position n).size = n := Source.size_slice ..
  have hopened : (world.drawn n).opened[file.handle]? = some { place, offset := done } := h.opened
  have htree : (world.drawn n).tree = kept done := h.tree_eq
  rw [← h.later.source, ← h.position_eq] at htakes
  rw [runFrom_append_of_faultless (hdrawn.faultless hfaultless) hopened (by omega), htree]
  dsimp only
  rw [htakes, hsize]
  refine ⟨_, rfl, ?_⟩
  have hhandle : file.handle < world.opened.length := (List.getElem?_eq_some_iff.mp h.opened).1
  exact {
    later := hdrawn.trans { kept_begun (world.drawn n) with }
    opened := List.getElem?_set_self hhandle
    tree_eq := rfl
    position_eq := by
      show world.cursor.position + n = _
      rw [h.position_eq, Nat.add_assoc] }

end World

section Writing
variable {request : Request} {target : UInt64} {file : OutputFile Nat} {start : World} {place : Place}

theorem writing_unbuffered (hchunk : request.chunkSize ≠ 0)
    (hlarge : largestBuffer < min request.chunkSize.toNat target.toNat) :
    (runFrom (writing request target file) start).2 = start := by
  rw [writing, writeChunks_noBuffer World.draw file.append hchunk hlarge, runFrom_throw]

variable (hfaultless : start.Faultless) (hchunk : request.chunkSize ≠ 0)
  (hroom : min request.chunkSize.toNat target.toNat ≤ largestBuffer)

include hroom in
theorem writing_eq_drain : (runFrom (writing request target file) start).2 =
    (runFrom (drain World.draw file.append request.chunkSize.toNat (toNat_pos hchunk) target.toNat) start).2 := by
  rw [← writeChunks_eq_drain World.draw file.append hchunk hroom, runFrom_map]
  rfl

include hfaultless hchunk hroom

/-- A file that takes every byte ends up with the whole target. -/
theorem pouring_writing (kept : Nat → Tree)
    (htakes : ∀ done n, 0 < n → done + n ≤ target.toNat →
      (kept done).writeAt place done (start.source.slice (start.cursor.position + done) n) = .ok (kept (done + n)))
    (hstart : start.Pouring file.handle place kept 0 start) :
    start.Pouring file.handle place kept target.toNat (runFrom (writing request target file) start).2 := by
  have hchunkPos := toNat_pos hchunk
  have hloop : Ends (fun _ after => start.Pouring file.handle place kept target.toNat after) (fun _ _ => False)
      (runFrom (drain World.draw file.append request.chunkSize.toNat hchunkPos target.toNat) start) := by
    refine ends_drain_done (fun _ done after => start.Pouring file.handle place kept done after) hchunkPos
      (fun _ done remaining world hpos hdone hworld => ?_) hstart
    obtain ⟨after, happend, hafter⟩ := World.pouring_round (n := min request.chunkSize.toNat remaining) hfaultless hworld
      (by omega) (htakes _ _ (by omega) (by omega))
    rw [World.draw_of_faultless (hworld.later.faultless hfaultless)]
    dsimp only
    rw [happend]
    exact hafter
  rw [writing_eq_drain hchunk hroom]
  rcases hrun : runFrom (drain World.draw file.append request.chunkSize.toNat hchunkPos target.toNat) start with
    ⟨failure | rounds, after⟩
  · rw [hrun] at hloop
    exact hloop.elim
  · rw [hrun] at hloop
    exact hloop

/-! ## Files and devices -/

variable (hopened : start.opened[file.handle]? = some { place, offset := 0 })
include hopened

theorem writing_file {tree : Tree} (hplace : place ≠ .named []) (htree : start.tree = tree.set place (.file .empty)) :
    (runFrom (writing request target file) start).2.tree =
        tree.set place (.file (start.source.slice start.cursor.position target.toNat)) ∧
      (runFrom (writing request target file) start).2.cursor.position = start.cursor.position + target.toNat := by
  have htakes : ∀ done n, 0 < n → done + n ≤ target.toNat →
      (tree.set place (.file (start.source.slice start.cursor.position done))).writeAt place done
        (start.source.slice (start.cursor.position + done) n) =
      .ok (tree.set place (.file (start.source.slice start.cursor.position (done + n)))) := by
    intro done n hpos _
    have hoverlay := overlay_end (start.source.slice start.cursor.position done)
      (start.source.slice (start.cursor.position + done) n)
    rw [Source.size_slice, Source.slice_append] at hoverlay
    rw [Tree.writeAt, Source.size_slice, if_neg (Nat.ne_of_gt hpos), Tree.node?_set_self hplace]
    dsimp only
    rw [hoverlay, Tree.set_set]
  have hafter := pouring_writing hfaultless hchunk hroom
    (fun done => tree.set place (.file (start.source.slice start.cursor.position done))) htakes
    ⟨.refl start, hopened, htree, rfl⟩
  exact ⟨hafter.tree_eq, hafter.position_eq⟩

theorem writing_null (hdevice : start.tree.node? place = some (.device .null)) :
    (runFrom (writing request target file) start).2.tree = start.tree ∧
      (runFrom (writing request target file) start).2.cursor.position = start.cursor.position + target.toNat := by
  have htakes : ∀ done n, 0 < n → done + n ≤ target.toNat →
      start.tree.writeAt place done (start.source.slice (start.cursor.position + done) n) = .ok start.tree := by
    intro done n hpos _
    rw [Tree.writeAt, Source.size_slice, if_neg (Nat.ne_of_gt hpos), hdevice]
  have hafter := pouring_writing hfaultless hchunk hroom (fun _ => start.tree) htakes ⟨.refl start, hopened, rfl, rfl⟩
  exact ⟨hafter.tree_eq, hafter.position_eq⟩

/-- A full device refuses the first chunk, unless there is none. -/
theorem writing_full (hdevice : start.tree.node? place = some (.device .full)) :
    (runFrom (writing request target file) start).2.tree = start.tree ∧
      (runFrom (writing request target file) start).2.cursor.position =
        start.cursor.position + min request.chunkSize.toNat target.toNat := by
  have hchunkPos := toNat_pos hchunk
  rw [writing_eq_drain hchunk hroom]
  generalize target.toNat = amount
  rcases Nat.eq_zero_or_pos amount with rfl | hpos
  · rw [drain_zero, runFrom_pure, Nat.min_zero]
    exact ⟨rfl, rfl⟩
  · generalize hn : min request.chunkSize.toNat amount = n
    have hdrawn : (start.drawn n).Faultless := (start.kept_drawn n).faultless hfaultless
    have hsize : (start.source.slice start.cursor.position n).size ≠ 0 := by
      rw [Source.size_slice]
      omega
    have hwrite : (start.drawn n).tree.writeAt place 0 (start.source.slice start.cursor.position n) =
        .error .storageFull := by
      have hnode : (start.drawn n).tree.node? place = some (.device .full) := hdevice
      rw [Tree.writeAt, if_neg hsize, hnode]
    have happend : runFrom (file.append (start.source.slice start.cursor.position n)) (start.drawn n) =
        (.error (.file .storageFull file.path), (start.drawn n).begun) := by
      rw [World.runFrom_append_of_faultless hdrawn hopened hsize, hwrite]
    subst hn
    rw [runFrom_drain_of_pos hchunkPos hpos, World.draw_of_faultless hfaultless]
    dsimp only
    rw [runFrom_bind, happend]
    exact ⟨rfl, rfl⟩

end Writing

/-! ## Deeds -/

/-- What a generation does where nothing fails: it draws bytes, and a file holds them afterwards, if there is one. -/
structure Deed where
  drawn : Nat := 0
  file? : Option (List String) := none

def Deed.done (deed : Deed) (source : Source) (position : Nat) (tree : Tree) : Tree :=
  match deed.file? with
  | none => tree
  | some names => tree.set (.named names) (.file (source.slice position deed.drawn))

/-- The deed of writing a target in chunks to where a path leads. -/
def Deed.writing (chunk target : Nat) : Option Spot → Deed
  | some (.free names) => { drawn := target, file? := some names }
  | some (.taken _ (.device .null)) => { drawn := target }
  | some (.taken _ (.device .full)) => { drawn := min chunk target }
  | _ => {}

/-- The deed of a request whose path leads to the given end. Without a buffer nothing is drawn, but the file is there. -/
def Request.deed (request : Request) (spot? : Option Spot) : Deed :=
  match byteCount request.size with
  | .error _ => {}
  | .ok target =>
    if request.chunkSize = 0 then {}
    else
      let deed := Deed.writing request.chunkSize.toNat target.toNat spot?
      if largestBuffer < min request.chunkSize.toNat target.toNat then { deed with drawn := 0 } else deed

/-- Behind the writing stage nothing changes. -/
theorem completion_after {request : Request} {target : UInt64} {file : OutputFile Nat} {opened after : World}
    {outcome : Except Failure Stats} (h : Completion request target file opened place outcome after) :
    after.tree = (runFrom (writing request target file) opened).2.tree ∧
      after.cursor = (runFrom (writing request target file) opened).2.cursor := by
  have hsize : ∀ {world after : World} {result : Except SystemFault UInt64},
      World.size file.handle world = (result, after) → after = world.begun := by
    intro world after result hrun
    rw [← World.size_after file.handle world, hrun]
  have hsync : ∀ {world after : World} {result : Except SystemFault Unit},
      World.sync file.handle world = (result, after) → after = world.begun := by
    intro world after result hrun
    rw [← World.sync_after file.handle world, hrun]
  cases h with
  | writing writing_eq _ =>
      rw [writing_eq]
      exact ⟨rfl, rfl⟩
  | measuring writing_eq size_eq _ _ =>
      rw [writing_eq, hsize size_eq]
      exact ⟨rfl, rfl⟩
  | syncing writing_eq size_eq sync_eq _ _ _ =>
      rw [writing_eq, hsync sync_eq, hsize size_eq]
      exact ⟨rfl, rfl⟩
  | finished writing_eq size_eq sync_eq _ _ _ =>
      rw [writing_eq, hsync sync_eq, hsize size_eq]
      exact ⟨rfl, rfl⟩

section Doing
variable {request : Request} {world : World}

theorem deed_of_size {target : UInt64} (hsize : byteCount request.size = .ok target) (hchunk : request.chunkSize ≠ 0)
    (spot? : Option Spot) :
    request.deed spot? = if largestBuffer < min request.chunkSize.toNat target.toNat
      then { Deed.writing request.chunkSize.toNat target.toNat spot? with drawn := 0 }
      else .writing request.chunkSize.toNat target.toNat spot? := by
  unfold Request.deed
  rw [hsize]
  exact if_neg hchunk

theorem deed_file? {spot? : Option Spot} {names : List String} (h : (request.deed spot?).file? = some names) :
    spot? = some (.free names) := by
  have hwriting : ∀ {chunk target : Nat}, (Deed.writing chunk target spot?).file? = some names →
      spot? = some (.free names) := by
    intro chunk target hfile
    rcases spot? with _ | ⟨found, _ | content | link | _ | _⟩ | found <;> cases hfile
    rfl
  unfold Request.deed at h
  split at h
  · cases h
  · split at h
    · cases h
    · dsimp only at h
      split at h
      · exact hwriting h
      · exact hwriting h

theorem faultless_opening (h : world.Faultless) (tree : Tree) (place : Place) : (world.opening tree place).Faultless :=
  ⟨h.hitch, h.cut⟩

/-- What becomes of the tree and of the source while an opened file is written. -/
theorem writing_deed {target : UInt64} {tree : Tree} {place : Place} (hfaultless : world.Faultless)
    (hsize : byteCount request.size = .ok target) (hchunk : request.chunkSize ≠ 0)
    (hcreate : world.tree.create world.home request.outFile = .ok (tree, place)) :
    let deed := request.deed (world.tree.end? world.home request.outFile)
    let after := (runFrom (writing request target (world.nextFile request.outFile)) (world.opening tree place)).2
    after.tree = deed.done world.source world.cursor.position world.tree ∧
      after.cursor.position = world.cursor.position + deed.drawn := by
  have hopening := faultless_opening hfaultless tree place
  have hopened := (filling_opening hcreate).opened
  rw [deed_of_size hsize hchunk]
  rcases Nat.lt_or_ge largestBuffer (min request.chunkSize.toNat target.toNat) with hlarge | hroom
  · rw [if_pos hlarge, writing_unbuffered hchunk hlarge]
    rcases Tree.end?_of_create hcreate with ⟨names, hend, rfl, rfl⟩ | ⟨names, device, hend, rfl, -⟩
    · rw [hend]
      exact ⟨rfl, rfl⟩
    · rw [hend]
      cases device <;> exact ⟨rfl, rfl⟩
  · rw [if_neg (Nat.not_lt.mpr hroom)]
    rcases Tree.end?_of_create hcreate with ⟨names, hend, rfl, rfl⟩ | ⟨names, device, hend, rfl, hdevice⟩
    · rw [hend]
      exact writing_file hopening hchunk hroom hopened (Tree.ne_root_of_loose (Tree.loose_of_end? hend)) rfl
    · rw [hend]
      cases device with
      | null => exact writing_null hopening hchunk hroom hopened hdevice
      | full => exact writing_full hopening hchunk hroom hopened hdevice

/-- Where nothing fails, a generation does its deed. -/
theorem generate_deed (request : Request) (hfaultless : world.Faultless) :
    let deed := request.deed (world.tree.end? world.home request.outFile)
    (generateIn request world).2.tree = deed.done world.source world.cursor.position world.tree ∧
      (generateIn request world).2.cursor.position = world.cursor.position + deed.drawn := by
  generalize hrun : generateIn request world = result
  have hstages := stages_generate request world
  rw [hrun] at hstages
  obtain ⟨outcome, after⟩ := result
  cases hstages with
  | size size_eq =>
      unfold Request.deed
      rw [size_eq]
      exact ⟨rfl, rfl⟩
  | chunkSize size_eq chunk_eq =>
      unfold Request.deed
      rw [size_eq]
      dsimp only
      rw [if_pos chunk_eq]
      exact ⟨rfl, rfl⟩
  | opening size_eq chunk_ne create_eq =>
      rw [deed_of_size size_eq chunk_ne]
      rcases Tree.end?_of_create_error create_eq with hend | ⟨names, hend⟩
      all_goals
        rw [hend]
        split <;> exact ⟨rfl, rfl⟩
  | opened size_eq chunk_ne create_eq completion =>
      obtain ⟨htree, hcursor⟩ := completion_after completion
      have hdeed := writing_deed hfaultless size_eq chunk_ne create_eq
      dsimp only at hdeed htree hcursor ⊢
      rw [htree, hcursor]
      exact hdeed

end Doing

end NoiseFile
