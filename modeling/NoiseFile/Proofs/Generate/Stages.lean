import NoiseFile.Generate
import NoiseFile.Proofs.Generate.Rounds

/-!
# The stages of a generation

* `generateIn` : a generation on a machine in memory; `World.opening` and `World.nextFile` are what opening a file gives;
* `Stages`, `Completion` : the stages of a generation in order, before and after the file is open. The first stage that
  fails ends it (`stages_generate`), and that is the only one that fits the request (`Stages.of_refused`, `of_unopened`,
  `of_opened`);
* `WritingFailure`, `World.Clear` : how writing the file fails, as the world in which it was opened tells it, and what
  writing needs so as not to fail;
* `ends_writing`, `ends_completion` : what the stages behind the opening do to the open file;
* `filling_opening`, `onlyFileOf_filling` : the file at the end of a path, just opened and later on.
-/

namespace NoiseFile

open FileSystem

def generateIn (request : Request) (world : World) : Except Failure Stats × World :=
  runFrom (generate request : ExceptT Failure (StateM World) Stats) world

def World.opening (world : World) (tree : Tree) (place : Place) : World :=
  { world with tree, opened := world.opened ++ [{ place, offset := 0 }] }

def World.nextFile (world : World) (path : String) : OutputFile Nat := { handle := world.opened.length, path }

def writing (request : Request) (target : UInt64) (file : OutputFile Nat) : ExceptT Failure (StateM World) UInt64 :=
  writeChunks World.draw file.append target request.chunkSize

def Request.rounds (request : Request) (target : UInt64) : Nat :=
  (target.toNat + request.chunkSize.toNat - 1) / request.chunkSize.toNat

/-- How writing a target to an opened file fails. -/
inductive WritingFailure (request : Request) (target : UInt64) (opened : World) (place : Place) : Failure → Prop
  | round {failure : Failure} (room : min request.chunkSize.toNat target.toNat ≤ largestBuffer)
      (told : opened.writingFailure? request.outFile place (request.rounds target) = some failure) :
      WritingFailure request target opened place failure
  /-- The run is broken off for want of a buffer, and reports nothing. -/
  | noBuffer (large : largestBuffer < min request.chunkSize.toNat target.toNat) :
      WritingFailure request target opened place .noBuffer

/-- What writing a target to an opened file needs: a buffer, and no round that fails. -/
structure World.Clear (opened : World) (request : Request) (target : UInt64) (place : Place) : Prop where
  room : min request.chunkSize.toNat target.toNat ≤ largestBuffer
  rounds : opened.writingFailure? request.outFile place (request.rounds target) = none

/-- The stages of a generation whose file is open: writing, reading the size, and syncing. Where each of them fails is
told by the world in which the file was opened. -/
inductive Completion (request : Request) (target : UInt64) (file : OutputFile Nat) (opened : World) (place : Place) :
    Except Failure Stats → World → Prop
  | writing {failure : Failure} {after : World}
      (writing_eq : runFrom (writing request target file) opened = (.error failure, after))
      (cause : WritingFailure request target opened place failure) :
      Completion request target file opened place (.error failure) after
  | measuring {chunks : UInt64} {written after : World} {fault : SystemFault}
      (writing_eq : runFrom (writing request target file) opened = (.ok chunks, written))
      (size_eq : World.size file.handle written = (.error fault, after))
      (clear : opened.Clear request target place)
      (told : opened.sizeFailure? request.outFile (request.rounds target) = some (.file fault request.outFile)) :
      Completion request target file opened place (.error (.file fault request.outFile)) after
  | syncing {chunks size : UInt64} {written measured after : World} {fault : SystemFault}
      (writing_eq : runFrom (writing request target file) opened = (.ok chunks, written))
      (size_eq : World.size file.handle written = (.ok size, measured))
      (sync_eq : World.sync file.handle measured = (.error fault, after))
      (clear : opened.Clear request target place)
      (measured : opened.sizeFailure? request.outFile (request.rounds target) = none)
      (told : opened.syncFailure? request.outFile place (request.rounds target) = some (.file fault request.outFile)) :
      Completion request target file opened place (.error (.file fault request.outFile)) after
  | finished {chunks size : UInt64} {written measured after : World}
      (writing_eq : runFrom (writing request target file) opened = (.ok chunks, written))
      (size_eq : World.size file.handle written = (.ok size, measured))
      (sync_eq : World.sync file.handle measured = (.ok (), after))
      (clear : opened.Clear request target place)
      (measured : opened.sizeFailure? request.outFile (request.rounds target) = none)
      (synced : opened.syncFailure? request.outFile place (request.rounds target) = none) :
      Completion request target file opened place (.ok {
        targetBytes := target
        bytesWritten := size
        chunksWritten := chunks
        chunkSize := request.chunkSize
        start := opened.time.toBinary64
        finish := after.time.toBinary64 }) after

/-- The stages of a generation: checking the size, checking the chunk size, opening the file, and the rest. -/
inductive Stages (request : Request) (world : World) : Except Failure Stats → World → Prop
  | size {fault : SizeFault} (size_eq : byteCount request.size = .error fault) :
      Stages request world (.error (.size fault)) world
  | chunkSize {target : UInt64} (size_eq : byteCount request.size = .ok target) (chunk_eq : request.chunkSize = 0) :
      Stages request world (.error (.size .zeroChunkSize)) world
  | opening {target : UInt64} {fault : SystemFault} (size_eq : byteCount request.size = .ok target)
      (chunk_ne : request.chunkSize ≠ 0)
      (create_eq : world.tree.create world.home request.outFile = .error fault) :
      Stages request world (.error (.file fault request.outFile)) world
  | opened {target : UInt64} {tree : Tree} {place : Place} {outcome : Except Failure Stats} {after : World}
      (size_eq : byteCount request.size = .ok target) (chunk_ne : request.chunkSize ≠ 0)
      (create_eq : world.tree.create world.home request.outFile = .ok (tree, place))
      (completion : Completion request target (world.nextFile request.outFile) (world.opening tree place) place outcome
        after) :
      Stages request world outcome after

/-! ## Opening -/

theorem runFrom_create (path : String) (world : World) :
    runFrom (OutputFile.create path : ExceptT Failure (StateM World) (OutputFile Nat)) world =
      ((World.create path world).1.mapError (Failure.file · path) |>.map fun handle => { handle, path },
        (World.create path world).2) := by
  unfold OutputFile.create
  rw [← map_eq_pure_bind, runFrom_map]
  rfl

section Opening
variable {world : World} {path : String} {tree : Tree} {place : Place}
  (hcreate : world.tree.create world.home path = .ok (tree, place))
include hcreate

theorem runFrom_create_ok :
    runFrom (OutputFile.create path : ExceptT Failure (StateM World) (OutputFile Nat)) world =
      (.ok (world.nextFile path), world.opening tree place) := by
  have hopen : World.create path world = (.ok world.opened.length, world.opening tree place) := by
    simp only [World.create, hcreate]
    rfl
  rw [runFrom_create, hopen]
  rfl

theorem opening_cases :
    (∃ names spot, place = .named names ∧ resolve world.tree world.home .create path = .ok spot ∧
        spot.file? = some names ∧ tree.node? place = some (.file .empty) ∧ world.tree.Alike place tree) ∨
      tree = world.tree ∧ (world.opening tree place).IsDevice place := by
  rcases create_cases hcreate with ⟨names, spot, rfl, rfl, hresolve, hfile⟩ | ⟨device, rfl, hdevice⟩
  · have hnames : names ≠ [] := ne_root_of_file? (isAt_resolve hresolve) hfile
    exact .inl ⟨names, spot, rfl, hresolve, hfile, Tree.node?_set_self (by simpa using hnames) world.tree _,
      world.tree.alike_set _ _⟩
  · exact .inr ⟨rfl, device, hdevice⟩

omit hcreate in
theorem not_isDevice_of_file {content : ByteArray} (h : tree.node? place = some (.file content)) :
    ¬(world.opening tree place).IsDevice place := by
  rintro ⟨device, hdevice⟩
  rw [World.opening, h] at hdevice
  cases hdevice

theorem filling_opening :
    (world.opening tree place).Filling (world.nextFile path).handle place 0 (world.opening tree place) := by
  refine ⟨List.getElem?_concat_length, ?_, .refl place tree, rfl, rfl, Nat.le_refl _, Nat.le_refl _⟩
  rcases opening_cases hcreate with ⟨-, -, -, -, -, hnode, -⟩ | ⟨-, device, hdevice⟩
  · exact .file (not_isDevice_of_file hnode) hnode rfl
  · exact .device hdevice rfl

end Opening

theorem runFrom_create_error {world : World} {path : String} {fault : SystemFault}
    (hcreate : world.tree.create world.home path = .error fault) :
    runFrom (OutputFile.create path : ExceptT Failure (StateM World) (OutputFile Nat)) world =
      (.error (.file fault path), world) := by
  have hopen : World.create path world = (.error fault, world) := by
    simp only [World.create, hcreate]
  rw [runFrom_create, hopen]
  rfl

/-! ## Writing -/

theorem count_of_writeChunks {S : Type} (draw : (n : Nat) → StateM S (Draw n))
    (write : ByteArray → ExceptT Failure (StateM S) Unit) (target chunk : UInt64) (state : S) :
    Ends (fun count _ => chunkCount target chunk = .ok count) (fun _ _ => True)
      (runFrom (writeChunks draw write target chunk) state) := by
  unfold writeChunks Layout.plan
  rcases hcount : chunkCount target chunk with fault | count
  · trivial
  rcases hlast : lastChunk target chunk with fault | last
  · trivial
  dsimp only [bind, Except.bind, pure, Except.pure]
  rcases Buffer.reserve? _ with _ | buffer
  · trivial
  · refine ends_bind ?_
    rcases runFrom _ state with ⟨failure | _, after⟩
    · trivial
    · exact rfl

theorem Request.rounds_eq (request : Request) (target : UInt64) (hchunk : request.chunkSize ≠ 0) :
    (chunkSizes request.chunkSize.toNat target.toNat).length = request.rounds target :=
  length_chunkSizes (toNat_pos hchunk) target.toNat

/-- The writing stage fills a file with the whole target, or breaks off. -/
theorem ends_writing {request : Request} {target : UInt64} {file : OutputFile Nat} {opened : World} {place : Place}
    (hchunk : request.chunkSize ≠ 0) (hpath : file.path = request.outFile)
    (hfilling : opened.Filling file.handle place 0 opened) :
    Ends (fun _ after => opened.Filling file.handle place target.toNat after ∧ opened.Clear request target place ∧
        opened.Rounds request.outFile place (request.rounds target) after)
      (fun failure after => WritingFailure request target opened place failure ∧
        (opened.Broken file place failure after ∨
          failure = .noBuffer ∧ largestBuffer < min request.chunkSize.toNat target.toNat ∧ after = opened))
      (runFrom (writing request target file) opened) := by
  unfold writing
  rcases Nat.lt_or_ge largestBuffer (min request.chunkSize.toNat target.toNat) with hlarge | hroom
  · rw [writeChunks_noBuffer World.draw file.append hchunk hlarge, runFrom_throw]
    exact ⟨.noBuffer hlarge, .inr ⟨rfl, hlarge, rfl⟩⟩
  have hloop := World.ends_drain_rounds (toNat_pos hchunk) target.toNat hfilling
  rw [← writeChunks_eq_drain World.draw file.append hchunk hroom, runFrom_map, request.rounds_eq target hchunk,
    hpath] at hloop
  rcases hrun : runFrom (writeChunks World.draw file.append target request.chunkSize) opened with ⟨failure | chunks, after⟩
  · rw [hrun] at hloop
    exact ⟨.round hroom hloop.2, .inl hloop.1⟩
  · rw [hrun] at hloop
    exact ⟨hloop.1, ⟨hroom, hloop.2.clear⟩, hloop.2⟩

/-! ## The first stage that fails -/

/-- What is left of a generation once its file is open. -/
def completing (request : Request) (target : UInt64) (start : Instant) (file : OutputFile Nat) :
    ExceptT Failure (StateM World) Stats := do
  let chunks ← writing request target file
  let size ← file.size
  file.close
  let finish ← (Machine.now : StateM World Instant)
  return {
    targetBytes := target
    bytesWritten := size
    chunksWritten := chunks
    chunkSize := request.chunkSize
    start := start.toBinary64
    finish := finish.toBinary64 }

theorem completion_completing {request : Request} {target : UInt64} {file : OutputFile Nat} {opened : World}
    {place : Place} (hchunk : request.chunkSize ≠ 0) (hpath : file.path = request.outFile)
    (hfilling : opened.Filling file.handle place 0 opened) :
    Completion request target file opened place (runFrom (completing request target opened.time file) opened).1
      (runFrom (completing request target opened.time file) opened).2 := by
  have hwriting : Ends _ _ (runFrom (writing request target file) opened) := ends_writing hchunk hpath hfilling
  unfold completing
  rcases hwrite : runFrom (writing request target file) opened with ⟨failure | chunks, written⟩
  · rw [hwrite] at hwriting
    rw [runFrom_bind, hwrite]
    exact .writing hwrite hwriting.1
  rw [hwrite] at hwriting
  obtain ⟨hfilled, hclear, hrounds⟩ := hwriting
  rw [← hpath] at hrounds
  have hmeasuring := World.size_told hfilled hrounds
  rw [runFrom_bind, hwrite]
  dsimp only
  rcases hsize : World.size file.handle written with ⟨fault | size, measured⟩
  · rw [World.runFrom_size, hsize, hpath] at hmeasuring
    rw [runFrom_bind, World.runFrom_size, hsize, hpath]
    exact .measuring hwrite hsize hclear hmeasuring
  have hstill := World.ends_size hfilled
  rw [World.runFrom_size, hsize] at hmeasuring hstill
  rw [hpath] at hmeasuring
  have hclosing := World.close_told hstill.1 hmeasuring.2
  rw [runFrom_bind, World.runFrom_size, hsize]
  dsimp only [Except.mapError]
  rcases hsync : World.sync file.handle measured with ⟨fault | _, after⟩
  · rw [World.runFrom_close, hsync, hpath] at hclosing
    rw [runFrom_bind, World.runFrom_close, hsync, hpath]
    exact .syncing hwrite hsize hsync hclear hmeasuring.1 hclosing
  · rw [World.runFrom_close, hsync, hpath] at hclosing
    rw [runFrom_bind, World.runFrom_close, hsync]
    exact .finished hwrite hsize hsync hclear hmeasuring.1 hclosing

theorem runFrom_accepted {S α : Type} (result : Except SizeFault α) (state : S) :
    runFrom (accepted result : ExceptT Failure (StateM S) α) state = (result.mapError Failure.size, state) := by
  cases result <;> rfl

theorem stages_generate (request : Request) (world : World) :
    Stages request world (generateIn request world).1 (generateIn request world).2 := by
  have hgenerate : (generate request : ExceptT Failure (StateM World) Stats) = (do
      let target ← accepted (byteCount request.size)
      let _ ← accepted (chunkCount target request.chunkSize)
      let start ← (Machine.now : StateM World Instant)
      let file ← OutputFile.create request.outFile
      completing request target start file) := rfl
  unfold generateIn
  rw [hgenerate, runFrom_bind, runFrom_accepted]
  rcases hsize : byteCount request.size with fault | target
  · exact .size hsize
  dsimp only [Except.mapError]
  rw [runFrom_bind, runFrom_accepted]
  by_cases hchunk : request.chunkSize = 0
  · rw [(chunkCount_eq_zeroChunkSize_iff target _).mpr hchunk]
    exact .chunkSize hsize hchunk
  obtain ⟨count, hcount, -⟩ := chunkCount_ok target hchunk
  have hnow : (Machine.now : StateM World Instant) world = (world.time, world) := rfl
  rw [hcount]
  dsimp only [Except.mapError]
  rw [runFrom_bind, runFrom_lift, hnow]
  dsimp only
  rw [runFrom_bind]
  rcases hcreate : world.tree.create world.home request.outFile with fault | ⟨tree, place⟩
  · rw [runFrom_create_error hcreate]
    exact .opening hsize hchunk hcreate
  · rw [runFrom_create_ok hcreate]
    exact .opened hsize hchunk hcreate (completion_completing hchunk rfl (filling_opening hcreate))

section Inversion
variable {request : Request} {world after : World} {outcome : Except Failure Stats}
  (h : Stages request world outcome after)
include h

theorem Stages.of_refused {fault : SizeFault} (hsize : byteCount request.size = .error fault) :
    outcome = .error (.size fault) ∧ after = world := by
  cases h with
  | size size_eq =>
      cases hsize.symm.trans size_eq
      exact ⟨rfl, rfl⟩
  | chunkSize size_eq _ => cases hsize.symm.trans size_eq
  | opening size_eq _ _ => cases hsize.symm.trans size_eq
  | opened size_eq _ _ _ => cases hsize.symm.trans size_eq

variable {target : UInt64} (hsize : byteCount request.size = .ok target) (hchunk : request.chunkSize ≠ 0)
include hsize hchunk

theorem Stages.of_unopened {fault : SystemFault}
    (hcreate : world.tree.create world.home request.outFile = .error fault) :
    outcome = .error (.file fault request.outFile) ∧ after = world := by
  cases h with
  | size size_eq => cases hsize.symm.trans size_eq
  | chunkSize _ chunk_eq => exact absurd chunk_eq hchunk
  | opening _ _ create_eq =>
      cases hcreate.symm.trans create_eq
      exact ⟨rfl, rfl⟩
  | opened _ _ create_eq _ => cases hcreate.symm.trans create_eq

theorem Stages.of_opened {tree : Tree} {place : Place}
    (hcreate : world.tree.create world.home request.outFile = .ok (tree, place)) :
    Completion request target (world.nextFile request.outFile) (world.opening tree place) place outcome after := by
  cases h with
  | size size_eq => cases hsize.symm.trans size_eq
  | chunkSize _ chunk_eq => exact absurd chunk_eq hchunk
  | opening _ _ create_eq => cases hcreate.symm.trans create_eq
  | opened size_eq _ create_eq completion =>
      cases hsize.symm.trans size_eq
      cases hcreate.symm.trans create_eq
      exact completion

end Inversion

/-! ## What is left behind -/

/-- The counters of a run that wrote its whole target. -/
structure Stats.Complete (request : Request) (target : UInt64) (stats : Stats) : Prop where
  targetBytes : stats.targetBytes = target
  bytesWritten : stats.bytesWritten = target
  chunkSize : stats.chunkSize = request.chunkSize
  chunksWritten : chunkCount target request.chunkSize = .ok stats.chunksWritten

theorem ends_completion {request : Request} {target : UInt64} {file : OutputFile Nat} {opened after : World}
    {place : Place} {outcome : Except Failure Stats} (hchunk : request.chunkSize ≠ 0)
    (hpath : file.path = request.outFile) (hfilling : opened.Filling file.handle place 0 opened)
    (h : Completion request target file opened place outcome after) :
    Ends (fun stats after => stats.Complete request target ∧ opened.Filling file.handle place target.toNat after ∧
        ¬opened.IsDevice place)
      (fun failure after => opened.Broken file place failure after ∨
        failure = .noBuffer ∧ largestBuffer < min request.chunkSize.toNat target.toNat ∧ after = opened)
      (outcome, after) := by
  have hwriting : Ends _ _ (runFrom (writing request target file) opened) := ends_writing hchunk hpath hfilling
  have hcount : Ends _ _ (runFrom (writing request target file) opened) :=
    count_of_writeChunks World.draw file.append target request.chunkSize opened
  cases h with
  | writing writing_eq _ =>
      rw [writing_eq] at hwriting
      exact hwriting.2
  | measuring writing_eq size_eq _ _ =>
      rw [writing_eq] at hwriting
      have hsize := World.ends_size hwriting.1
      rw [World.runFrom_size, size_eq, hpath] at hsize
      exact .inl hsize
  | syncing writing_eq size_eq sync_eq _ _ _ =>
      rw [writing_eq] at hwriting
      have hsize := World.ends_size hwriting.1
      rw [World.runFrom_size, size_eq] at hsize
      have hclose := World.ends_close hsize.1
      rw [World.runFrom_close, sync_eq, hpath] at hclose
      exact .inl hclose
  | finished writing_eq size_eq sync_eq _ _ _ =>
      rw [writing_eq] at hwriting hcount
      have hsize := World.ends_size hwriting.1
      rw [World.runFrom_size, size_eq] at hsize
      have hclose := World.ends_close hsize.1
      rw [World.runFrom_close, sync_eq] at hclose
      refine ⟨⟨rfl, ?_, rfl, hcount⟩, hclose⟩
      rw [hsize.2 hclose.2]
      exact UInt64.ofNat_toNat

section Opened
variable {world after : World} {path : String} {tree : Tree} {place : Place} {handle done : Nat}
  (hcreate : world.tree.create world.home path = .ok (tree, place))
  (hfilling : (world.opening tree place).Filling handle place done after)
include hcreate hfilling

/-- A file that is being filled stands at the end of its path, and all else is as it was before it was opened. -/
theorem alike_filling (hfile : ¬(world.opening tree place).IsDevice place) :
    ∃ names content spot, resolve world.tree world.home .create path = .ok spot ∧ spot.file? = some names ∧
      world.tree.Alike (.named names) after.tree ∧ after.tree.node? (.named names) = some (.file content) ∧
      content.size = done := by
  rcases opening_cases hcreate with ⟨names, spot, rfl, hresolve, hspot, -, halike⟩ | ⟨-, hdevice⟩
  · cases hfilling.stored with
    | @file content _ node_eq size_eq =>
        exact ⟨names, content, spot, hresolve, hspot, halike.trans hfilling.alike, node_eq, size_eq⟩
    | device opened _ => exact absurd ⟨_, opened⟩ hfile
  · exact absurd hdevice hfile

theorem onlyFileOf_filling : world.tree.OnlyFileOf world.home path after.tree := by
  by_cases hdevice : (world.opening tree place).IsDevice place
  · rcases opening_cases hcreate with ⟨-, -, -, -, -, hnode, -⟩ | ⟨htree, -⟩
    · exact absurd hdevice (not_isDevice_of_file hnode)
    · cases hfilling.stored with
      | file opened _ _ => exact absurd hdevice opened
      | device _ tree_eq =>
          rw [tree_eq, World.opening, htree]
          exact .refl world.home path world.tree
  · obtain ⟨names, content, spot, hresolve, hspot, halike, hnode, -⟩ := alike_filling hcreate hfilling hdevice
    exact onlyFileOf_of_alike (resolve_look hresolve) hspot halike hnode

theorem resolve_filling (hfile : ¬(world.opening tree place).IsDevice place) :
    ∃ names content, resolve after.tree world.home .look path = .ok (.taken names (.file content)) ∧
      content.size = done := by
  obtain ⟨names, content, spot, hresolve, hspot, halike, hnode, hsize⟩ := alike_filling hcreate hfilling hfile
  have hbefore := node?_of_file? (isAt_resolve hresolve) hspot
  exact ⟨names, content, resolve_alike halike hnode hbefore (resolve_look hresolve) hspot, hsize⟩

end Opened

end NoiseFile
