import NoiseFile.Proofs.Generate.Deed

/-!
# How generations end where nothing fails

* `Verdict` : how a generation ends, up to why it fails and how long it takes; `Request.verdict` tells it from the request
  and from where its path leads;
* `verdict_generate` : where nothing fails, that is the verdict;
* `deed_eq_left?` : a deed on a file, as the verdict tells it.
-/

namespace NoiseFile

open FileSystem

/-- How a generation ends, up to why it fails and how long it takes. -/
inductive Verdict
  | done (counters : Stats)
  /-- Broken off for want of a buffer, when the file was open already. -/
  | brokenOff
  | failed
  deriving DecidableEq

def verdict : Except Failure Stats → Verdict
  | .ok stats => .done { stats with start := ⟨0⟩, finish := ⟨0⟩ }
  | .error .noBuffer => .brokenOff
  | .error _ => .failed

/-- The bytes that a generation leaves in its file, unless it leaves the file alone. -/
def Verdict.left? : Verdict → Option Nat
  | .done counters => some counters.targetBytes.toNat
  | .brokenOff => some 0
  | .failed => none

def Verdict.writing (target count chunk : UInt64) : Option Spot → Verdict
  | some (.free _) =>
    if largestBuffer < min chunk.toNat target.toNat then .brokenOff
    else .done {
      targetBytes := target
      bytesWritten := target
      chunksWritten := count
      chunkSize := chunk
      start := ⟨0⟩
      finish := ⟨0⟩ }
  | some (.taken _ (.device _)) => if largestBuffer < min chunk.toNat target.toNat then .brokenOff else .failed
  | _ => .failed

/-- The verdict on a request whose path leads to the given end. -/
def Request.verdict (request : Request) (spot? : Option Spot) : Verdict :=
  match byteCount request.size with
  | .error _ => .failed
  | .ok target =>
    match chunkCount target request.chunkSize with
    | .error _ => .failed
    | .ok count => .writing target count request.chunkSize spot?

section Verdict
variable {request : Request} {world : World}

theorem completion_unbuffered {target : UInt64} {file : OutputFile Nat} {opened after : World}
    {outcome : Except Failure Stats} (hchunk : request.chunkSize ≠ 0)
    (hlarge : largestBuffer < min request.chunkSize.toNat target.toNat)
    (h : Completion request target file opened place outcome after) : outcome = .error .noBuffer := by
  have hwriting : runFrom (writing request target file) opened = (.error .noBuffer, opened) := by
    rw [writing, writeChunks_noBuffer World.draw file.append hchunk hlarge, runFrom_throw]
  cases h <;> simp_all

theorem verdict_of_size {target count : UInt64} (hsize : byteCount request.size = .ok target)
    (hcount : chunkCount target request.chunkSize = .ok count) (spot? : Option Spot) :
    request.verdict spot? = .writing target count request.chunkSize spot? := by
  unfold Request.verdict
  rw [hsize]
  dsimp only
  rw [hcount]

/-- What is told of a generation whose file has been opened. -/
theorem verdict_of_completion {target count : UInt64} {tree : Tree} {place : Place} {outcome : Except Failure Stats}
    {after : World} (hfaultless : world.Faultless) (hchunk : request.chunkSize ≠ 0)
    (hcount : chunkCount target request.chunkSize = .ok count)
    (hcreate : world.tree.create world.home request.outFile = .ok (tree, place))
    (h : Completion request target (world.nextFile request.outFile) (world.opening tree place) place outcome after) :
    verdict outcome = .writing target count request.chunkSize (world.tree.end? world.home request.outFile) := by
  have hend := Tree.end?_of_create hcreate
  rcases Nat.lt_or_ge largestBuffer (min request.chunkSize.toNat target.toNat) with hlarge | hroom
  · rw [completion_unbuffered hchunk hlarge h]
    rcases hend with ⟨names, hend, -⟩ | ⟨names, device, hend, -⟩
    all_goals
      rw [hend]
      exact (if_pos hlarge).symm
  have hends := ends_completion hchunk rfl (filling_opening hcreate) h
  rcases outcome with failure | stats
  · rcases hends with hbroken | ⟨-, hlarge, -⟩
    · -- only a device breaks where nothing else fails
      have hdevice := hbroken.faultless (faultless_opening hfaultless tree place)
      rcases hend with ⟨names, hend, rfl, rfl⟩ | ⟨names, device, hend, -⟩
      · have hplace := Tree.ne_root_of_loose (Tree.loose_of_end? hend)
        exact absurd hdevice (not_isDevice_of_file (Tree.node?_set_self hplace world.tree _))
      · rw [hend, Verdict.writing, if_neg (Nat.not_lt.mpr hroom)]
        rcases hbroken.cause with ⟨reason, rfl⟩ | ⟨fault, rfl⟩ <;> rfl
    · exact absurd hlarge (Nat.not_lt.mpr hroom)
  · obtain ⟨hcomplete, -, hfile⟩ := hends
    rcases hend with ⟨names, hend, -⟩ | ⟨names, device, -, rfl, hdevice⟩
    · have hchunks : stats.chunksWritten = count := by
        have hcounted := hcomplete.chunksWritten
        rw [hcount] at hcounted
        exact (Except.ok.inj hcounted).symm
      rw [hend, Verdict.writing, if_neg (Nat.not_lt.mpr hroom), ← hchunks, ← hcomplete.chunkSize]
      show Verdict.done { stats with start := ⟨0⟩, finish := ⟨0⟩ } = _
      rw [hcomplete.bytesWritten, hcomplete.targetBytes]
    · exact absurd ⟨device, hdevice⟩ hfile

/-- Where nothing fails, the verdict is told by the request and by where its path leads. -/
theorem verdict_generate (request : Request) (hfaultless : world.Faultless) :
    verdict (generateIn request world).1 = request.verdict (world.tree.end? world.home request.outFile) := by
  have hstages := stages_generate request world
  generalize generateIn request world = result at hstages
  obtain ⟨outcome, after⟩ := result
  cases hstages with
  | size size_eq =>
      unfold Request.verdict
      rw [size_eq]
      rfl
  | chunkSize size_eq chunk_eq =>
      unfold Request.verdict
      rw [size_eq]
      dsimp only
      rw [(chunkCount_eq_zeroChunkSize_iff _ _).mpr chunk_eq]
      rfl
  | @opening target _ size_eq chunk_ne create_eq =>
      obtain ⟨count, hcount, -⟩ := chunkCount_ok target chunk_ne
      rw [verdict_of_size size_eq hcount]
      rcases Tree.end?_of_create_error create_eq with hend | ⟨names, hend⟩
      all_goals
        rw [hend]
        rfl
  | @opened target tree place _ _ size_eq chunk_ne create_eq completion =>
      obtain ⟨count, hcount, -⟩ := chunkCount_ok target chunk_ne
      rw [verdict_of_size size_eq hcount]
      exact verdict_of_completion hfaultless chunk_ne hcount create_eq completion

end Verdict

/-! ## Verdicts and deeds -/

/-- The deed on a file, as its verdict tells it. -/
theorem deed_eq_left? (request : Request) (names : List String) :
    request.deed (some (.free names)) = match (request.verdict (some (.free names))).left? with
      | some size => { drawn := size, file? := some names }
      | none => {} := by
  unfold Request.deed Request.verdict
  rcases byteCount request.size with fault | target
  · rfl
  dsimp only
  by_cases hchunk : request.chunkSize = 0
  · rw [if_pos hchunk, (chunkCount_eq_zeroChunkSize_iff target _).mpr hchunk]
    rfl
  · obtain ⟨count, hcount, -⟩ := chunkCount_ok target hchunk
    rw [if_neg hchunk, hcount]
    dsimp only [Verdict.writing]
    split <;> rfl

end NoiseFile
