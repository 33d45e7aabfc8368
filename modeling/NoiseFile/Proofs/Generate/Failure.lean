import NoiseFile.Proofs.Generate.Stages

/-!
# What a generation leaves behind

* `byteCount_error` : the faults of a size, and which of them wins;
* `Request.failure?` : the failure that a request meets in a world, stage by stage;
* `Settled` : which failure a generation reports, and what it leaves of the tree, on every outcome;
* `generate_settled` : every generation is settled.
-/

namespace NoiseFile

open FileSystem

theorem byteCount_error {size : Binary64} {fault : SizeFault} (h : byteCount size = .error fault) :
    (fault = .notFinite ∧ size.isFinite = false) ∨
      (fault = .negative ∧ size.isFinite = true ∧ size.isBelowZero = true) ∨
      (fault = .tooLarge ∧ size.isFinite = true ∧ size.isBelowZero = false) := by
  unfold byteCount checkSize at h
  cases hfinite : size.isFinite with
  | false =>
      rw [hfinite] at h
      cases h
      exact .inl ⟨rfl, rfl⟩
  | true =>
      cases hbelow : size.isBelowZero with
      | true =>
          rw [hfinite, hbelow] at h
          cases h
          exact .inr (.inl ⟨rfl, rfl, rfl⟩)
      | false =>
          simp only [hfinite, hbelow, Bool.not_true, Bool.false_eq_true, if_false] at h
          split at h
          · cases h
            exact .inr (.inr ⟨rfl, rfl, rfl⟩)
          · cases h

/-- The failure of writing a target to an opened file and of what follows, in the order in which it is met. -/
def World.completionFailure? (opened : World) (request : Request) (target : UInt64) (place : Place) : Option Failure :=
  if largestBuffer < min request.chunkSize.toNat target.toNat then some .noBuffer
  else
    let rounds := request.rounds target
    (opened.writingFailure? request.outFile place rounds).or
      ((opened.sizeFailure? request.outFile rounds).or (opened.syncFailure? request.outFile place rounds))

/-- The failure that a request meets in a world, in the order in which it is met: of the size, of the chunk size, of the
opening, and then of writing the file. -/
def Request.failure? (request : Request) (world : World) : Option Failure :=
  match byteCount request.size with
  | .error fault => some (.size fault)
  | .ok target =>
    if request.chunkSize = 0 then some (.size .zeroChunkSize)
    else match world.tree.create world.home request.outFile with
      | .error fault => some (.file fault request.outFile)
      | .ok (tree, place) => (world.opening tree place).completionFailure? request target place

structure Settled (request : Request) (world : World) (outcome : Except Failure Stats) (after : World) : Prop where
  /-- The failure is that of the first stage that fails. -/
  stages : Stages request world outcome after
  /-- Which stage that is, and how it fails, is told by the request and the world before. -/
  told : ∀ failure, outcome = .error failure ↔ request.failure? world = some failure
  size_fault : ∀ fault, byteCount request.size = .error fault →
    (fault = .notFinite ∧ request.size.isFinite = false) ∨
      (fault = .negative ∧ request.size.isFinite = true ∧ request.size.isBelowZero = true) ∨
      (fault = .tooLarge ∧ request.size.isFinite = true ∧ request.size.isBelowZero = false)
  invalid_iff : ∀ failure, outcome = .error failure →
    (failure.isInvalidArgument = true ↔ ∃ fault, failure = .size fault)
  invalid_untouched : ∀ failure, outcome = .error failure → failure.isInvalidArgument = true → after = world
  unopened_untouched : ∀ fault, world.tree.create world.home request.outFile = .error fault → after = world
  /-- No size is refused after the checks, so none once the file is open. -/
  accepted_valid : ∀ target, byteCount request.size = .ok target → request.chunkSize ≠ 0 →
    ∀ fault, outcome ≠ .error (.size fault)
  path_eq : ∀ fault path, outcome = .error (.file fault path) → path = request.outFile
  not_output : ∀ fault, outcome ≠ .error (.output fault)
  not_remark : ∀ text, outcome ≠ .error (.remark text)
  onlyFile : world.tree.OnlyFileOf world.home request.outFile after.tree

theorem writingFailure?_spec {opened : World} {path : String} {place : Place} {count : Nat} {failure : Failure}
    (h : opened.writingFailure? path place count = some failure) :
    (∃ n < count, ∃ cut, opened.source.cut (opened.cursor.calls + n) = some cut ∧ failure = .random cut.reason) ∨
      ∃ n < count, ∃ fault, opened.fault? n (opened.tree.writeRefusal? place) = some fault ∧ failure = .file fault path := by
  obtain ⟨n, hn, hround⟩ := List.exists_of_findSome?_eq_some h
  rw [List.mem_range] at hn
  unfold World.roundFailure? at hround
  rcases hcut : opened.source.cut (opened.cursor.calls + n) with _ | cut
  · rw [hcut] at hround
    obtain ⟨fault, hfault, rfl⟩ := Option.map_eq_some_iff.mp hround
    exact .inr ⟨n, hn, fault, hfault, rfl⟩
  · rw [hcut] at hround
    cases hround
    exact .inl ⟨n, hn, cut, hcut, rfl⟩

section Completing
variable {request : Request} {target : UInt64} {file : OutputFile Nat} {opened after : World} {place : Place}

theorem Completion.failure_spec {failure : Failure}
    (h : Completion request target file opened place (.error failure) after) :
    (∃ reason, failure = .random reason) ∨ (∃ fault, failure = .file fault request.outFile) ∨
      failure = .noBuffer ∧ largestBuffer < min request.chunkSize.toNat target.toNat := by
  cases h with
  | writing _ cause =>
      cases cause with
      | round _ told =>
          rcases writingFailure?_spec told with ⟨_, -, cut, -, rfl⟩ | ⟨_, -, fault, -, rfl⟩
          · exact .inl ⟨cut.reason, rfl⟩
          · exact .inr (.inl ⟨fault, rfl⟩)
      | noBuffer large => exact .inr (.inr ⟨rfl, large⟩)
  | measuring _ _ _ _ => exact .inr (.inl ⟨_, rfl⟩)
  | syncing _ _ _ _ _ _ => exact .inr (.inl ⟨_, rfl⟩)

theorem completionFailure?_of_room (room : min request.chunkSize.toNat target.toNat ≤ largestBuffer) :
    opened.completionFailure? request target place =
      (opened.writingFailure? request.outFile place (request.rounds target)).or
        ((opened.sizeFailure? request.outFile (request.rounds target)).or
          (opened.syncFailure? request.outFile place (request.rounds target))) :=
  if_neg (Nat.not_lt.mpr room)

theorem World.Clear.completionFailure?_eq (h : opened.Clear request target place) :
    opened.completionFailure? request target place = (opened.sizeFailure? request.outFile (request.rounds target)).or
      (opened.syncFailure? request.outFile place (request.rounds target)) := by
  rw [completionFailure?_of_room h.room, h.rounds, Option.none_or]

theorem Completion.told {outcome : Except Failure Stats} (h : Completion request target file opened place outcome after)
    (failure : Failure) :
    outcome = .error failure ↔ opened.completionFailure? request target place = some failure := by
  cases h with
  | writing _ cause =>
      rw [Except.error.injEq, ← Option.some_inj]
      cases cause with
      | round room told =>
          rw [completionFailure?_of_room room, told]
          rfl
      | noBuffer large =>
          unfold World.completionFailure?
          rw [if_pos large]
  | measuring _ _ clear told =>
      rw [clear.completionFailure?_eq, told, Except.error.injEq, ← Option.some_inj]
      rfl
  | syncing _ _ _ clear measured told =>
      rw [clear.completionFailure?_eq, measured, told, Except.error.injEq, ← Option.some_inj]
      rfl
  | finished _ _ _ clear measured synced =>
      rw [clear.completionFailure?_eq, measured, synced]
      simp

end Completing

section Settling
variable {request : Request} {world after : World} {outcome : Except Failure Stats}

theorem Stages.onlyFileOf (h : Stages request world outcome after) :
    world.tree.OnlyFileOf world.home request.outFile after.tree := by
  cases h with
  | size _ => exact .refl ..
  | chunkSize _ _ => exact .refl ..
  | opening _ _ _ => exact .refl ..
  | @opened target tree place _ _ size_eq chunk_ne create_eq completion =>
      have hfilling := filling_opening create_eq
      have hends := ends_completion chunk_ne rfl hfilling completion
      rcases outcome with failure | stats
      · rcases hends with hbroken | ⟨-, -, rfl⟩
        · obtain ⟨done, hafter⟩ := hbroken.filling
          exact onlyFileOf_filling create_eq hafter
        · exact onlyFileOf_filling create_eq hfilling
      · exact onlyFileOf_filling create_eq hends.2.1

theorem Stages.failure_spec {failure : Failure} (h : Stages request world (.error failure) after) :
    match failure with
    | .size _ => after = world
    | .file _ path => path = request.outFile
    | .output _ => False
    | .remark _ => False
    | .random _ => True
    | .noBuffer => True := by
  cases h with
  | size _ => rfl
  | chunkSize _ _ => rfl
  | opening _ _ _ => rfl
  | opened _ _ _ completion =>
      rcases completion.failure_spec with ⟨reason, rfl⟩ | ⟨fault, rfl⟩ | ⟨rfl, -⟩
      · trivial
      · rfl
      · trivial

/-- The failure of a generation is told by its request and the world before. -/
theorem Stages.told (h : Stages request world outcome after) (failure : Failure) :
    outcome = .error failure ↔ request.failure? world = some failure := by
  unfold Request.failure?
  cases h with
  | size size_eq => rw [size_eq, Except.error.injEq, ← Option.some_inj]
  | chunkSize size_eq chunk_eq =>
      rw [size_eq]
      dsimp only
      rw [if_pos chunk_eq, Except.error.injEq, ← Option.some_inj]
  | opening size_eq chunk_ne create_eq =>
      rw [size_eq]
      dsimp only
      rw [if_neg chunk_ne, create_eq, Except.error.injEq, ← Option.some_inj]
  | opened size_eq chunk_ne create_eq completion =>
      rw [size_eq]
      dsimp only
      rw [if_neg chunk_ne, create_eq]
      exact completion.told failure

theorem Stages.eq_of_unopened {fault : SystemFault} (h : Stages request world outcome after)
    (hcreate : world.tree.create world.home request.outFile = .error fault) : after = world := by
  cases h with
  | size _ => rfl
  | chunkSize _ _ => rfl
  | opening _ _ _ => rfl
  | opened _ _ create_eq _ =>
      rw [hcreate] at create_eq
      cases create_eq

theorem Stages.not_size {target : UInt64} (h : Stages request world outcome after)
    (hsize : byteCount request.size = .ok target) (hchunk : request.chunkSize ≠ 0) (fault : SizeFault) :
    outcome ≠ .error (.size fault) := by
  rintro rfl
  cases h with
  | size size_eq =>
      rw [hsize] at size_eq
      cases size_eq
  | chunkSize _ chunk_eq => exact hchunk chunk_eq
  | opened _ _ _ completion =>
      rcases completion.failure_spec with ⟨_, hfailure⟩ | ⟨_, hfailure⟩ | ⟨hfailure, -⟩ <;> cases hfailure

end Settling

theorem isInvalidArgument_iff (failure : Failure) :
    failure.isInvalidArgument = true ↔ ∃ fault, failure = .size fault := by
  cases failure <;> simp [Failure.isInvalidArgument]

/-- Whatever a request asks for and whatever fails, a generation is settled. -/
theorem generate_settled (request : Request) (world : World) :
    Settled request world (generateIn request world).1 (generateIn request world).2 := by
  have hstages := stages_generate request world
  refine {
    stages := hstages
    told := hstages.told
    size_fault := fun _ => byteCount_error
    invalid_iff := fun failure _ => isInvalidArgument_iff failure
    invalid_untouched := fun failure h hinvalid => ?_
    unopened_untouched := fun fault h => hstages.eq_of_unopened h
    accepted_valid := fun target hsize hchunk => hstages.not_size hsize hchunk
    path_eq := fun fault path h => ?_
    not_output := fun fault h => ?_
    not_remark := fun text h => ?_
    onlyFile := hstages.onlyFileOf }
  all_goals
    rw [h] at hstages
    have hspec := hstages.failure_spec
  · obtain ⟨fault, rfl⟩ := (isInvalidArgument_iff failure).mp hinvalid
    exact hspec
  · exact hspec
  · exact hspec
  · exact hspec

end NoiseFile
