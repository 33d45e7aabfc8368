import NoiseFile.Proofs.CommandLine.Run
import NoiseFile.Proofs.Size.Exact
import NoiseFile.Proofs.Size.Reading

/-!
# The exit codes of failures

* `FailsWith` : what a run fails of: the size when it is read, or whatever the work fails of;
* `run_asks`, `exitCode_fulfil` : a run that asks for a file is the work on it, and ends with code 2 if the work fails;
* `announce_failure` : what the work can fail of. A size that could be read can still be too large;
* `run_exitCode` : the code of a run that fails, and where code 2 comes from.
-/

namespace NoiseFile

/-- A failure of the work itself: of the file, of the random source, or of the output. -/
def Failure.isOperational : Failure → Bool
  | .file .. | .random _ | .output _ => true
  | .size _ | .remark _ | .noBuffer => false

/-- An accepted size is too large from `2³⁴` on. -/
theorem byteCount_tooLarge_iff {size : Binary64} (h : checkSize size = .ok ()) :
    byteCount size = .error .tooLarge ↔ 2 ^ 34 ≤ size.value := by
  obtain ⟨haccepted, -⟩ := checkSize_cases size
  obtain ⟨hfinite, hunits⟩ := haccepted.mp h
  have hbytes : (2 : ℚ) ^ 64 = 2 ^ 34 * 2 ^ 30 := by norm_num
  rw [(byteCount_exact size).2.2.1, Binary64.value_nonneg_iff, and_iff_right hfinite, and_iff_right hunits, hbytes,
    mul_le_mul_iff_left₀ (by positivity)]

namespace CommandLine

inductive FailsWith (arguments : List String) (world : World) : Failure → Prop
  | reading {line : Line} {text : String} {fault : SizeFault}
      (parse_eq : Options.parse (arguments.map .ofString) = .ok line.options)
      (free : world.tree.isDirectory world.home line.path = false) (size_eq : line.size = some text)
      (fault_eq : parseSize text = .error fault) : FailsWith arguments world (.size fault)
  | working {line : Line} {request : Request} {failure : Failure}
      (parse_eq : Options.parse (arguments.map .ofString) = .ok line.options) (asks : line.Asks world request)
      (work_eq : (runFrom (generateAndAnnounce request : ExceptT Failure (StateM World) Stats) world).1 = .error failure) :
      FailsWith arguments world failure

/-! ## Ends of runs -/

section Ends
variable {arguments : List String} {world : World} {line : Line}

theorem run_of_stop {stop : Stop} (h : Options.parse (arguments.map .ofString) = .error stop) :
    (run (arguments.map .ofString) : StateM World Outcome) world = (answer stop : StateM World Outcome) world := by
  unfold run
  rw [h]

theorem exitCode_answer (stop : Stop) (world : World) : ((answer stop : StateM World Outcome) world).1 ≠ .exited 2 := by
  intro h
  cases stop with
  | version =>
      rw [answer, print_bind_offer] at h
      cases hoffer : (world.output.offer (versionText ++ "\n").toUTF8).1 <;> (rw [hoffer] at h; cases h)
  | _ => cases h

theorem exitCode_finish (verbose : Bool) (stats : Stats) (world : World) :
    ((finish verbose stats : StateM World Outcome) world).1 ≠ .exited 2 := by
  intro h
  unfold finish at h
  cases verbose with
  | false => cases h
  | true =>
      rw [if_pos rfl, print_bind_offer] at h
      cases hoffer : (world.output.offer ("\n" ++ stats.text ++ "\n").toUTF8).1 <;> (rw [hoffer] at h; cases h)

theorem run_of_line (h : Options.parse (arguments.map .ofString) = .ok line.options) :
    (run (arguments.map .ofString) : StateM World Outcome) world = (execute line.options : StateM World Outcome) world := by
  unfold run
  rw [h]

theorem run_asks {request : Request} (hparse : Options.parse (arguments.map .ofString) = .ok line.options)
    (hasks : line.Asks world request) :
    (run (arguments.map .ofString) : StateM World Outcome) world =
      (fulfil line.verbose request : StateM World Outcome) world :=
  (run_of_line hparse).trans (execute_asks hasks)

theorem exitCode_refused {complaint : String} (hparse : Options.parse (arguments.map .ofString) = .ok line.options)
    (hrefused : line.Refused world complaint) :
    ((run (arguments.map .ofString) : StateM World Outcome) world).1 = .exited 1 := by
  rw [run_of_line hparse, execute_refused hrefused]
  rfl

end Ends

/-! ## What the work fails of -/

section Work
variable {line : Line} {world : World} {request : Request} {failure : Failure}

theorem Line.Asks.chunk_ne (h : line.Asks world request) : request.chunkSize ≠ 0 := by
  rw [h.chunkSize_eq]
  decide

theorem Line.Asks.checkSize_eq (h : line.Asks world request) : checkSize request.size = .ok () := by
  have hdefault : checkSize defaultSize = .ok () := by decide +kernel
  cases h with
  | plain => exact hdefault
  | sized _ _ parse_eq => exact checkSize_of_parseSize parse_eq

/-- The work can fail of itself, and else only of a size that is too large. -/
theorem announce_failure (hasks : line.Asks world request)
    (h : (runFrom (generateAndAnnounce request : ExceptT Failure (StateM World) Stats) world).1 = .error failure) :
    failure.isOperational = true ∨ failure = .size .tooLarge ∧ byteCount request.size = .error .tooLarge := by
  have hstages := stages_generate request world
  have hbuffer := ne_noBuffer hasks.chunk_le world
  rw [announce_eq] at h
  rcases hrun : generateIn request world with ⟨fault | stats, after⟩
  · rw [hrun] at h hstages hbuffer
    obtain rfl : fault = failure := Except.error.inj h
    cases hstages with
    | @size fault size_eq =>
        right
        obtain ⟨hinfinite, hnegative, -⟩ := byteCount_cases request.size
        rw [hasks.checkSize_eq] at hinfinite hnegative
        rcases byteCount_error size_eq with ⟨rfl, -⟩ | ⟨rfl, -⟩ | ⟨rfl, -⟩
        · cases hinfinite.mp size_eq
        · cases hnegative.mp size_eq
        · exact ⟨rfl, size_eq⟩
    | chunkSize _ chunk_eq => exact absurd chunk_eq hasks.chunk_ne
    | opening _ _ _ => exact .inl rfl
    | opened _ _ _ completion =>
        left
        rcases completion.failure_spec with ⟨reason, rfl⟩ | ⟨fault, rfl⟩ | ⟨rfl, -⟩
        · rfl
        · rfl
        · exact absurd rfl hbuffer
  · rw [hrun] at h
    left
    rcases hoffer : (world.output.offer (request.notice ++ "\n").toUTF8).1 with fault | _
    · rw [hoffer] at h
      rw [← Except.error.inj h]
      rfl
    · rw [hoffer] at h
      cases h

theorem announce_tooLarge (h : byteCount request.size = .error .tooLarge) :
    (runFrom (generateAndAnnounce request : ExceptT Failure (StateM World) Stats) world).1 = .error (.size .tooLarge) := by
  have hrun : generateIn request world = (.error (.size .tooLarge), world) :=
    Prod.ext_iff.mpr ((stages_generate request world).of_refused h)
  rw [announce_eq, hrun]

theorem exitCode_fulfil (verbose : Bool) :
    ((fulfil verbose request : StateM World Outcome) world).1 = .exited 2 ↔
      ∃ failure,
        (runFrom (generateAndAnnounce request : ExceptT Failure (StateM World) Stats) world).1 = .error failure := by
  rw [fulfil_eq]
  rcases runFrom (generateAndAnnounce request : ExceptT Failure (StateM World) Stats) world with ⟨failure | stats, after⟩
  · exact iff_of_true rfl ⟨failure, rfl⟩
  · refine iff_of_false (exitCode_finish verbose stats after) ?_
    rintro ⟨failure, h⟩
    cases h

end Work

/-! ## Codes -/

section Codes
variable {arguments : List String} {world : World}

theorem FailsWith.exitCode {failure : Failure} (h : FailsWith arguments world failure) :
    (failure.isOperational = true ∨ failure.isInvalidArgument = true) ∧
      ((run (arguments.map .ofString) : StateM World Outcome) world).1 =
        .exited (if failure.isOperational = true ∨ failure = .size .tooLarge then 2 else 1) := by
  cases h with
  | @reading line text fault parse_eq free size_eq fault_eq =>
      have hother : ¬((Failure.size fault).isOperational = true ∨ Failure.size fault = .size .tooLarge) := by
        rintro (hoperational | hlarge)
        · cases hoperational
        · exact parseSize_ne_tooLarge (Failure.size.inj hlarge ▸ fault_eq)
      rw [exitCode_refused parse_eq (.size free size_eq fault_eq), if_neg hother]
      exact ⟨.inr rfl, rfl⟩
  | @working line request _ parse_eq asks work_eq =>
      have hcode := (exitCode_fulfil line.verbose).mpr ⟨_, work_eq⟩
      rw [run_asks parse_eq asks]
      rcases announce_failure asks work_eq with hoperational | ⟨rfl, -⟩
      · rw [if_pos (.inl hoperational)]
        exact ⟨.inl hoperational, hcode⟩
      · rw [if_pos (.inr rfl)]
        exact ⟨.inr rfl, hcode⟩

/-- Nothing but a failure of the work ends a run with code 2. -/
theorem exists_failsWith (h : ((run (arguments.map .ofString) : StateM World Outcome) world).1 = .exited 2) :
    ∃ failure, FailsWith arguments world failure ∧ (failure.isOperational = true ∨ failure = .size .tooLarge) := by
  cases hparse : Options.parse (arguments.map .ofString) with
  | error stop =>
      rw [run_of_stop hparse] at h
      exact absurd h (exitCode_answer stop world)
  | ok options =>
      obtain ⟨line, rfl⟩ := exists_line hparse
      rcases line.refused_or_asks world with ⟨complaint, hrefused⟩ | ⟨request, hasks⟩
      · rw [exitCode_refused hparse hrefused] at h
        cases h
      · rw [run_asks hparse hasks] at h
        obtain ⟨failure, hfailure⟩ := (exitCode_fulfil _).mp h
        exact ⟨failure, .working hparse hasks hfailure, (announce_failure hasks hfailure).imp_right And.left⟩

theorem failsWith_tooLarge_iff :
    FailsWith arguments world (.size .tooLarge) ↔ ∃ (line : Line) (text : String) (size : Binary64),
      Options.parse (arguments.map .ofString) = .ok line.options ∧
      world.tree.isDirectory world.home line.path = false ∧ line.size = some text ∧ parseSize text = .ok size ∧
      2 ^ 34 ≤ size.value := by
  constructor
  · intro h
    cases h with
    | reading _ _ _ fault_eq => exact absurd fault_eq parseSize_ne_tooLarge
    | @working line request failure parse_eq asks work_eq =>
        obtain ⟨-, hcount⟩ := (announce_failure asks work_eq).resolve_left nofun
        have hlarge := (byteCount_tooLarge_iff asks.checkSize_eq).mp hcount
        have hdefault : byteCount defaultSize ≠ .error .tooLarge := by decide +kernel
        cases asks with
        | plain => exact absurd hcount hdefault
        | sized free size_eq size_ok => exact ⟨line, _, _, parse_eq, free, size_eq, size_ok, hlarge⟩
  · rintro ⟨line, text, size, hparse, hfree, hsize, hvalue, hlarge⟩
    have hcount := (byteCount_tooLarge_iff (checkSize_of_parseSize hvalue)).mpr hlarge
    exact .working hparse (.sized hfree hsize hvalue) (announce_tooLarge hcount)

end Codes

/-- A run that fails of an argument ends with code 1, unless what it fails of is a size that is too large. That one is
noticed by the work, so it ends with code 2, as the failures of the work itself do; and nothing else does. Too large are
the sizes that can be read and are `2³⁴` or more. -/
theorem run_exitCode (arguments : List String) (world : World) :
    let outcome := ((run (arguments.map .ofString) : StateM World Outcome) world).1
    (∀ failure, FailsWith arguments world failure →
      (failure.isOperational = true ∨ failure.isInvalidArgument = true) ∧
        outcome = .exited (if failure.isOperational = true ∨ failure = .size .tooLarge then 2 else 1)) ∧
      (outcome = .exited 2 →
        ∃ failure, FailsWith arguments world failure ∧ (failure.isOperational = true ∨ failure = .size .tooLarge)) ∧
      (FailsWith arguments world (.size .tooLarge) ↔ ∃ (line : Line) (text : String) (size : Binary64),
        Options.parse (arguments.map .ofString) = .ok line.options ∧
        world.tree.isDirectory world.home line.path = false ∧ line.size = some text ∧ parseSize text = .ok size ∧
        2 ^ 34 ≤ size.value) :=
  ⟨fun _ => FailsWith.exitCode, exists_failsWith, failsWith_tooLarge_iff⟩

/-- The first size that is too large, in an empty tree. -/
theorem failsWith_firstTooLarge (source : Source) :
    FailsWith ["f", "17179869184"] { tree := ⟨[]⟩, home := [], source } (.size .tooLarge) := by
  have hparse : Options.parse (["f", "17179869184"].map .ofString) =
      .ok (Line.mk (some "f") (some "17179869184") false).options := rfl
  have hvalue : parseSize "17179869184" = .ok ⟨0x4210000000000000⟩ := by decide +kernel
  have hcount : byteCount ⟨0x4210000000000000⟩ = .error .tooLarge := by decide +kernel
  exact .working hparse (.sized rfl rfl hvalue) (announce_tooLarge hcount)

/-- Two sizes that make no sense: a negative one, and one that is a byte too large. -/
theorem run_exitCode_of_sizes :
    let world : World := { tree := ⟨[]⟩, home := [], source := { byteAt := fun _ => 7, cut := fun _ => none } }
    FailsWith ["f", "-1"] world (.size .negative) ∧
      ((run (["f", "-1"].map .ofString) : StateM World Outcome) world).1 = .exited 1 ∧
      FailsWith ["f", "17179869184"] world (.size .tooLarge) ∧
      ((run (["f", "17179869184"].map .ofString) : StateM World Outcome) world).1 = .exited 2 := by
  intro world
  have hparse : Options.parse (["f", "-1"].map .ofString) = .ok (Line.mk (some "f") (some "-1") false).options := rfl
  have hvalue : parseSize "-1" = .error .negative := by decide +kernel
  have hnegative : FailsWith ["f", "-1"] world (.size .negative) := .reading hparse rfl rfl hvalue
  have hlarge : FailsWith ["f", "17179869184"] world (.size .tooLarge) := failsWith_firstTooLarge world.source
  exact ⟨hnegative, ((run_exitCode _ world).1 _ hnegative).2, hlarge, ((run_exitCode _ world).1 _ hlarge).2⟩

/-- So there are runs that fail of an argument and do not end with code 1. -/
theorem invalidArgument_exits_with_two :
    ¬∀ (arguments : List String) (world : World) (failure : Failure), FailsWith arguments world failure →
      failure.isInvalidArgument = true → ((run (arguments.map .ofString) : StateM World Outcome) world).1 = .exited 1 := by
  intro h
  have hlarge := failsWith_firstTooLarge { byteAt := fun _ => 7, cut := fun _ => none }
  have hone := h _ _ _ hlarge rfl
  have htwo := hlarge.exitCode.2
  rw [if_pos (.inr rfl), hone] at htwo
  cases htwo

end CommandLine

end NoiseFile
