import Mathlib.Logic.ExistsUnique
import NoiseFile.CommandLine.Run
import NoiseFile.Proofs.CommandLine.Acceptance
import NoiseFile.Proofs.Generate.Announce

/-!
# Runs of the command line

* `Adds` : what a run adds to the outlets;
* `Line` : a command line of text; `Line.Refused` and `Line.Asks` tell whether it is refused, or which file it asks for;
* `Course`, `Takes` : the courses that a run can take: an answer, a rejection of the arguments, a refusal of what they
  ask for, or the work itself;
* `run_takes_one_course` : every run takes exactly one of them, and tells of a file exactly if it has made one.
-/

namespace NoiseFile.CommandLine

/-- What a run adds to the outlets of its world. -/
structure Adds (world : World) (printed complained : String) (after : World) : Prop where
  output : after.output = (world.output.offer printed.toUTF8).2
  errors : after.errors = (world.errors.offer complained.toUTF8).2

/-! ## Lines -/

/-- What a command line of text asks for. -/
structure Line where
  outFile : Option String
  size : Option String
  verbose : Bool

namespace Line

def options (line : Line) : Options :=
  { outFile := line.outFile.map .ofString, size := line.size.map .ofString, verbose := line.verbose }

def path (line : Line) : String := line.outFile.getD defaultOutFile

theorem options_injective {line other : Line} (h : line.options = other.options) : line = other := by
  have htexts : ∀ text text' : Option String, text.map Argument.ofString = text'.map .ofString → text = text' :=
    fun _ _ h => Option.map_injective Argument.ofString_injective h
  obtain ⟨houtFile, hsize, hverbose⟩ := Options.mk.inj h
  rw [Line.mk.injEq]
  exact ⟨htexts _ _ houtFile, htexts _ _ hsize, hverbose⟩

/-- The complaint about a line that asks for what cannot be. A directory in the place of the file is noticed first. -/
inductive Refused (line : Line) (world : World) : String → Prop
  | directory (there : world.tree.isDirectory world.home line.path = true) :
      Refused line world ("\"" ++ line.path ++ "\" is a directory")
  | size {text : String} {fault : SizeFault} (free : world.tree.isDirectory world.home line.path = false)
      (size_eq : line.size = some text) (fault_eq : parseSize text = .error fault) :
      Refused line world ("Invalid size \"" ++ text ++ "\" : " ++ fault.message)

inductive Asks (line : Line) (world : World) : Request → Prop
  | plain (free : world.tree.isDirectory world.home line.path = false) (size_eq : line.size = none) :
      Asks line world (.new line.path defaultSize)
  | sized {text : String} {size : Binary64} (free : world.tree.isDirectory world.home line.path = false)
      (size_eq : line.size = some text) (parse_eq : parseSize text = .ok size) :
      Asks line world ((Request.new line.path size).withSizeText (Text.trim text))

theorem Asks.chunkSize_eq {line : Line} {world : World} {request : Request} (h : line.Asks world request) :
    request.chunkSize = defaultChunkSize := by
  cases h <;> rfl

theorem Asks.chunk_le {line : Line} {world : World} {request : Request} (h : line.Asks world request) :
    request.chunkSize.toNat ≤ largestBuffer := by
  rw [h.chunkSize_eq]
  decide

theorem refused_or_asks (line : Line) (world : World) :
    (∃ complaint, line.Refused world complaint) ∨ ∃ request, line.Asks world request := by
  cases hdirectory : world.tree.isDirectory world.home line.path with
  | true => exact .inl ⟨_, .directory hdirectory⟩
  | false =>
      cases hsize : line.size with
      | none => exact .inr ⟨_, .plain hdirectory hsize⟩
      | some text =>
          cases hvalue : parseSize text with
          | error fault => exact .inl ⟨_, .size hdirectory hsize hvalue⟩
          | ok size => exact .inr ⟨_, .sized hdirectory hsize hvalue⟩

theorem Refused.not_asks {line : Line} {world : World} {complaint : String} {request : Request}
    (h : line.Refused world complaint) (hasks : line.Asks world request) : False := by
  cases h <;> cases hasks <;> simp_all

end Line

theorem exists_line {arguments : List String} {options : Options}
    (h : Options.parse (arguments.map .ofString) = .ok options) : ∃ line : Line, options = line.options := by
  have htext := parse_text arguments
  rw [h] at htext
  obtain ⟨outFile, size, verbose, rfl⟩ := htext
  exact ⟨⟨outFile, size, verbose⟩, rfl⟩

/-! ## Courses -/

inductive Course
  | answer
  | rejection
  | refusal
  | work
  deriving DecidableEq

def Takes (arguments : List String) (world : World) (outcome : Outcome) (after : World) : Course → Prop
  | .answer => ∃ stop text, Options.parse (arguments.map .ofString) = .error stop ∧
      (stop = .help ∧ text = helpText ∨ stop = .version ∧ text = versionText) ∧
      outcome = .exited 0 ∧ after.tree = world.tree ∧ Adds world (text ++ "\n") "" after
  | .rejection => ∃ stop, Options.parse (arguments.map .ofString) = .error stop ∧
      (stop = .repeatedVerbose ∨ ∃ shown suggestion verbose, stop = .unexpected shown suggestion verbose) ∧
      outcome = .exited 1 ∧ after.tree = world.tree ∧ Adds world "" (stop.message ++ "\n") after
  | .refusal => ∃ (line : Line) (complaint : String), Options.parse (arguments.map .ofString) = .ok line.options ∧
      line.Refused world complaint ∧
      outcome = .exited 1 ∧ after.tree = world.tree ∧ Adds world "" (complaint ++ "\n") after
  | .work => ∃ (line : Line) (request : Request), Options.parse (arguments.map .ofString) = .ok line.options ∧
      line.Asks world request ∧
      after.tree = (runFrom (generateAndAnnounce request : ExceptT Failure (StateM World) Stats) world).2.tree ∧
      match (runFrom (generateAndAnnounce request : ExceptT Failure (StateM World) Stats) world).1 with
      | .error failure =>
        failure ≠ .noBuffer ∧ outcome = .exited 2 ∧ Adds world "" (failure.message ++ "\n") after
      | .ok stats => outcome = .exited 0 ∧
        Adds world (request.notice ++ "\n" ++ if line.verbose then "\n" ++ stats.text ++ "\n" else "") "" after

/-! ## The parts of a run -/

section Parts
variable {world : World}

theorem print_bind_offer {α : Type} (text : String) (next : Except SystemFault Unit → StateM World α) :
    ((Machine.print text : StateM World (Except SystemFault Unit)) >>= next) world =
      next (world.output.offer text.toUTF8).1 { world with output := (world.output.offer text.toUTF8).2 } := rfl

theorem print_bind {α : Type} (hroom : world.output.room = none) (text : String)
    (next : Except SystemFault Unit → StateM World α) :
    ((Machine.print text : StateM World (Except SystemFault Unit)) >>= next) world =
      next (.ok ()) { world with output := (world.output.offer text.toUTF8).2 } := by
  show next (World.print text world).1 (World.print text world).2 = _
  rw [print_eq hroom]

theorem answer_help (hroom : world.output.room = none) :
    (answer .help : StateM World Outcome) world =
      (.exited 0, { world with output := (world.output.offer (helpText ++ "\n").toUTF8).2 }) := by
  rw [answer, print_bind hroom]
  rfl

theorem answer_version (hroom : world.output.room = none) :
    (answer .version : StateM World Outcome) world =
      (.exited 0, { world with output := (world.output.offer (versionText ++ "\n").toUTF8).2 }) := by
  rw [answer, print_bind hroom]
  rfl

theorem finish_eq (hroom : world.output.room = none) (verbose : Bool) (stats : Stats) :
    (finish verbose stats : StateM World Outcome) world = (.exited 0, { world with
      output := (world.output.offer (if verbose then "\n" ++ stats.text ++ "\n" else "").toUTF8).2 }) := by
  unfold finish
  cases verbose with
  | false =>
      rw [if_neg Bool.false_ne_true, if_neg Bool.false_ne_true, offer_empty]
      rfl
  | true =>
      rw [if_pos rfl, if_pos rfl, print_bind hroom]
      rfl

theorem fulfil_eq (verbose : Bool) (request : Request) (world : World) :
    (fulfil verbose request : StateM World Outcome) world =
      match runFrom (generateAndAnnounce request : ExceptT Failure (StateM World) Stats) world with
      | (.ok stats, after) => (finish verbose stats : StateM World Outcome) after
      | (.error failure, after) => (complainAndExit 2 failure.message : StateM World Outcome) after := by
  have hbind : ∀ next : Except Failure Stats → StateM World Outcome,
      ((generateAndAnnounce request).run >>= next) world =
        next (runFrom (generateAndAnnounce request) world).1 (runFrom (generateAndAnnounce request) world).2 :=
    fun _ => rfl
  unfold fulfil
  rw [hbind]
  rcases runFrom (generateAndAnnounce request : ExceptT Failure (StateM World) Stats) world with ⟨_ | _, after⟩ <;> rfl

theorem fulfil_error {request : Request} {failure : Failure} {after : World} (hroom : world.output.room = none)
    (hrun : generateIn request world = (.error failure, after)) (verbose : Bool) :
    (fulfil verbose request : StateM World Outcome) world =
      (.exited 2, { after with errors := (after.errors.offer (failure.message ++ "\n").toUTF8).2 }) := by
  rw [fulfil_eq, runFrom_generateAndAnnounce request hroom, hrun]
  rfl

/-- A request that is fulfilled. What is printed of it comes behind what was printed before. -/
theorem fulfil_ok {request : Request} {stats : Stats} {after : World} (hroom : world.output.room = none)
    (hrun : generateIn request world = (.ok stats, after)) (verbose : Bool) :
    (fulfil verbose request : StateM World Outcome) world = (.exited 0, { after with
      output := (world.output.offer
        (request.notice ++ "\n" ++ if verbose then "\n" ++ stats.text ++ "\n" else "").toUTF8).2 }) := by
  rw [fulfil_eq, runFrom_generateAndAnnounce request hroom, hrun]
  dsimp only
  rw [finish_eq (room_offer hroom _)]
  exact congrArg (fun output => (Outcome.exited 0, { after with output })) (offer_append hroom _ _)

theorem execute_path {options : Options} {path : String}
    (hpath : options.outFile.elim (some defaultOutFile) Argument.text? = some path) (world : World) :
    (execute options : StateM World Outcome) world =
      if world.tree.isDirectory world.home path then
        (complainAndExit 1 ("\"" ++ path ++ "\" is a directory") : StateM World Outcome) world
      else (withOutFile path options : StateM World Outcome) world := by
  have hbind : ∀ next : Bool → StateM World Outcome,
      ((Machine.isDirectory path : StateM World Bool) >>= next) world =
        next (world.tree.isDirectory world.home path) world := fun _ => rfl
  unfold execute
  rw [hpath]
  dsimp only
  rw [hbind]
  split <;> rfl

theorem execute_eq (line : Line) (world : World) :
    (execute line.options : StateM World Outcome) world =
      if world.tree.isDirectory world.home line.path then
        (complainAndExit 1 ("\"" ++ line.path ++ "\" is a directory") : StateM World Outcome) world
      else (withOutFile line.path line.options : StateM World Outcome) world := by
  apply execute_path
  unfold Line.options Line.path
  cases line.outFile with
  | none => rfl
  | some text => exact Argument.text?_ofString text

theorem withOutFile_eq (line : Line) (world : World) :
    (withOutFile line.path line.options : StateM World Outcome) world =
      match line.size with
      | none => (fulfil line.verbose (.new line.path defaultSize) : StateM World Outcome) world
      | some text => match parseSize text with
        | .error fault =>
          (complainAndExit 1 ("Invalid size \"" ++ text ++ "\" : " ++ fault.message) : StateM World Outcome) world
        | .ok size =>
          (fulfil line.verbose ((Request.new line.path size).withSizeText (Text.trim text)) : StateM World Outcome) world := by
  unfold withOutFile
  cases hsize : line.size with
  | none =>
      have hoptions : line.options.size = none := by rw [Line.options, hsize]; rfl
      rw [hoptions]
      rfl
  | some text =>
      have hoptions : line.options.size = some (.ofString text) := by rw [Line.options, hsize]; rfl
      rw [hoptions]
      dsimp only
      rw [Argument.text?_ofString]
      dsimp only
      cases parseSize text <;> rfl

theorem execute_refused {line : Line} {complaint : String} (h : line.Refused world complaint) :
    (execute line.options : StateM World Outcome) world = (complainAndExit 1 complaint : StateM World Outcome) world := by
  rw [execute_eq]
  cases h with
  | directory there => rw [if_pos there]
  | size free size_eq fault_eq =>
      rw [free, if_neg Bool.false_ne_true, withOutFile_eq, size_eq]
      dsimp only
      rw [fault_eq]

theorem execute_asks {line : Line} {request : Request} (h : line.Asks world request) :
    (execute line.options : StateM World Outcome) world =
      (fulfil line.verbose request : StateM World Outcome) world := by
  rw [execute_eq]
  cases h with
  | plain free size_eq => rw [free, if_neg Bool.false_ne_true, withOutFile_eq, size_eq]
  | sized free size_eq parse_eq =>
      rw [free, if_neg Bool.false_ne_true, withOutFile_eq, size_eq]
      dsimp only
      rw [parse_eq]

end Parts

/-! ## Which course a run takes -/

section Courses
variable {arguments : List String} {world : World}

theorem takes_work {line : Line} {request : Request} (hroom : world.output.room = none)
    (hparse : Options.parse (arguments.map .ofString) = .ok line.options) (hasks : line.Asks world request) :
    let result := (fulfil line.verbose request : StateM World Outcome) world
    Takes arguments world result.1 result.2 .work := by
  have hbuffer := ne_noBuffer hasks.chunk_le world
  have hkept := kept_generate request world
  have hannounce := runFrom_generateAndAnnounce request hroom
  rcases hrun : generateIn request world with ⟨failure | stats, after⟩
  · rw [hrun] at hkept hbuffer hannounce
    rw [fulfil_error hroom hrun]
    refine ⟨line, request, hparse, hasks, by rw [hannounce], ?_⟩
    rw [hannounce]
    exact ⟨fun h => hbuffer (h ▸ rfl), rfl, by rw [offer_empty]; exact hkept.output,
      congrArg (fun errors : Outlet => (errors.offer _).2) hkept.errors⟩
  · rw [hrun] at hkept hannounce
    rw [fulfil_ok hroom hrun]
    refine ⟨line, request, hparse, hasks, by rw [hannounce], ?_⟩
    rw [hannounce]
    exact ⟨rfl, rfl, by rw [offer_empty]; exact hkept.errors⟩

theorem takes_refusal {line : Line} {complaint : String}
    (hparse : Options.parse (arguments.map .ofString) = .ok line.options) (h : line.Refused world complaint) :
    let result := (complainAndExit 1 complaint : StateM World Outcome) world
    Takes arguments world result.1 result.2 .refusal :=
  ⟨line, complaint, hparse, h, rfl, rfl, (offer_empty _).symm, rfl⟩

theorem takes_stop {stop : Stop} (hroom : world.output.room = none)
    (hparse : Options.parse (arguments.map .ofString) = .error stop) (htext : stop ≠ .unreadable) :
    let result := (answer stop : StateM World Outcome) world
    ∃ course, Takes arguments world result.1 result.2 course := by
  cases stop with
  | help =>
      rw [answer_help hroom]
      exact ⟨.answer, _, _, hparse, .inl ⟨rfl, rfl⟩, rfl, rfl, rfl, (offer_empty _).symm⟩
  | version =>
      rw [answer_version hroom]
      exact ⟨.answer, _, _, hparse, .inr ⟨rfl, rfl⟩, rfl, rfl, rfl, (offer_empty _).symm⟩
  | unexpected shown suggestion verbose =>
      exact ⟨.rejection, _, hparse, .inr ⟨_, _, _, rfl⟩, rfl, rfl, (offer_empty _).symm, rfl⟩
  | repeatedVerbose => exact ⟨.rejection, _, hparse, .inl rfl, rfl, rfl, (offer_empty _).symm, rfl⟩
  | unreadable => exact absurd rfl htext

theorem takes_line {line : Line} (hroom : world.output.room = none)
    (hparse : Options.parse (arguments.map .ofString) = .ok line.options) :
    let result := (execute line.options : StateM World Outcome) world
    ∃ course, Takes arguments world result.1 result.2 course := by
  rcases line.refused_or_asks world with ⟨complaint, hrefused⟩ | ⟨request, hasks⟩
  · rw [execute_refused hrefused]
    exact ⟨_, takes_refusal hparse hrefused⟩
  · rw [execute_asks hasks]
    exact ⟨_, takes_work hroom hparse hasks⟩

theorem run_takes (arguments : List String) (hroom : world.output.room = none) :
    let result := (run (arguments.map .ofString) : StateM World Outcome) world
    ∃ course, Takes arguments world result.1 result.2 course := by
  have htext := parse_text arguments
  unfold run
  cases hparse : Options.parse (arguments.map .ofString) with
  | error stop =>
      rw [hparse] at htext
      exact takes_stop hroom hparse htext
  | ok options =>
      obtain ⟨line, rfl⟩ := exists_line hparse
      exact takes_line hroom hparse

/-! ## No other course -/

variable {outcome : Outcome} {after : World} {course other : Course}

theorem Takes.of_stop {stop : Stop} (h : Takes arguments world outcome after course)
    (hparse : Options.parse (arguments.map .ofString) = .error stop) :
    course = if stop = .help ∨ stop = .version then .answer else .rejection := by
  cases course with
  | answer =>
      obtain ⟨_, _, hstop, hkind, -⟩ := h
      cases hparse.symm.trans hstop
      rw [if_pos (hkind.imp And.left And.left)]
  | rejection =>
      obtain ⟨_, hstop, hkind, -⟩ := h
      cases hparse.symm.trans hstop
      rcases hkind with rfl | ⟨_, _, _, rfl⟩ <;> simp
  | refusal =>
      obtain ⟨_, _, hline, -⟩ := h
      cases hparse.symm.trans hline
  | work =>
      obtain ⟨_, _, hline, -⟩ := h
      cases hparse.symm.trans hline

theorem Takes.of_line {line : Line} (h : Takes arguments world outcome after course)
    (hparse : Options.parse (arguments.map .ofString) = .ok line.options) :
    course = .refusal ∧ (∃ complaint, line.Refused world complaint) ∨
      course = .work ∧ ∃ request, line.Asks world request := by
  cases course with
  | answer =>
      obtain ⟨_, _, hstop, -⟩ := h
      cases hparse.symm.trans hstop
  | rejection =>
      obtain ⟨_, hstop, -⟩ := h
      cases hparse.symm.trans hstop
  | refusal =>
      obtain ⟨line', complaint, hline, hrefused, -⟩ := h
      obtain rfl : line = line' := Line.options_injective (Except.ok.inj (hparse.symm.trans hline))
      exact .inl ⟨rfl, complaint, hrefused⟩
  | work =>
      obtain ⟨line', request, hline, hasks, -⟩ := h
      obtain rfl : line = line' := Line.options_injective (Except.ok.inj (hparse.symm.trans hline))
      exact .inr ⟨rfl, request, hasks⟩

theorem Takes.unique (h : Takes arguments world outcome after course) (hother : Takes arguments world outcome after other) :
    course = other := by
  cases hparse : Options.parse (arguments.map .ofString) with
  | error stop => rw [h.of_stop hparse, hother.of_stop hparse]
  | ok options =>
      obtain ⟨line, rfl⟩ := exists_line hparse
      rcases h.of_line hparse with ⟨rfl, complaint, hrefused⟩ | ⟨rfl, request, hasks⟩ <;>
        rcases hother.of_line hparse with ⟨rfl, complaint', hrefused'⟩ | ⟨rfl, request', hasks'⟩
      · rfl
      · exact (hrefused.not_asks hasks').elim
      · exact (hrefused'.not_asks hasks).elim
      · rfl

/-! ## What a run tells -/

/-- A text that tells of a complete file. -/
def Tells (text : String) : Prop := ∃ request : Request, request.notice.toList <:+: text.toList

theorem Tells.quote {text : String} (h : Tells text) : '\'' ∈ text.toList := by
  obtain ⟨request, hnotice⟩ := h
  refine hnotice.subset ?_
  simp [Request.notice]

theorem tells_notice (request : Request) (more : String) : Tells (request.notice ++ "\n" ++ more) := by
  refine ⟨request, ?_⟩
  rw [String.toList_append, String.toList_append, List.append_assoc]
  exact (List.prefix_append _ _).isInfix

theorem not_tells_empty : ¬ Tells "" := fun h => not_mem_toList (by decide) h.quote

theorem not_tells_version : ¬ Tells (versionText ++ "\n") := by
  refine mt Tells.quote ?_
  rw [versionText, String.toList_append, List.mem_append, not_or]
  exact ⟨not_mem_toList (by decide), not_mem_toList (by decide)⟩

theorem not_tells_help : ¬ Tells (helpText ++ "\n") := by
  refine mt Tells.quote ?_
  unfold helpText versionText
  simp only [String.toList_append, List.mem_append, not_or]
  and_intros <;> exact not_mem_toList (by decide)

theorem Takes.tells (h : Takes arguments world outcome after course) :
    ∃ printed complained, Adds world printed complained after ∧
      (Tells printed ↔ course = .work ∧ outcome = .exited 0) := by
  cases course with
  | answer =>
      obtain ⟨stop, text, -, hkind, -, -, hadds⟩ := h
      refine ⟨_, _, hadds, fun htells => ?_, fun hwork => nomatch hwork.1⟩
      rcases hkind with ⟨-, rfl⟩ | ⟨-, rfl⟩
      · exact absurd htells not_tells_help
      · exact absurd htells not_tells_version
  | rejection =>
      obtain ⟨_, -, -, -, -, hadds⟩ := h
      exact ⟨_, _, hadds, fun htells => absurd htells not_tells_empty, fun hwork => nomatch hwork.1⟩
  | refusal =>
      obtain ⟨_, _, -, -, -, -, hadds⟩ := h
      exact ⟨_, _, hadds, fun htells => absurd htells not_tells_empty, fun hwork => nomatch hwork.1⟩
  | work =>
      obtain ⟨line, request, -, -, -, hend⟩ := h
      split at hend
      · obtain ⟨-, rfl, hadds⟩ := hend
        exact ⟨_, _, hadds, fun htells => absurd htells not_tells_empty, fun hwork => nomatch hwork.2⟩
      · obtain ⟨rfl, hadds⟩ := hend
        exact ⟨_, _, hadds, fun _ => ⟨rfl, rfl⟩, fun _ => tells_notice request _⟩

end Courses

/-- Every run of a command line of text, with an output that takes what is printed, takes exactly one course, and tells
of a file exactly if it has made one. -/
theorem run_takes_one_course (arguments : List String) (world : World) (hroom : world.output.room = none) :
    let result := (run (arguments.map .ofString) : StateM World Outcome) world
    (∃! course, Takes arguments world result.1 result.2 course) ∧
      ∀ course, Takes arguments world result.1 result.2 course →
        ∃ printed complained, Adds world printed complained result.2 ∧
          (Tells printed ↔ course = .work ∧ result.1 = .exited 0) := by
  intro result
  obtain ⟨course, htakes⟩ := run_takes arguments hroom
  exact ⟨⟨course, htakes, fun _ hother => hother.unique htakes⟩, fun _ h => h.tells⟩

/-- A directory in the place of the file, and a size that is none: what is complained of is the directory. -/
theorem run_takes_one_course_directory :
    let tree : FileSystem.Tree := ⟨[(.named ["d"], .directory)]⟩
    let world : World := { tree, home := [], source := { byteAt := fun _ => 7, cut := fun _ => none } }
    let result := (run (["d", "-1", "-v"].map .ofString) : StateM World Outcome) world
    world.output.room = none ∧
      (∀ course, Takes ["d", "-1", "-v"] world result.1 result.2 course → course = .refusal) ∧
      result.1 = .exited 1 ∧ Adds world "" "\"d\" is a directory\n" result.2 := by
  intro tree world result
  have hroom : world.output.room = none := rfl
  obtain ⟨hone, -⟩ := run_takes_one_course ["d", "-1", "-v"] world hroom
  have hparse : Options.parse (["d", "-1", "-v"].map .ofString) =
      .ok (Line.mk (some "d") (some "-1") true).options := rfl
  have hrefusal : Takes ["d", "-1", "-v"] world result.1 result.2 .refusal :=
    ⟨_, _, hparse, .directory rfl, rfl, rfl, rfl, rfl⟩
  exact ⟨hroom, fun course htakes => hone.unique htakes hrefusal, rfl, rfl, rfl⟩

end NoiseFile.CommandLine
