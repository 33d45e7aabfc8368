import NoiseFile.Proofs.CommandLine.ExitCode
import NoiseFile.Proofs.Generate.Repeated
import NoiseFile.Proofs.Sink

/-!
# Notices that tell how to run again

* `Request.notice_inj` : no blank stands in a size, so a notice tells where its size begins, and with it the file;
* `Line.Asks.sizeText_shown` : the size in a notice is a numeral, which reads as the size of the request;
* `parse_values` : words that are read as a file and a size and nothing else;
* `Generates`, `fulfil_exited` : a run that generates a file, what it prints and what it leaves;
* `notice_replays` : such a run can be repeated from its notice.
-/

namespace NoiseFile

/-! ## Notices -/

/-- Read backwards, a size without blanks ends at the blank in front of it. -/
theorem takeWhile_backwards {size : List Char} (h : ∀ c ∈ size, Text.isBlank c = false) (file : List Char) :
    (file ++ ("' of ".toList ++ size)).reverse.takeWhile (fun c => !Text.isBlank c) = size.reverse := by
  have hquote : "' of ".toList = ['\'', ' ', 'o', 'f', ' '] := rfl
  rw [hquote, List.reverse_append, List.reverse_append, List.append_assoc]
  refine takeWhile_stretch (fun c hc => ?_) fun c hc => ?_
  · rw [h c (List.mem_reverse.mp hc)]
    rfl
  · obtain rfl : ' ' = c := Option.some.inj hc
    decide

/-- A notice is known by its file and its size, whatever the file is called, if no blank stands in the size. -/
theorem Request.notice_inj {request other : Request} (hsize : ∀ c ∈ request.sizeText.toList, Text.isBlank c = false)
    (hother : ∀ c ∈ other.sizeText.toList, Text.isBlank c = false) (h : request.notice = other.notice) :
    request.outFile = other.outFile ∧ request.sizeText = other.sizeText := by
  have hbody : request.outFile.toList ++ ("' of ".toList ++ request.sizeText.toList) =
      other.outFile.toList ++ ("' of ".toList ++ other.sizeText.toList) := by
    have hchars := congrArg String.toList h
    simp only [Request.notice, String.toList_append, List.append_assoc] at hchars
    have hend := List.append_cancel_left hchars
    simp only [← List.append_assoc, List.append_left_inj] at hend
    simpa only [List.append_assoc] using hend
  have hsizes := congrArg (fun cs => cs.reverse.takeWhile fun c => !Text.isBlank c) hbody
  rw [takeWhile_backwards hsize, takeWhile_backwards hother, List.reverse_inj] at hsizes
  rw [hsizes] at hbody
  exact ⟨String.toList_injective (List.append_cancel_right hbody), String.toList_injective hsizes⟩

theorem Request.sizeText_new (outFile : String) (size : Binary64) : (Request.new outFile size).sizeText = size.text := rfl

theorem Request.eq_new {request : Request} (h : request.chunkSize = defaultChunkSize) :
    (Request.new request.outFile request.size).withSizeText request.sizeText = request := by
  cases request
  subst h
  rfl

/-! ## Sizes in notices -/

theorem parseSize_congr {text other : String} (h : Text.trimChars text.toList = Text.trimChars other.toList) :
    parseSize text = parseSize other := by
  unfold parseSize
  rw [h]

theorem trimChars_numeral {text : String} {numeral : Numeral} (h : text.toList = numeral.spelling) :
    Text.trimChars text.toList = text.toList := by
  have hshows : Shows text numeral := ⟨[], [], by rw [h]; simp, List.forall_mem_nil _, List.forall_mem_nil _⟩
  rw [trimChars_shown hshows, h]

theorem exists_shows_of_parseSize {text : String} {size : Binary64} (h : parseSize text = .ok size) :
    ∃ numeral, Shows text numeral := by
  have hkeyword : ∀ keyword, ¬ShowsKeyword text keyword := by
    intro keyword hshows
    rw [parseSize_keyword hshows] at h
    cases h
  exact exists_shows hkeyword (by rw [h]; rintro ⟨⟩)

namespace CommandLine

section Asks
variable {line : Line} {world : World} {request : Request} (hasks : line.Asks world request)
include hasks

theorem Line.Asks.sizeText_shown :
    ∃ numeral : Numeral, request.sizeText.toList = numeral.spelling ∧ parseSize request.sizeText = .ok request.size := by
  cases hasks with
  | plain =>
      have hfinite : defaultSize.isFinite = true := by decide +kernel
      have hcheck : checkSize defaultSize = .ok () := by decide +kernel
      obtain ⟨numeral, -, -, htext, -⟩ := Binary64.exists_numeral_text hfinite
      rw [Request.sizeText_new, parseSize_text, hcheck]
      exact ⟨numeral, htext, rfl⟩
  | @sized text size _ _ parse_eq =>
      obtain ⟨numeral, hshows⟩ := exists_shows_of_parseSize parse_eq
      have htrim : (Text.trim text).toList = numeral.spelling := by
        rw [Text.trim, String.toList_ofList, trimChars_shown hshows]
      refine ⟨numeral, htrim, ?_⟩
      show parseSize (Text.trim text) = .ok size
      rw [← parse_eq]
      refine parseSize_congr ?_
      rw [trimChars_numeral htrim, htrim, trimChars_shown hshows]

theorem Line.Asks.trim_sizeText : Text.trim request.sizeText = request.sizeText := by
  obtain ⟨numeral, hnumeral, -⟩ := hasks.sizeText_shown
  rw [Text.trim, trimChars_numeral hnumeral, String.ofList_toList]

theorem Line.Asks.isBlank_sizeText : ∀ c ∈ request.sizeText.toList, Text.isBlank c = false := by
  obtain ⟨numeral, hnumeral, -⟩ := hasks.sizeText_shown
  rw [hnumeral]
  exact isBlank_numeral numeral

theorem Line.Asks.isValue_sizeText : IsValue request.sizeText := by
  obtain ⟨numeral, hnumeral, -⟩ := hasks.sizeText_shown
  have hnumber : IsBinary64 request.sizeText := by
    rw [IsBinary64, hnumeral, numeral.parse?_spelling]
    rfl
  exact .inr (.inr (.inr hnumber))

theorem Line.Asks.again {again : World} (hfree : again.tree.isDirectory again.home request.outFile = false) :
    (Line.mk (some request.outFile) (some request.sizeText) false).Asks again request := by
  obtain ⟨numeral, -, hparse⟩ := hasks.sizeText_shown
  have hagain : (Line.mk (some request.outFile) (some request.sizeText) false).Asks again _ := .sized hfree rfl hparse
  have hpath : (Line.mk (some request.outFile) (some request.sizeText) false).path = request.outFile := rfl
  rwa [hasks.trim_sizeText, hpath, Request.eq_new hasks.chunkSize_eq] at hagain

end Asks

/-! ## Words -/

section Words
variable {file size : String} {words : List String}

/-- Words that are read as a file and a size ask for these and for nothing else. -/
theorem parse_values (h : Reading words [.value file, .value size]) :
    Options.parse (words.map .ofString) = .ok (Line.mk (some file) (some size) false).options := by
  have hundecided : Undecided [.value file, .value size] :=
    undecided_iff.mpr ⟨by simp [Token.Passes], Nat.le_refl _⟩
  have hpositionals : positionals words = [file, size] := (valuesOf_reading h).symm
  rw [parse_undecided h hundecided]
  simp [granted, hpositionals, Line.options]

theorem ne_dashes_of_isValue (h : IsValue size) : size ≠ "--" := by
  rintro rfl
  have hdashes : "--".toList = ['-', '-'] := rfl
  exact not_isValue_of_dashes hdashes h

theorem reading_values (hsize : IsValue size)
    (hwords : words = ["--", file, size] ∨ file.toList.head? ≠ some '-' ∧ words = [file, size]) :
    Reading words [.value file, .value size] := by
  rcases hwords with rfl | ⟨hhead, rfl⟩
  · exact .dashes
  · have hfile : IsValue file := .inl hhead
    exact .cons (ne_dashes_of_isValue hfile) (.value hfile) (.cons (ne_dashes_of_isValue hsize) (.value hsize) .nil)

end Words

/-! ## Runs that generate a file -/

/-- A run that generates the file of a request: its words ask for that file, and it ends with code 0. -/
structure Generates (arguments : List String) (world : World) (request : Request) : Prop where
  asks : ∃ line : Line, Options.parse (arguments.map .ofString) = .ok line.options ∧ line.Asks world request
  exited : ((run (arguments.map .ofString) : StateM World Outcome) world).1 = .exited 0

theorem offer_ok_of_room {outlet other : Outlet} (hroom : other.room = outlet.room) {bytes : ByteArray}
    (h : (outlet.offer bytes).1 = .ok ()) : (other.offer bytes).1 = .ok () := by
  unfold Outlet.offer at h ⊢
  rw [hroom]
  cases hsome : outlet.room with
  | none => rfl
  | some room =>
      rw [hsome] at h
      dsimp only at h ⊢
      split at h
      next hfits => exact if_pos hfits
      next => cases h

section Work
variable {verbose : Bool} {request : Request} {world : World}

theorem finish_exited {stats : Stats} (h : ((finish verbose stats : StateM World Outcome) world).1 = .exited 0) :
    ((finish verbose stats : StateM World Outcome) world).2 = { world with
      output := (world.output.offer (if verbose then "\n" ++ stats.text ++ "\n" else "").toUTF8).2 } := by
  unfold finish at h ⊢
  cases verbose with
  | false =>
      rw [if_neg Bool.false_ne_true, if_neg Bool.false_ne_true, offer_empty]
      rfl
  | true =>
      rw [if_pos rfl, print_bind_offer] at h ⊢
      rw [if_pos rfl]
      rcases hoffer : (world.output.offer ("\n" ++ stats.text ++ "\n").toUTF8).1 with fault | _
      · rw [hoffer] at h
        cases h
      · rfl

theorem fulfil_exited (h : ((fulfil verbose request : StateM World Outcome) world).1 = .exited 0) :
    ∃ stats, (generateIn request world).1 = .ok stats ∧
      (world.output.offer (request.notice ++ "\n").toUTF8).1 = .ok () ∧
      ((fulfil verbose request : StateM World Outcome) world).2 = { (generateIn request world).2 with
        output := (world.output.offer
          (request.notice ++ "\n" ++ if verbose then "\n" ++ stats.text ++ "\n" else "").toUTF8).2 } := by
  rw [fulfil_eq, announce_eq] at h ⊢
  rcases hrun : generateIn request world with ⟨failure | stats, after⟩
  · rw [hrun] at h
    cases h
  rw [hrun] at h
  rcases hoffer : world.output.offer (request.notice ++ "\n").toUTF8 with ⟨fault | _, output⟩
  · rw [hoffer] at h
    cases h
  rw [hoffer] at h
  refine ⟨stats, rfl, rfl, ?_⟩
  have hbytes : ∀ text more : String, (text ++ more).toUTF8 = text.toUTF8 ++ more.toUTF8 := fun _ _ =>
    String.toByteArray_append
  rw [hbytes, Outlet.offer_append, hoffer]
  exact finish_exited h

theorem fulfil_quietly {stats : Stats} (hok : (generateIn request world).1 = .ok stats)
    (hoffer : (world.output.offer (request.notice ++ "\n").toUTF8).1 = .ok ()) :
    ((fulfil false request : StateM World Outcome) world).1 = .exited 0 := by
  rw [fulfil_eq, announce_eq]
  rcases hrun : generateIn request world with ⟨failure | stats, after⟩
  · rw [hrun] at hok
    cases hok
  dsimp only
  rw [hoffer]
  rfl

end Work

section Runs
variable {arguments : List String} {world : World} {request : Request}

theorem exists_generates {options : Options} (hparse : Options.parse (arguments.map .ofString) = .ok options)
    (hexited : ((run (arguments.map .ofString) : StateM World Outcome) world).1 = .exited 0) :
    ∃ request, Generates arguments world request := by
  obtain ⟨line, rfl⟩ := exists_line hparse
  rcases line.refused_or_asks world with ⟨complaint, hrefused⟩ | ⟨request, hasks⟩
  · rw [exitCode_refused hparse hrefused] at hexited
    cases hexited
  · exact ⟨request, ⟨line, hparse, hasks⟩, hexited⟩

theorem Generates.done (h : Generates arguments world request) :
    ∃ stats, (generateIn request world).1 = .ok stats ∧
      (world.output.offer (request.notice ++ "\n").toUTF8).1 = .ok () ∧
      ((run (arguments.map .ofString) : StateM World Outcome) world).2.tree = (generateIn request world).2.tree ∧
      ∃ more, Adds world (request.notice ++ "\n" ++ more) ""
        ((run (arguments.map .ofString) : StateM World Outcome) world).2 := by
  obtain ⟨⟨line, hparse, hasks⟩, hexited⟩ := h
  rw [run_asks hparse hasks] at hexited ⊢
  obtain ⟨stats, hok, hoffer, hafter⟩ := fulfil_exited hexited
  rw [hafter]
  exact ⟨stats, hok, hoffer, rfl, _, rfl, by rw [offer_empty]; exact (kept_generate request world).errors⟩

theorem Generates.notice_inj {others : List String} {elsewhere : World} {other : Request}
    (h : Generates arguments world request) (hother : Generates others elsewhere other)
    (hnotice : other.notice = request.notice) :
    other.outFile = request.outFile ∧ other.sizeText = request.sizeText := by
  obtain ⟨_, -, hasks⟩ := h.asks
  obtain ⟨_, -, hasks'⟩ := hother.asks
  exact Request.notice_inj hasks'.isBlank_sizeText hasks.isBlank_sizeText hnotice

/-- A run in the words of a notice, on what the run that printed it has left. -/
theorem Generates.again {again : World} {words : List String} (h : Generates arguments world request)
    (hfaultless : again.Faultless)
    (htree : again.tree = ((run (arguments.map .ofString) : StateM World Outcome) world).2.tree)
    (hhome : again.home = world.home) (hroom : again.output.room = world.output.room)
    (hwords : words = ["--", request.outFile, request.sizeText] ∨
      request.outFile.toList.head? ≠ some '-' ∧ words = [request.outFile, request.sizeText]) :
    Generates words again request ∧
      Adds again (request.notice ++ "\n") "" ((run (words.map .ofString) : StateM World Outcome) again).2 ∧
      again.tree.SameThrough FileSystem.Node.sized ((run (words.map .ofString) : StateM World Outcome) again).2.tree := by
  obtain ⟨stats, hok, hoffer, hafter, -⟩ := h.done
  obtain ⟨line, -, hasks⟩ := h.asks
  rw [hafter] at htree
  have hfree : again.tree.isDirectory again.home request.outFile = false := by
    obtain ⟨-, -, -, names, content, hresolve, -⟩ := stats_of_ok hok
    rw [htree, hhome, FileSystem.Tree.isDirectory, hresolve]
  have hparse := parse_values (reading_values hasks.isValue_sizeText hwords)
  have hagain := hasks.again hfree
  obtain ⟨⟨stats', hok'⟩, hsame⟩ := generate_again hok hfaultless htree hhome hasks.chunk_le
  have hexited : ((fulfil false request : StateM World Outcome) again).1 = .exited 0 :=
    fulfil_quietly hok' (offer_ok_of_room hroom hoffer)
  obtain ⟨_, -, -, hend⟩ := fulfil_exited hexited
  have hrun : (run (words.map .ofString) : StateM World Outcome) again =
      (fulfil false request : StateM World Outcome) again := run_asks hparse hagain
  refine ⟨⟨⟨_, hparse, hagain⟩, by rw [hrun, hexited]⟩, ?_, ?_⟩
  · rw [hrun, hend, if_neg Bool.false_ne_true, String.append_empty]
    exact ⟨rfl, by rw [offer_empty]; exact (kept_generate request again).errors⟩
  · rw [hrun, hend]
    exact hsame

end Runs

/-- A run that generates a file prints a notice of it first. The notice tells the file and the size: no other run that
generates a file prints the same one for another file or another size. There are no blanks around the size. And where
nothing fails, a run with the file and the size of the notice as its words, behind a lone pair of dashes or, if the file
has no dash in front, without it, generates the file once more, prints this notice, and leaves all sizes as they are. -/
theorem notice_replays {arguments : List String} {world : World} {options : Options}
    (hparse : Options.parse (arguments.map .ofString) = .ok options)
    (hexited : ((run (arguments.map .ofString) : StateM World Outcome) world).1 = .exited 0) :
    ∃ request, Generates arguments world request ∧
      (∃ more, Adds world (request.notice ++ "\n" ++ more) ""
        ((run (arguments.map .ofString) : StateM World Outcome) world).2) ∧
      (∀ others elsewhere other, Generates others elsewhere other → other.notice = request.notice →
        other.outFile = request.outFile ∧ other.sizeText = request.sizeText) ∧
      Text.trim request.sizeText = request.sizeText ∧
      ∀ again words, World.Faultless again →
        again.tree = ((run (arguments.map .ofString) : StateM World Outcome) world).2.tree → again.home = world.home →
        again.output.room = world.output.room →
        (words = ["--", request.outFile, request.sizeText] ∨
          request.outFile.toList.head? ≠ some '-' ∧ words = [request.outFile, request.sizeText]) →
        Generates words again request ∧
          Adds again (request.notice ++ "\n") "" ((run (words.map .ofString) : StateM World Outcome) again).2 ∧
          again.tree.SameThrough FileSystem.Node.sized
            ((run (words.map .ofString) : StateM World Outcome) again).2.tree := by
  obtain ⟨request, hgenerates⟩ := exists_generates hparse hexited
  obtain ⟨-, -, -, -, hadds⟩ := hgenerates.done
  obtain ⟨_, -, hasks⟩ := hgenerates.asks
  exact ⟨request, hgenerates, hadds, fun _ _ _ hother hnotice => hgenerates.notice_inj hother hnotice,
    hasks.trim_sizeText,
    fun _ _ hfaultless htree hhome hroom hwords => hgenerates.again hfaultless htree hhome hroom hwords⟩

/-- A file whose name looks like the end of a notice, and a negative zero with blanks around it. -/
theorem notice_replays_negative_zero :
    let world : World := { tree := ⟨[]⟩, home := [], source := { byteAt := fun _ => 7, cut := fun _ => none } }
    let arguments := ["' of 0GB", " -0 "]
    let again : World := { world with tree := ((run (arguments.map .ofString) : StateM World Outcome) world).2.tree }
    (∃ options, Options.parse (arguments.map .ofString) = .ok options) ∧
      ((run (arguments.map .ofString) : StateM World Outcome) world).1 = .exited 0 ∧
      Generates ["' of 0GB", "-0"] again ((Request.new "' of 0GB" ⟨0x8000000000000000⟩).withSizeText "-0") ∧
      Adds again "File '' of 0GB' of -0GB has been created.\n" ""
        ((run (["' of 0GB", "-0"].map .ofString) : StateM World Outcome) again).2 := by
  intro world arguments again
  have hvalue : parseSize " -0 " = .ok ⟨0x8000000000000000⟩ := by decide +kernel
  have hparse : Options.parse (arguments.map .ofString) = .ok (Line.mk (some "' of 0GB") (some " -0 ") false).options := rfl
  have hexited : ((run (arguments.map .ofString) : StateM World Outcome) world).1 = .exited 0 := by decide +kernel
  obtain ⟨request, hgenerates, -, -, -, hagain⟩ := notice_replays hparse hexited
  obtain ⟨⟨line, hline, hasks⟩, -⟩ := hgenerates
  obtain rfl : Line.mk (some "' of 0GB") (some " -0 ") false = line :=
    Line.options_injective (Except.ok.inj (hparse.symm.trans hline))
  have hrequest : request = (Request.new "' of 0GB" ⟨0x8000000000000000⟩).withSizeText "-0" := by
    cases hasks with
    | plain _ size_eq => cases size_eq
    | sized _ size_eq parse_eq =>
        cases size_eq
        rw [hvalue] at parse_eq
        cases parse_eq
        rfl
  have hwords : ["' of 0GB", "-0"] = ["--", request.outFile, request.sizeText] ∨
      request.outFile.toList.head? ≠ some '-' ∧ ["' of 0GB", "-0"] = [request.outFile, request.sizeText] := by
    rw [hrequest]
    exact .inr ⟨by decide, rfl⟩
  have htree : again.tree = ((run (arguments.map .ofString) : StateM World Outcome) world).2.tree := by
    dsimp only [again]
  have hfaultless : again.Faultless := ⟨fun _ _ => rfl, fun _ _ => rfl⟩
  obtain ⟨hrepeated, hadds, -⟩ := hagain again _ hfaultless htree rfl rfl hwords
  rw [hrequest] at hrepeated hadds
  exact ⟨⟨_, hparse⟩, hexited, hrepeated, hadds⟩

end CommandLine

end NoiseFile
