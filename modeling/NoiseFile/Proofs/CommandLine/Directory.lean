import NoiseFile.Proofs.CommandLine.Run

/-!
# Directories are never opened

* `runFrom_create_directory`, `generate_directory`, `run_directory` : a path that leads to a directory can neither be
  opened nor generated, and on the command line it is complained of;
* `directory_refused` : the check for a directory and the opening of a file agree on every path.
-/

namespace NoiseFile.CommandLine

open FileSystem

variable {world : World} {path : String}

theorem runFrom_create_directory (h : world.tree.isDirectory world.home path = true) :
    runFrom (OutputFile.create path : ExceptT Failure (StateM World) (OutputFile Nat)) world =
      (.error (.file .isADirectory path), world) :=
  runFrom_create_error (create_of_isDirectory h)

/-- The first stage that can fail on a directory is the opening. -/
theorem generate_directory {request : Request} {target : UInt64}
    (h : world.tree.isDirectory world.home request.outFile = true) (hsize : byteCount request.size = .ok target)
    (hchunk : request.chunkSize ≠ 0) :
    generateIn request world = (.error (.file .isADirectory request.outFile), world) := by
  obtain ⟨houtcome, hafter⟩ := (stages_generate request world).of_unopened hsize hchunk (create_of_isDirectory h)
  exact Prod.ext houtcome hafter

/-- The directory is complained of before the size is looked at. -/
theorem run_directory {arguments : List Argument} {options : Options}
    (h : world.tree.isDirectory world.home path = true) (hparse : Options.parse arguments = .ok options)
    (hpath : options.outFile.elim (some defaultOutFile) Argument.text? = some path) :
    (run arguments : StateM World Outcome) world = (.exited 1, { world with
      errors := (world.errors.offer ("\"" ++ path ++ "\" is a directory" ++ "\n").toUTF8).2 }) := by
  unfold run
  rw [hparse]
  dsimp only
  rw [execute_path hpath, if_pos h]
  rfl

/-- A path that passes for a directory is refused as one by whatever would open it, and nothing is changed: by the
opening itself, by a generation whose size and chunk size make sense, and by the command line. And a path that can be
opened passes for no directory, neither before nor after. -/
theorem directory_refused (world : World) (path : String) :
    let opening := runFrom (OutputFile.create path : ExceptT Failure (StateM World) (OutputFile Nat)) world
    (World.isDirectory path world = (true, world) →
      opening = (.error (.file .isADirectory path), world) ∧
      (∀ (request : Request) (target : UInt64), request.outFile = path → byteCount request.size = .ok target →
        request.chunkSize ≠ 0 → generateIn request world = (.error (.file .isADirectory path), world)) ∧
      ∀ (arguments : List Argument) (options : Options), Options.parse arguments = .ok options →
        options.outFile.elim (some defaultOutFile) Argument.text? = some path →
        (run arguments : StateM World Outcome) world = (.exited 1, { world with
          errors := (world.errors.offer ("\"" ++ path ++ "\" is a directory" ++ "\n").toUTF8).2 })) ∧
    ∀ file after, opening = (.ok file, after) →
      World.isDirectory path world = (false, world) ∧ World.isDirectory path after = (false, after) := by
  intro opening
  refine ⟨fun hcheck => ?_, fun file after hopening => ?_⟩
  · have h : world.tree.isDirectory world.home path = true := congrArg Prod.fst hcheck
    refine ⟨runFrom_create_directory h, ?_, fun arguments options => run_directory h⟩
    rintro request target rfl
    exact generate_directory h
  · cases hcreate : world.tree.create world.home path with
    | error fault =>
        have hrefused := (runFrom_create_error hcreate).symm.trans hopening
        cases hrefused
    | ok opened =>
        obtain ⟨tree, place⟩ := opened
        obtain ⟨-, rfl⟩ := Prod.mk.inj ((runFrom_create_ok hcreate).symm.trans hopening)
        obtain ⟨hbefore, hafter⟩ := isDirectory_of_create hcreate
        exact ⟨congrArg (·, world) hbefore, congrArg (·, world.opening tree place) hafter⟩

/-- A directory behind two links, the second with a slash at its end, and a new file behind a link that dangled. -/
theorem directory_refused_behind_links :
    let tree : Tree := ⟨[(.named ["d"], .directory), (.named ["l"], .link "m"), (.named ["m"], .link "./d/"),
      (.named ["n"], .link "d/../d/f")]⟩
    let world : World := { tree, home := [], source := { byteAt := fun _ => 7, cut := fun _ => none } }
    let create (path : String) : ExceptT Failure (StateM World) (OutputFile Nat) := OutputFile.create path
    World.isDirectory "l" world = (true, world) ∧
      runFrom (create "l") world = (.error (.file .isADirectory "l"), world) ∧
      (byteCount (Request.new "l" defaultSize).size = .ok 1073741824 ∧ (Request.new "l" defaultSize).chunkSize ≠ 0 ∧
        generateIn (.new "l" defaultSize) world = (.error (.file .isADirectory "l"), world)) ∧
      ((run [.ofString "l", .ofString "-1"] : StateM World Outcome) world).1 = .exited 1 ∧
      ∃ file after, runFrom (create "n") world = (.ok file, after) ∧
        after.tree.node? (.named ["d", "f"]) = some (.file .empty) ∧
        World.isDirectory "n" world = (false, world) ∧ World.isDirectory "n" after = (false, after) := by
  intro tree world create
  have hcheck : World.isDirectory "l" world = (true, world) := rfl
  obtain ⟨hopening, hgenerate, hrun⟩ := (directory_refused world "l").1 hcheck
  have hsize : byteCount (Request.new "l" defaultSize).size = .ok 1073741824 := by decide +kernel
  have hchunk : (Request.new "l" defaultSize).chunkSize ≠ 0 := by decide
  have hparse : Options.parse [.ofString "l", .ofString "-1"] =
      .ok { outFile := some (.ofString "l"), size := some (.ofString "-1"), verbose := false } := rfl
  have hnew : runFrom (create "n") world = (.ok (world.nextFile "n"),
      world.opening (tree.set (.named ["d", "f"]) (.file .empty)) (.named ["d", "f"])) := runFrom_create_ok rfl
  refine ⟨hcheck, hopening, ⟨hsize, hchunk, hgenerate _ _ rfl hsize hchunk⟩, ?_, _, _, hnew, rfl,
    (directory_refused world "n").2 _ _ hnew⟩
  rw [hrun _ _ hparse (Argument.text?_ofString "l")]

end NoiseFile.CommandLine
