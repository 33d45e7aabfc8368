import NoiseFile.Proofs.Generate.Deeds
import NoiseFile.Proofs.Generate.Verdict

/-!
# Histories of generations

* `runAll` : generations one after another, with nothing else in between;
* `told_runAll` : where nothing fails, no run leads a later path elsewhere, so the first tree tells all verdicts and
  deeds;
* `Retold`, `history_retold` : what a history comes to, for each file, when a run is repeated, and when two change places.
-/

namespace NoiseFile

open FileSystem

def runAll : List Request → World → List (Except Failure Stats) × World
  | [], world => ([], world)
  | request :: rest, world =>
    let run := generateIn request world
    let runs := runAll rest run.2
    (run.1 :: runs.1, runs.2)

section History
variable {world : World}

theorem sameSkeleton_generate (hfaultless : world.Faultless) (request : Request) :
    world.tree.SameSkeleton (generateIn request world).2.tree := by
  rw [(generate_deed request hfaultless).1]
  unfold Deed.done
  cases hfile : (request.deed (world.tree.end? world.home request.outFile)).file? with
  | none => exact .refl world.tree
  | some names => exact Tree.sameSkeleton_set (Tree.loose_of_end? (deed_file? hfile)) _

/-- The deeds of requests, as the tree of a world tells them. -/
def World.deeds (world : World) (requests : List Request) : List Deed :=
  requests.map fun request => request.deed (world.tree.end? world.home request.outFile)

/-- A history of which everything is told by its requests and the first world. -/
structure Told (requests : List Request) (world : World) (run : List (Except Failure Stats) × World) : Prop where
  later : world.Kept run.2
  skeleton : world.tree.SameSkeleton run.2.tree
  verdicts : run.1.map verdict =
    requests.map fun request => request.verdict (world.tree.end? world.home request.outFile)
  tree_eq : run.2.tree = doAll world.source (world.deeds requests) world.cursor.position world.tree
  position_eq : run.2.cursor.position = world.cursor.position + drawnBy (world.deeds requests)

theorem told_runAll (hfaultless : world.Faultless) (requests : List Request) :
    Told requests world (runAll requests world) := by
  induction requests generalizing world with
  | nil => exact ⟨.refl world, .refl world.tree, rfl, rfl, rfl⟩
  | cons request rest ih =>
      obtain ⟨htree, hposition⟩ := generate_deed request hfaultless
      have hverdict := verdict_generate request hfaultless
      have hkept := kept_generate request world
      have hskeleton := sameSkeleton_generate hfaultless request
      have htold := ih (hkept.faultless hfaultless)
      -- the run leads no later path elsewhere
      have hend : ∀ path, (generateIn request world).2.tree.end? (generateIn request world).2.home path =
          world.tree.end? world.home path := by
        intro path
        rw [hkept.home]
        exact hskeleton.end?_eq world.home path
      have hdeeds : (generateIn request world).2.deeds rest = world.deeds rest := by
        unfold World.deeds
        simp only [hend]
      exact {
        later := hkept.trans htold.later
        skeleton := hskeleton.trans htold.skeleton
        verdicts := by
          have hverdicts := htold.verdicts
          simp only [hend] at hverdicts
          exact congrArg₂ List.cons hverdict hverdicts
        tree_eq := by
          have htree' := htold.tree_eq
          rw [hkept.source, hdeeds, hposition, htree] at htree'
          exact htree'
        position_eq := by
          have hposition' := htold.position_eq
          rw [hdeeds, hposition, Nat.add_assoc] at hposition'
          exact hposition' }

/-! ## Retelling -/

theorem deed_of_fileAt? (hfaultless : world.Faultless) {request : Request} {names : List String}
    (hfile : world.tree.fileAt? world.home request.outFile = some names) :
    request.deed (world.tree.end? world.home request.outFile) =
      match (verdict (generateIn request world).1).left? with
      | some size => { drawn := size, file? := some names }
      | none => {} := by
  have hend := Tree.fileAt?_eq_some_iff.mp hfile
  rw [verdict_generate request hfaultless, hend]
  exact deed_eq_left? request names

/-- Only the deed of a run that leaves something in a file is on that file. -/
theorem left?_of_deed (hfaultless : world.Faultless) {request : Request} {names : List String}
    (h : (request.deed (world.tree.end? world.home request.outFile)).file? = some names) :
    world.tree.fileAt? world.home request.outFile = some names ∧
      (verdict (generateIn request world).1).left? ≠ none := by
  have hfile := Tree.fileAt?_eq_some_iff.mpr (deed_file? h)
  refine ⟨hfile, fun hleft => ?_⟩
  rw [deed_of_fileAt? hfaultless hfile, hleft] at h
  cases h

theorem deeds_append (before after : List Request) :
    world.deeds (before ++ after) = world.deeds before ++ world.deeds after := List.map_append

theorem deeds_cons (request : Request) (rest : List Request) :
    world.deeds (request :: rest) =
      request.deed (world.tree.end? world.home request.outFile) :: world.deeds rest := rfl

structure Retold (requests : List Request) (world : World) : Prop where
  /-- Which runs succeed, and what they count, is told by each request and the first tree. -/
  verdicts : ∀ other : World, other.Faultless → other.tree = world.tree → other.home = world.home →
    (runAll requests world).1.map verdict = requests.map fun request => verdict (generateIn request other).1
  /-- Paths lead to the same files all the time. -/
  paths : ∀ path, (runAll requests world).2.tree.fileAt? world.home path = world.tree.fileAt? world.home path
  /-- A file has the size that the last run on it left, and holds what this run drew and nothing else. -/
  last : ∀ before request after names size, requests = before ++ request :: after →
    world.tree.fileAt? world.home request.outFile = some names →
    (verdict (generateIn request world).1).left? = some size →
    (∀ later ∈ after, world.tree.fileAt? world.home later.outFile = some names →
      (verdict (generateIn later world).1).left? = none) →
    (runAll requests world).2.tree.sizeAt (.named names) = size ∧
      (runAll requests world).2.tree.node? (.named names) =
        some (.file (world.source.slice (runAll before world).2.cursor.position size))
  /-- What no run left anything in is as it was. -/
  untouched : ∀ place, (∀ request ∈ requests, ∀ names, world.tree.fileAt? world.home request.outFile = some names →
      place = .named names → (verdict (generateIn request world).1).left? = none) →
    (runAll requests world).2.tree.node? place = world.tree.node? place
  /-- So are directories, links and devices. -/
  kept : ∀ place node, (∀ content, node ≠ .file content) →
    ((runAll requests world).2.tree.node? place = some node ↔ world.tree.node? place = some node)
  /-- A run that is repeated changes no size. -/
  repeated : ∀ before request after, requests = before ++ request :: after →
    (runAll requests world).2.tree.SameThrough Node.sized
      (runAll (before ++ request :: request :: after) world).2.tree
  /-- Neighbouring runs on different files can change places. No size changes, and if the random bytes that they draw
  change places as well, nothing does. -/
  swapped : ∀ before first second after, requests = before ++ first :: second :: after →
    (∀ names, world.tree.fileAt? world.home first.outFile = some names →
      world.tree.fileAt? world.home second.outFile ≠ some names) →
    (runAll requests world).2.tree.SameThrough Node.sized (runAll (before ++ second :: first :: after) world).2.tree ∧
      ∃ order : Equiv.Perm Nat, ∀ place,
        (runAll (before ++ second :: first :: after) { world with source := world.source.reorder order }).2.tree.node?
            place = (runAll requests world).2.tree.node? place

theorem Told.last {requests before after : List Request} {request : Request} {names : List String} {size : Nat}
    (hfaultless : world.Faultless) (htold : Told requests world (runAll requests world))
    (hrequests : requests = before ++ request :: after)
    (hfile : world.tree.fileAt? world.home request.outFile = some names)
    (hleft : (verdict (generateIn request world).1).left? = some size)
    (hafter : ∀ later ∈ after, world.tree.fileAt? world.home later.outFile = some names →
      (verdict (generateIn later world).1).left? = none) :
    (runAll requests world).2.tree.node? (.named names) =
      some (.file (world.source.slice (runAll before world).2.cursor.position size)) := by
  have hloose := Tree.loose_of_end? (Tree.fileAt?_eq_some_iff.mp hfile)
  have hnames : names ≠ [] := by simpa using Tree.ne_root_of_loose hloose
  have hdeed := deed_of_fileAt? hfaultless hfile
  rw [hleft] at hdeed
  rw [htold.tree_eq, hrequests, deeds_append, deeds_cons, hdeed, (told_runAll hfaultless before).position_eq]
  refine node?_doAll_last hnames rfl ?_
  intro deed hmem hdone
  obtain ⟨later, hlater, rfl⟩ := List.mem_map.mp hmem
  obtain ⟨hsame, hsome⟩ := left?_of_deed hfaultless hdone
  exact hsome (hafter later hlater hsame)

/-! ## Runs that change places -/

section Swap
variable {before after : List Request} {first second : Request}

theorem apart_deeds (hfaultless : world.Faultless)
    (h : ∀ names, world.tree.fileAt? world.home first.outFile = some names →
      world.tree.fileAt? world.home second.outFile ≠ some names) :
    (first.deed (world.tree.end? world.home first.outFile)).Apart
      (second.deed (world.tree.end? world.home second.outFile)) := by
  intro names hfirst hsecond
  exact h names (left?_of_deed hfaultless hfirst).1 (left?_of_deed hfaultless hsecond).1

variable (hfaultless : world.Faultless) (hapart : (first.deed (world.tree.end? world.home first.outFile)).Apart
  (second.deed (world.tree.end? world.home second.outFile)))
include hfaultless hapart

theorem sameThrough_runAll_swap :
    (runAll (before ++ first :: second :: after) world).2.tree.SameThrough Node.sized
      (runAll (before ++ second :: first :: after) world).2.tree := by
  rw [(told_runAll hfaultless _).tree_eq, (told_runAll hfaultless _).tree_eq]
  rw [deeds_append, deeds_append, deeds_cons, deeds_cons, deeds_cons, deeds_cons]
  exact sameThrough_swap hapart _ _

/-- The random bytes of the two runs change places with them. -/
theorem node?_runAll_swap : ∃ order : Equiv.Perm Nat, ∀ place,
    (runAll (before ++ second :: first :: after) { world with source := world.source.reorder order }).2.tree.node? place =
      (runAll (before ++ first :: second :: after) world).2.tree.node? place := by
  let order := exchange (world.cursor.position + drawnBy (world.deeds before))
    (first.deed (world.tree.end? world.home first.outFile)).drawn
    (second.deed (world.tree.end? world.home second.outFile)).drawn
  have hother : ({ world with source := world.source.reorder order } : World).Faultless :=
    ⟨hfaultless.hitch, hfaultless.cut⟩
  refine ⟨order, fun place => ?_⟩
  rw [(told_runAll hother _).tree_eq, (told_runAll hfaultless _).tree_eq]
  show (doAll (world.source.reorder order) (world.deeds (before ++ second :: first :: after)) world.cursor.position
    world.tree).node? place = _
  rw [deeds_append, deeds_append, deeds_cons, deeds_cons, deeds_cons, deeds_cons]
  exact node?_swap hapart _ _ place

end Swap

/-- Where nothing fails, every history of generations can be retold from its requests and the first tree. -/
theorem history_retold (requests : List Request) (world : World) (hfaultless : world.Faultless) :
    Retold requests world := by
  have htold := told_runAll hfaultless requests
  refine {
    verdicts := fun other hother htree hhome => ?_
    paths := fun path => congrArg (·.bind Spot.file?) (htold.skeleton.end?_eq world.home path)
    last := fun before request after names size hrequests hfile hleft hafter => ?_
    untouched := fun place hplace => ?_
    kept := fun place node hnode => htold.skeleton.node?_iff hnode
    repeated := fun before request after hrequests => ?_
    swapped := fun before first second after hrequests hapart => ?_ }
  · rw [htold.verdicts]
    refine List.map_congr_left fun request _ => ?_
    rw [verdict_generate request hother, htree, hhome]
  · have hnode := htold.last hfaultless hrequests hfile hleft hafter
    refine ⟨?_, hnode⟩
    rw [Tree.sizeAt, hnode]
    exact Source.size_slice ..
  · rw [htold.tree_eq]
    refine node?_doAll_of_ne ?_
    intro deed hmem names hdone hnames
    obtain ⟨request, hrequest, rfl⟩ := List.mem_map.mp hmem
    obtain ⟨hfile, hsome⟩ := left?_of_deed hfaultless hdone
    exact hsome (hplace request hrequest names hfile hnames)
  · rw [htold.tree_eq, (told_runAll hfaultless _).tree_eq, hrequests, deeds_append, deeds_append, deeds_cons, deeds_cons,
      deeds_cons]
    exact sameThrough_repeat _ _ _
  · subst hrequests
    have hdeeds := apart_deeds hfaultless hapart
    exact ⟨sameThrough_runAll_swap hfaultless hdeeds, node?_runAll_swap hfaultless hdeeds⟩

/-- A file of three bytes that is written through a link, refused a size, and written again. -/
theorem history_retold_through_link :
    let tree : Tree := ⟨[(.named ["f"], .file ⟨#[1, 2, 3]⟩), (.named ["l"], .link "f")]⟩
    let world : World := { tree, home := [], source := { byteAt := fun n => UInt8.ofNat n, cut := fun _ => none } }
    let five : Request := { outFile := "l", size := ⟨0x3E34000000000000⟩, sizeText := "five", chunkSize := 2 }
    let refused : Request := { five with chunkSize := 0 }
    let two : Request := { outFile := "f", size := ⟨0x3E20000000000000⟩, sizeText := "two", chunkSize := 2 }
    world.Faultless ∧ world.tree.fileAt? world.home "l" = some ["f"] ∧ world.tree.fileAt? world.home "f" = some ["f"] ∧
      (runAll [five, refused, two] world).2.tree.sizeAt (.named ["f"]) = 2 ∧
      (runAll [five, refused, two] world).2.tree.node? (.named ["f"]) = some (.file (world.source.slice 5 2)) ∧
      (runAll [five, refused, two] world).2.tree.node? (.named ["l"]) = some (.link "f") := by
  intro tree world five refused two
  have hfaultless : world.Faultless := ⟨fun _ _ => rfl, fun _ _ => rfl⟩
  have hlink : world.tree.fileAt? world.home "l" = some ["f"] := rfl
  have hfile : world.tree.fileAt? world.home "f" = some ["f"] := rfl
  have hretold := history_retold [five, refused, two] world hfaultless
  obtain ⟨hsize, hnode⟩ := hretold.last [five, refused] two [] ["f"] 2 rfl hfile (by decide +kernel) (fun _ h => nomatch h)
  have hposition : (runAll [five, refused] world).2.cursor.position = 5 := by decide +kernel
  rw [hposition] at hnode
  exact ⟨hfaultless, hlink, hfile, hsize, hnode, (hretold.kept (.named ["l"]) (.link "f") (fun _ h => nomatch h)).mpr rfl⟩

/-- A run that does not succeed empties its file, if what it lacks is a buffer. And a run that lacks nothing but the size
of its file does not succeed, though the same request does elsewhere on the same tree. -/
theorem unsuccessful_run_empties_file :
    let tree : Tree := ⟨[(.named ["f"], .file ⟨#[1, 2, 3]⟩)]⟩
    let world : World := { tree, home := [], source := { byteAt := fun _ => 7, cut := fun _ => none } }
    let whole : Request :=
      { outFile := "f", size := ⟨0x4200000000000000⟩, sizeText := "8589934592", chunkSize := 0x8000000000000000 }
    let empty : Request := { outFile := "f", size := ⟨0⟩, sizeText := "0", chunkSize := 2 }
    let unread : World := { world with hitch := fun n => if n = 0 then some ⟨0, .inputOutputError⟩ else none }
    world.Faultless ∧ (runAll [whole] world).1.map verdict = [.brokenOff] ∧ world.tree.sizeAt (.named ["f"]) = 3 ∧
      (runAll [whole] world).2.tree.sizeAt (.named ["f"]) = 0 ∧
      (runAll [empty] world).1.map verdict ≠ (runAll [empty] unread).1.map verdict := by
  intro tree world whole empty unread
  refine ⟨⟨fun _ _ => rfl, fun _ _ => rfl⟩, ?_, rfl, ?_, ?_⟩
  all_goals decide +kernel

end History

end NoiseFile
