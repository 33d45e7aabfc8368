import NoiseFile.Proofs.Generate.Announce
import NoiseFile.Proofs.Generate.Success
import NoiseFile.Proofs.Sink

/-!
# Notices to sinks that may refuse

* `Request.noticePieces` : a notice in the pieces in which it is written;
* `Reports` : how a generation ends that is told of to a sink of any kind, given how it ends by itself;
* `announcement_settled` : an outlet with room for some bytes is told of a generation if and only if it succeeds, the tree
  is as the generation leaves it, and every sink with that room does as the outlet does.
-/

namespace NoiseFile

open FileSystem

/-- The line of a notice: its text, and the end of the line. -/
def Request.noticePieces (request : Request) : List ByteArray := [request.notice.toUTF8, "\n".toUTF8]

theorem joined_noticePieces (request : Request) : joined request.noticePieces = (request.notice ++ "\n").toUTF8 := by
  simp [joined, Request.noticePieces]

/-- How a generation ends whose notice goes to a sink. A failure is passed on, with the sink as it was; a success becomes
a failure of the output if the notice cannot be written. -/
def Reports {S : Type} (write : S → ByteArray → Except SystemFault Nat × S) (request : Request) (sink : S)
    (alone told : Except Failure Stats) (after : S) : Prop :=
  match alone with
  | .error failure => told = .error failure ∧ after = sink
  | .ok stats => ∃ outcome, WritesPieces write sink request.noticePieces outcome after ∧
      told = (outcome.mapError Failure.output).map fun _ => stats

/-- A line that is offered turns a success into a failure of the output if it does not fit. -/
theorem told_of_offer {outlet : Outlet} {room : Nat} (hroom : outlet.room = some room) (line : ByteArray) (stats : Stats) :
    (((outlet.offer line).1.mapError Failure.output).map fun _ => stats) =
      if line.size ≤ room then .ok stats else .error (.output outlet.refusal) := by
  rw [Outlet.offer_of_room hroom]
  dsimp only
  split <;> rfl

section Sinks
variable {S : Type} {write : S → ByteArray → Except SystemFault Nat × S} {request : Request} {sink : S}
  {alone : Except Failure Stats}

theorem Reports.unique {told told' : Except Failure Stats} {after after' : S}
    (h : Reports write request sink alone told after) (h' : Reports write request sink alone told' after') :
    told' = told ∧ after' = after := by
  unfold Reports at h h'
  rcases alone with failure | stats
  · obtain ⟨rfl, rfl⟩ := h
    exact h'
  · obtain ⟨outcome, hpieces, rfl⟩ := h
    obtain ⟨outcome', hpieces', rfl⟩ := h'
    obtain ⟨rfl, rfl⟩ := hpieces.unique hpieces'
    exact ⟨rfl, rfl⟩

theorem reports_roomy {outlet : S → Outlet} (hroomy : Roomy write outlet) {room : Nat}
    (hroom : (outlet sink).room = some room) (hrefusal : (outlet sink).refusal ≠ .interrupted) (request : Request)
    (stats : Stats) :
    ∃ after, Reports write request sink (.ok stats)
        (if (request.notice ++ "\n").toUTF8.size ≤ room then .ok stats else .error (.output (outlet sink).refusal)) after ∧
      outlet after = ((outlet sink).offer (request.notice ++ "\n").toUTF8).2 := by
  obtain ⟨after, hpieces, hafter⟩ := writesPieces_roomy hroomy hroom hrefusal request.noticePieces
  rw [joined_noticePieces] at hpieces hafter
  exact ⟨after, ⟨_, hpieces, (told_of_offer hroom _ stats).symm⟩, hafter⟩

end Sinks

/-! ## Telling an outlet with room -/

section Outlets
variable {request : Request} {world after : World}

theorem announce_error {failure : Failure} (hrun : generateIn request world = (.error failure, after)) :
    runFrom (generateAndAnnounce request : ExceptT Failure (StateM World) Stats) world = (.error failure, after) := by
  rw [announce_eq, hrun]

theorem announce_ok {stats : Stats} {room : Nat} (hroom : world.output.room = some room)
    (hrun : generateIn request world = (.ok stats, after)) :
    runFrom (generateAndAnnounce request : ExceptT Failure (StateM World) Stats) world =
      (if (request.notice ++ "\n").toUTF8.size ≤ room then .ok stats else .error (.output world.output.refusal),
        { after with output := (world.output.offer (request.notice ++ "\n").toUTF8).2 }) := by
  rw [announce_eq, hrun]
  dsimp only
  rw [told_of_offer hroom]

end Outlets

/-- A generation that fails is not told of. One that succeeds is told of as far as the output has room: it is a success
exactly if the whole line fits, and otherwise a failure of the output, with its file in place all the same. It does not
matter in which parts a sink takes the line. -/
theorem announcement_settled (request : Request) (world : World) {room : Nat} (hroom : world.output.room = some room)
    (hrefusal : world.output.refusal ≠ .interrupted) :
    let alone := generateIn request world
    let told := runFrom (generateAndAnnounce request : ExceptT Failure (StateM World) Stats) world
    let line := (request.notice ++ "\n").toUTF8
    told.2.tree = alone.2.tree ∧
      (∀ failure, alone.1 = .error failure → told.1 = .error failure ∧ told.2.output = world.output) ∧
      (∀ stats, alone.1 = .ok stats →
        told.2.output.taken = world.output.taken ++ line.extract 0 (min room line.size) ∧
          told.1 = (if line.size ≤ room then .ok stats else .error (.output world.output.refusal)) ∧
          ∃ names content, resolve told.2.tree world.home .look request.outFile = .ok (.taken names (.file content)) ∧
            content.size = stats.targetBytes.toNat) ∧
      ∀ {S : Type} (write : S → ByteArray → Except SystemFault Nat × S) (outlet : S → Outlet), Roomy write outlet →
        ∀ sink, outlet sink = world.output → ∃ after, Reports write request sink alone.1 told.1 after ∧
          outlet after = told.2.output ∧
          ∀ told' after', Reports write request sink alone.1 told' after' → told' = told.1 ∧ after' = after := by
  intro alone told line
  have hkept : world.Kept alone.2 := kept_generate request world
  rcases hrun : generateIn request world with ⟨failure | stats, after⟩
  · have halone : alone = (.error failure, after) := hrun
    have htold : told = (.error failure, after) := announce_error hrun
    rw [halone] at hkept ⊢
    rw [htold]
    refine ⟨rfl, fun other hother => ⟨hother, hkept.output⟩, fun stats hstats => (nomatch hstats), ?_⟩
    intro S write outlet _ sink hsink
    have hreports : Reports write request sink (.error failure) (.error failure) sink := ⟨rfl, rfl⟩
    exact ⟨sink, hreports, hsink.trans hkept.output.symm, fun _ _ hother => hreports.unique hother⟩
  · have hstats := stats_of_ok (congrArg Prod.fst hrun)
    have halone : alone = (.ok stats, after) := hrun
    have htold : told = (if line.size ≤ room then .ok stats else .error (.output world.output.refusal),
        { after with output := (world.output.offer line).2 }) := announce_ok hroom hrun
    rw [hrun] at hstats
    rw [halone, htold]
    refine ⟨rfl, fun failure hfailure => (nomatch hfailure), ?_, ?_⟩
    · intro other hother
      cases hother
      exact ⟨by rw [Outlet.offer_of_room hroom], rfl, hstats.2.2.2⟩
    · intro S write outlet hroomy sink hsink
      rw [← hsink] at hroom hrefusal
      obtain ⟨last, hreports, hlast⟩ := reports_roomy hroomy hroom hrefusal request stats
      rw [hsink] at hreports hlast
      exact ⟨last, hreports, hlast, fun _ _ hother => hreports.unique hother⟩

/-- A closed pipe that has taken the text of a notice, two bytes a call, but not the end of its line. -/
theorem announcement_settled_without_line_end :
    let request : Request := { outFile := "f", size := ⟨0x3E34000000000000⟩, sizeText := "tiny", chunkSize := 2 }
    let world : World := {
      tree := ⟨[]⟩, home := [], source := { byteAt := fun _ => 7, cut := fun _ => none }
      output := { room := some 36, refusal := .brokenPipe } }
    let write : Outlet → ByteArray → Except SystemFault Nat × Outlet := fun outlet bytes =>
      let n := min 2 (min (outlet.room.getD 0) bytes.size)
      if 0 < n then (.ok n, (outlet.offer (bytes.extract 0 n)).2) else (.error outlet.refusal, outlet)
    let told := runFrom (generateAndAnnounce request : ExceptT Failure (StateM World) Stats) world
    world.output.room = some 36 ∧ world.output.refusal ≠ .interrupted ∧ Roomy write id ∧
      ∃ stats, (generateIn request world).1 = .ok stats ∧ stats.targetBytes = 5 ∧
        told.1 = .error (.output .brokenPipe) ∧ told.2.output.taken = request.notice.toUTF8 ∧
        (∃ names content, resolve told.2.tree world.home .look "f" = .ok (.taken names (.file content)) ∧
          content.size = 5) ∧
        ∃ after, Reports write request world.output (.ok stats) (.error (.output .brokenPipe)) after ∧
          after.taken = request.notice.toUTF8 := by
  intro request world write told
  have hroom : world.output.room = some 36 := rfl
  have hrefusal : world.output.refusal ≠ .interrupted := by decide
  have hroomy : Roomy write id := by
    constructor
    · intro outlet bytes room hroom hpos hsize
      have hroom : outlet.room = some room := hroom
      have hn : 0 < min 2 (min room bytes.size) := by omega
      refine ⟨min 2 (min room bytes.size), hn, by omega, ?_, ?_⟩
      all_goals simp only [write, hroom, Option.getD_some, if_pos hn, id]
    · intro outlet bytes hroom hsize
      have hroom : outlet.room = some 0 := hroom
      have hn : ¬0 < min 2 (min 0 bytes.size) := by omega
      simp only [write, hroom, Option.getD_some, if_neg hn, id, and_self]
  have hsize : byteCount request.size = .ok 5 := by decide +kernel
  have hcreate : world.tree.create world.home "f" =
      .ok (world.tree.set (.named ["f"]) (.file .empty), .named ["f"]) := rfl
  have hfile : (world.tree.set (.named ["f"]) (.file .empty)).node? (.named ["f"]) = some (.file .empty) := rfl
  have hfaultless : world.Faultless := ⟨fun _ _ => rfl, fun _ _ => rfl⟩
  obtain ⟨stats, hstats⟩ := ok_of_faultless hsize (by decide) hcreate hfile hfaultless (by decide)
  have htarget : stats.targetBytes = 5 := by
    have hcount := (stats_of_ok hstats).1
    rw [hsize] at hcount
    exact (Except.ok.inj hcount).symm
  obtain ⟨-, -, hok, hsinks⟩ := announcement_settled request world hroom hrefusal
  obtain ⟨htaken, htold, hplaced⟩ := hok stats hstats
  obtain ⟨after, hreports, hafter, -⟩ := hsinks write id hroomy world.output rfl
  -- the text of the notice takes all the room
  have hnotice : request.notice.toUTF8.size = 36 := by decide +kernel
  have hline : (request.notice ++ "\n").toUTF8 = request.notice.toUTF8 ++ "\n".toUTF8 := by simp
  have hsizes : (request.notice ++ "\n").toUTF8.size = 37 := by
    rw [hline, ByteArray.size_append, hnotice]
    rfl
  have htext : told.2.output.taken = request.notice.toUTF8 := by
    have hroomLeft : min 36 37 = 36 := rfl
    rw [htaken, hsizes, hline, hroomLeft, ByteArray.extract_append_eq_left hnotice.symm]
    exact ByteArray.empty_append
  have hbroken : told.1 = .error (.output .brokenPipe) := by
    rw [htold, hsizes]
    rfl
  rw [hstats, hbroken] at hreports
  rw [htarget] at hplaced
  exact ⟨hroom, hrefusal, hroomy, stats, hstats, htarget, hbroken, htext, hplaced, after, hreports,
    (congrArg Outlet.taken hafter).trans htext⟩

end NoiseFile
