import NoiseFile.Proofs.Generate.Failure
import NoiseFile.Proofs.Generate.Frame

/-!
# Generations that are told of

* `offer_empty`, `offer_append`, `print_eq` : what an outlet takes;
* `announce_eq` : a generation offers its notice behind what was printed before, and nothing if it fails
  (`runFrom_generateAndAnnounce` where the outlet takes all);
* `ne_noBuffer` : a generation in chunks of moderate size never lacks a buffer.
-/

namespace NoiseFile

/-! ## Outlets -/

theorem offer_empty (outlet : Outlet) : (outlet.offer "".toUTF8).2 = outlet := by
  obtain ⟨taken, room, refusal⟩ := outlet
  have hempty : "".toUTF8 = ByteArray.empty := rfl
  rw [hempty]
  cases room with
  | none => simp [Outlet.offer]
  | some room => simp [Outlet.offer]

theorem offer_append {outlet : Outlet} (h : outlet.room = none) (text more : String) :
    ((outlet.offer text.toUTF8).2.offer more.toUTF8).2 = (outlet.offer (text ++ more).toUTF8).2 := by
  obtain ⟨taken, room, refusal⟩ := outlet
  obtain rfl : room = none := h
  simp [Outlet.offer, ByteArray.append_assoc]

theorem print_eq {world : World} (h : world.output.room = none) (text : String) :
    World.print text world = (.ok (), { world with output := (world.output.offer text.toUTF8).2 }) := by
  simp [World.print, Outlet.offer, h]

theorem room_offer {outlet : Outlet} (h : outlet.room = none) (bytes : ByteArray) :
    (outlet.offer bytes).2.room = none := by
  simp [Outlet.offer, h]

theorem announce_eq (request : Request) (world : World) :
    runFrom (generateAndAnnounce request : ExceptT Failure (StateM World) Stats) world =
      match generateIn request world with
      | (.ok stats, after) =>
        (((world.output.offer (request.notice ++ "\n").toUTF8).1.mapError Failure.output).map fun _ => stats,
          { after with output := (world.output.offer (request.notice ++ "\n").toUTF8).2 })
      | (.error failure, after) => (.error failure, after) := by
  have hkept := kept_generate request world
  have hgenerate : runFrom (generate request : ExceptT Failure (StateM World) Stats) world = generateIn request world := rfl
  unfold generateAndAnnounce
  rw [runFrom_bind, hgenerate]
  rcases hrun : generateIn request world with ⟨failure | stats, after⟩
  · rfl
  · rw [hrun] at hkept
    have houtput : after.output = world.output := hkept.output
    have hprint : (Machine.print (request.notice ++ "\n") : StateM World (Except SystemFault Unit)) after =
        ((world.output.offer (request.notice ++ "\n").toUTF8).1,
          { after with output := (world.output.offer (request.notice ++ "\n").toUTF8).2 }) := by
      rw [← houtput]
      rfl
    dsimp only
    rw [runFrom_bind, runFrom_lift, hprint]
    rcases (world.output.offer (request.notice ++ "\n").toUTF8).1 with fault | _ <;> rfl

/-- To an outlet without end, the notice is printed in full. -/
theorem runFrom_generateAndAnnounce (request : Request) {world : World} (h : world.output.room = none) :
    runFrom (generateAndAnnounce request : ExceptT Failure (StateM World) Stats) world =
      match generateIn request world with
      | (.ok stats, after) =>
        (.ok stats, { after with output := (world.output.offer (request.notice ++ "\n").toUTF8).2 })
      | (.error failure, after) => (.error failure, after) := by
  have hoffer : (world.output.offer (request.notice ++ "\n").toUTF8).1 = .ok () := by simp [Outlet.offer, h]
  rw [announce_eq, hoffer]
  rfl

theorem ne_noBuffer {request : Request} (hchunk : request.chunkSize.toNat ≤ largestBuffer) (world : World) :
    (generateIn request world).1 ≠ .error .noBuffer := by
  have hstages := stages_generate request world
  intro h
  rw [h] at hstages
  cases hstages with
  | opened _ _ _ completion =>
      rcases completion.failure_spec with ⟨_, hfailure⟩ | ⟨_, hfailure⟩ | ⟨-, hlarge⟩
      · cases hfailure
      · cases hfailure
      · omega

end NoiseFile
