import NoiseFile.Proofs.Generate.Deeds
import NoiseFile.Proofs.Generate.Success
import NoiseFile.Proofs.Generate.Verdict

/-!
# A generation that is repeated

* `left_of_ok` : a generation that succeeds leaves a file of its size at the end of its path, and all else as it was;
* `sameSkeleton_of_ok` : so it leads no path elsewhere;
* `generate_again` : where nothing fails, it succeeds once more on what it has left, and changes no size.
-/

namespace NoiseFile

open FileSystem

/-- A file that is put where there was a file or nothing leaves the skeleton of a tree. -/
theorem FileSystem.Tree.Alike.sameSkeleton {before after : Tree} {place : Place} {content : ByteArray}
    (h : before.Alike place after) (hbefore : Node.Loose (before.node? place))
    (hafter : after.node? place = some (.file content)) : before.SameSkeleton after := by
  intro other
  by_cases hother : other = place
  · rw [hother, hafter, (Node.bone?_eq_none_iff _).mpr hbefore]
    rfl
  · rw [h other hother]

section Repeated
variable {request : Request} {world : World} {stats : Stats} (hok : (generateIn request world).1 = .ok stats)
include hok

theorem left_of_ok :
    ∃ names content, world.tree.end? world.home request.outFile = some (.free names) ∧
      world.tree.Alike (.named names) (generateIn request world).2.tree ∧
      (generateIn request world).2.tree.node? (.named names) = some (.file content) ∧
      content.size = stats.targetBytes.toNat := by
  have hstages := stages_generate request world
  rw [hok] at hstages
  cases hstages with
  | opened size_eq chunk_ne create_eq completion =>
      obtain ⟨hcomplete, hfilling, hfile⟩ := ends_completion chunk_ne rfl (filling_opening create_eq) completion
      obtain ⟨names, content, spot, hresolve, hspot, halike, hnode, hsize⟩ := alike_filling create_eq hfilling hfile
      refine ⟨names, content, ?_, halike, hnode, by rw [hsize, hcomplete.targetBytes]⟩
      rw [Tree.end?, hresolve]
      rcases spot with ⟨_, _ | old | _ | _⟩ | _ <;> cases hspot <;> rfl

theorem sameSkeleton_of_ok : world.tree.SameSkeleton (generateIn request world).2.tree := by
  obtain ⟨names, content, hend, halike, hnode, -⟩ := left_of_ok hok
  exact halike.sameSkeleton (Tree.loose_of_end? hend) hnode

theorem generate_again {again : World} (hfaultless : again.Faultless)
    (htree : again.tree = (generateIn request world).2.tree) (hhome : again.home = world.home)
    (hchunk : request.chunkSize.toNat ≤ largestBuffer) :
    (∃ stats, (generateIn request again).1 = .ok stats) ∧
      again.tree.SameThrough Node.sized (generateIn request again).2.tree := by
  obtain ⟨names, content, hend, -, hnode, hsize⟩ := left_of_ok hok
  obtain ⟨hbytes, -, hchunk_ne, -⟩ := stats_of_ok hok
  have hend' : again.tree.end? again.home request.outFile = some (.free names) := by
    rw [htree, hhome, (sameSkeleton_of_ok hok).end?_eq, hend]
  have hverdict := verdict_generate request hfaultless
  obtain ⟨count, hcount, -⟩ := chunkCount_ok stats.targetBytes hchunk_ne
  rw [hend', verdict_of_size hbytes hcount, Verdict.writing, if_neg (by omega)] at hverdict
  rcases hrun : (generateIn request again).1 with failure | stats'
  · rw [hrun] at hverdict
    cases failure <;> cases hverdict
  refine ⟨⟨stats', rfl⟩, ?_⟩
  obtain ⟨names', content', hend'', halike, hnode', hsize'⟩ := left_of_ok hrun
  obtain rfl : names' = names := Spot.free.inj (Option.some.inj (hend''.symm.trans hend'))
  have htarget : stats'.targetBytes = stats.targetBytes := Except.ok.inj ((stats_of_ok hrun).1.symm.trans hbytes)
  intro place
  by_cases hplace : place = .named names'
  · -- the two files have the size of the request
    rw [hplace, hnode', htree, hnode, Option.map_some, Option.map_some, Node.sized, Node.sized, hsize', hsize, htarget]
  · rw [halike place hplace]

end Repeated

end NoiseFile
