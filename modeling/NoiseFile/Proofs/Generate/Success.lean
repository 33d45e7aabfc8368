import Mathlib.Control.Monad.Basic
import NoiseFile.Proofs.Generate.Stages

/-!
# Generations that succeed

* `stats_of_ok` : a generation that succeeds counts its whole target, and its path leads to a file of that size;
* `ok_of_faultless` : where nothing fails, a file is generated;
* `not_ok_of_device` : a device is never generated;
* `generate_guarantees` : all of these.
-/

namespace NoiseFile

open FileSystem

variable {request : Request} {world : World}

theorem stats_of_ok {stats : Stats} (h : (generateIn request world).1 = .ok stats) :
    byteCount request.size = .ok stats.targetBytes ∧ stats.Complete request stats.targetBytes ∧
      request.chunkSize ≠ 0 ∧ ∃ names content,
        resolve (generateIn request world).2.tree world.home .look request.outFile =
          .ok (.taken names (.file content)) ∧ content.size = stats.targetBytes.toNat := by
  have hstages := stages_generate request world
  rw [h] at hstages
  cases hstages with
  | opened size_eq chunk_ne create_eq completion =>
      obtain ⟨hcomplete, hfilling, hfile⟩ := ends_completion chunk_ne rfl (filling_opening create_eq) completion
      rw [hcomplete.targetBytes]
      exact ⟨size_eq, hcomplete, chunk_ne, resolve_filling create_eq hfilling hfile⟩

theorem ok_of_faultless {target : UInt64} {tree : Tree} {place : Place} {content : ByteArray}
    (hsize : byteCount request.size = .ok target) (hchunk : request.chunkSize ≠ 0)
    (hcreate : world.tree.create world.home request.outFile = .ok (tree, place))
    (hfile : tree.node? place = some (.file content)) (hfaultless : world.Faultless)
    (hroom : min request.chunkSize.toNat target.toNat ≤ largestBuffer) :
    ∃ stats, (generateIn request world).1 = .ok stats := by
  have hcompletion := (stages_generate request world).of_opened hsize hchunk hcreate
  have hends := ends_completion hchunk rfl (filling_opening hcreate) hcompletion
  rcases houtcome : (generateIn request world).1 with failure | stats
  · rw [houtcome] at hends
    rcases hends with hbroken | ⟨-, hlarge, -⟩
    · exact absurd (hbroken.faultless ⟨hfaultless.hitch, hfaultless.cut⟩) (not_isDevice_of_file hfile)
    · omega
  · exact ⟨stats, rfl⟩

theorem not_ok_of_device {names : List String} {device : Device}
    (hdevice : resolve world.tree world.home .look request.outFile = .ok (.taken names (.device device))) (stats : Stats) :
    (generateIn request world).1 ≠ .ok stats := by
  intro h
  have hstages := stages_generate request world
  rw [h] at hstages
  cases hstages with
  | opened size_eq chunk_ne create_eq completion =>
      obtain ⟨-, hfilling, hfile⟩ := ends_completion chunk_ne rfl (filling_opening create_eq) completion
      obtain ⟨_, _, spot, hresolve, hspot, -⟩ := alike_filling create_eq hfilling hfile
      rw [resolve_look hresolve] at hdevice
      cases hdevice
      cases hspot

/-- A generation that succeeds leaves a file of the size that was asked for at the end of its path, and has counted its
bytes and chunks. It succeeds whenever its size and its chunk size make sense, its path can be opened as a file, nothing
fails, and its chunks can be held in memory; and on a device it never does. -/
theorem generate_guarantees (request : Request) (world : World) :
    let outcome := (generateIn request world).1
    let after := (generateIn request world).2
    (∀ stats, outcome = .ok stats →
      byteCount request.size = .ok stats.targetBytes ∧ stats.bytesWritten = stats.targetBytes ∧
        stats.chunkSize = request.chunkSize ∧ stats.chunksWritten.toNat =
          (stats.targetBytes.toNat + request.chunkSize.toNat - 1) / request.chunkSize.toNat ∧
        ∃ names content, resolve after.tree world.home .look request.outFile = .ok (.taken names (.file content)) ∧
          content.size = stats.targetBytes.toNat) ∧
    (∀ target tree place content, byteCount request.size = .ok target → request.chunkSize ≠ 0 →
      world.tree.create world.home request.outFile = .ok (tree, place) → tree.node? place = some (.file content) →
      world.Faultless → min request.chunkSize.toNat target.toNat ≤ largestBuffer → ∃ stats, outcome = .ok stats) ∧
    ∀ names device, resolve world.tree world.home .look request.outFile = .ok (.taken names (.device device)) →
      ∀ stats, outcome ≠ .ok stats := by
  intro outcome after
  refine ⟨?_, ?_, ?_⟩
  · intro stats hstats
    obtain ⟨hsize, hcomplete, hchunk, hfile⟩ := stats_of_ok hstats
    exact ⟨hsize, hcomplete.bytesWritten, hcomplete.chunkSize, toNat_chunkCount hchunk hcomplete.chunksWritten, hfile⟩
  · intro target tree place content hsize hchunk hcreate hfile hfaultless hroom
    exact ok_of_faultless hsize hchunk hcreate hfile hfaultless hroom
  · intro names device hdevice
    exact not_ok_of_device hdevice

/-- Five bytes in chunks of two, under a link to a free name in a directory. -/
theorem generate_guarantees_through_link :
    let request : Request := { outFile := "l", size := ⟨0x3E34000000000000⟩, sizeText := "tiny", chunkSize := 2 }
    let tree : Tree := ⟨[(.named ["d"], .directory), (.named ["l"], .link "d/f")]⟩
    let world : World := { tree, home := [], source := { byteAt := fun _ => 7, cut := fun _ => none } }
    byteCount request.size = .ok 5 ∧ request.chunkSize ≠ 0 ∧
      world.tree.create world.home "l" = .ok (tree.set (.named ["d", "f"]) (.file .empty), .named ["d", "f"]) ∧
      world.Faultless ∧ min request.chunkSize.toNat (5 : UInt64).toNat ≤ largestBuffer ∧
      ∃ stats, (generateIn request world).1 = .ok stats ∧ stats.chunksWritten = 3 ∧ ∃ names content,
        resolve (generateIn request world).2.tree world.home .look "l" = .ok (.taken names (.file content)) ∧
          content.size = 5 := by
  intro request tree world
  have hsize : byteCount request.size = .ok 5 := by decide +kernel
  have hchunk : request.chunkSize ≠ 0 := by decide
  have hcreate : world.tree.create world.home "l" =
      .ok (tree.set (.named ["d", "f"]) (.file .empty), .named ["d", "f"]) := rfl
  have hfaultless : world.Faultless := ⟨fun _ _ => rfl, fun _ _ => rfl⟩
  have hroom : min request.chunkSize.toNat (5 : UInt64).toNat ≤ largestBuffer := by decide
  obtain ⟨hok, hconverse, -⟩ := generate_guarantees request world
  obtain ⟨stats, hstats⟩ := hconverse 5 _ _ .empty hsize hchunk hcreate rfl hfaultless hroom
  obtain ⟨htarget, -, -, hchunks, names, content, hresolve, hcontent⟩ := hok stats hstats
  rw [hsize] at htarget
  have hfive : stats.targetBytes = 5 := (Except.ok.inj htarget).symm
  rw [hfive] at hchunks hcontent
  have hthree : (UInt64.toNat 5 + request.chunkSize.toNat - 1) / request.chunkSize.toNat = UInt64.toNat 3 := by decide
  exact ⟨hsize, hchunk, hcreate, hfaultless, hroom, stats, hstats, UInt64.toNat_inj.mp (hchunks.trans hthree), names,
    content, hresolve, hcontent⟩

/-- Where nothing fails, one chunk of 2⁶³ bytes is still too long to be held. And a file of no bytes, to which nothing is
written, is not generated if its size cannot be read. -/
theorem generate_without_buffer_or_size :
    let world : World := { tree := ⟨[]⟩, home := [], source := { byteAt := fun _ => 7, cut := fun _ => none } }
    let whole : Request :=
      { outFile := "f", size := ⟨0x4200000000000000⟩, sizeText := "8589934592", chunkSize := 0x8000000000000000 }
    let empty : Request := { outFile := "f", size := ⟨0⟩, sizeText := "0", chunkSize := 2 }
    let unread : World := { world with hitch := fun n => if n = 0 then some ⟨0, .inputOutputError⟩ else none }
    world.tree.create world.home "f" = .ok (world.tree.set (.named ["f"]) (.file .empty), .named ["f"]) ∧
      world.Faultless ∧
      (byteCount whole.size = .ok 0x8000000000000000 ∧ whole.chunkSize ≠ 0 ∧
        (generateIn whole world).1 = .error .noBuffer) ∧
      byteCount empty.size = .ok 0 ∧ empty.chunkSize ≠ 0 ∧
        (generateIn empty unread).1 = .error (.file .inputOutputError "f") := by
  intro world whole empty unread
  refine ⟨rfl, ⟨fun _ _ => rfl, fun _ _ => rfl⟩, ⟨?_, ?_, ?_⟩, ?_, ?_, ?_⟩
  all_goals decide +kernel

end NoiseFile
