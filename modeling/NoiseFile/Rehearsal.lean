import NoiseFile.Chunks

/-!
# Rehearsals

A rehearsal writes chunks from a scripted source to a writer that keeps what it takes.

* `Rehearsal` : the source and its cursor, the writer's refusals, and a record of both;
* `Rehearsal.draw`, `Rehearsal.write` : the two ends of a rehearsed run;
* `Rehearsal.writeChunks` : such a run.
-/

namespace NoiseFile

/-- A scripted source, a recording writer, and the record. -/
structure Rehearsal where
  source : Source
  cursor : Cursor := {}
  /-- The failure that meets a chunk, by the number of chunks offered before it. -/
  refusal : Nat → Option Failure := fun _ => none
  offered : Nat := 0
  /-- The lengths asked of the source, in order. -/
  requests : Array Nat := #[]
  /-- The chunks that the writer took, in order. -/
  accepted : Array ByteArray := #[]

namespace Rehearsal

def draw (n : Nat) : StateM Rehearsal (Draw n) := fun run =>
  let (drawn, cursor) := run.source.deal run.cursor n
  (drawn, { run with cursor, requests := run.requests.push n })

def write (chunk : ByteArray) : ExceptT Failure (StateM Rehearsal) Unit := fun run =>
  match run.refusal run.offered with
  | none => (.ok (), { run with offered := run.offered + 1, accepted := run.accepted.push chunk })
  | some failure => (.error failure, { run with offered := run.offered + 1 })

def writeChunks (target chunk : UInt64) : StateM Rehearsal (Except Failure UInt64) :=
  (NoiseFile.writeChunks draw write target chunk).run

def data (run : Rehearsal) : ByteArray := run.accepted.foldl (· ++ ·) .empty

end Rehearsal

end NoiseFile
