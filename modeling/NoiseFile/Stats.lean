import NoiseFile.Elapsed

/-!
# Statistics of a run

* `Stats` : what a finished run counted, and when it started and finished (`Stats.elapsed`);
* `Stats.text` : the five lines shown for it.
-/

namespace NoiseFile

structure Stats where
  targetBytes : UInt64
  bytesWritten : UInt64
  chunksWritten : UInt64
  chunkSize : UInt64
  /-- When the run began, in seconds. -/
  start : Binary64
  finish : Binary64
  deriving DecidableEq

def Stats.elapsed (stats : Stats) : Int64 := (stats.finish.sub stats.start).toInt64

def Stats.text (stats : Stats) : String :=
  "Target size                  : " ++ toString stats.targetBytes.toNat ++ " bytes\n" ++
  "Bytes written                : " ++ toString stats.bytesWritten.toNat ++ "\n" ++
  "Chunks written               : " ++ toString stats.chunksWritten.toNat ++ "\n" ++
  "Chunk size                   : " ++ toString stats.chunkSize.toNat ++ " bytes\n" ++
  "Time elapsed                 : " ++ hourText stats.elapsed

end NoiseFile
