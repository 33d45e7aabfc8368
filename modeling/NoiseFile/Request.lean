import NoiseFile.Binary64.Shortest
import NoiseFile.Size

/-!
# Requests

* `Request` : the file to write, its size, the text that names the size, and the chunk size;
* `Request.notice` : the line that tells the file is complete.
-/

namespace NoiseFile

/-- The random bytes held in memory at once, unless a request says otherwise. -/
def defaultChunkSize : UInt64 := 1048576

def defaultOutFile : String := "random_1gb_file.bin"

def defaultSize : Binary64 := .ofNat 1

structure Request where
  outFile : String
  size : Binary64
  /-- The size as its user wrote it, shown in the notice. -/
  sizeText : String
  chunkSize : UInt64
  deriving DecidableEq

namespace Request

/-- The request for a file of the given size, with the size's own text. -/
def new (outFile : String) (size : Binary64) : Request :=
  { outFile, size, sizeText := size.text, chunkSize := defaultChunkSize }

def withSizeText (request : Request) (sizeText : String) : Request := { request with sizeText }

def withChunkSize (request : Request) (chunkSize : UInt64) : Request := { request with chunkSize }

/-- Equality with sizes compared as numbers, so that a request for NaN differs from itself. -/
def sameAs (a b : Request) : Bool :=
  decide (a.outFile = b.outFile) && a.size.sameValue b.size && decide (a.sizeText = b.sizeText) &&
    decide (a.chunkSize = b.chunkSize)

def notice (request : Request) : String :=
  "File '" ++ request.outFile ++ "' of " ++ request.sizeText ++ "GB has been created."

end Request

end NoiseFile
