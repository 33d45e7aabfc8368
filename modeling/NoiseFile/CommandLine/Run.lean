import NoiseFile.CommandLine.Messages
import NoiseFile.Generate

/-!
# Running a command line

* `Outcome` : how a run ends: with an exit code, or broken off with a text;
* `run` : reads the arguments and generates the file. A request that makes no sense ends with code 1, a failure of the
  work itself with code 2.
-/

namespace NoiseFile.CommandLine

inductive Outcome
  | exited (code : UInt32)
  | aborted (text : String)
  deriving DecidableEq

variable {m : Type → Type} {Handle : Type} [Monad m] [Machine m Handle]

def complainAndExit (code : UInt32) (text : String) : m Outcome := do
  Machine.complain (text ++ "\n")
  return .exited code

/-- Ends a run whose arguments ask for no file. -/
def answer : Stop → m Outcome
  | .help => do
    let _ ← (Machine.print (helpText ++ "\n") : m (Except SystemFault Unit))
    return .exited 0
  | .version => do
    match ← (Machine.print (versionText ++ "\n") : m (Except SystemFault Unit)) with
    | .ok () => return .exited 0
    | .error _ => complainAndExit 1 versionRefused
  | .unreadable => return .aborted Stop.unreadable.message
  | stop => complainAndExit 1 stop.message

/-- Prints the statistics below an empty line, if they are asked for. -/
def finish (verbose : Bool) (stats : Stats) : m Outcome := do
  if verbose then
    match ← (Machine.print ("\n" ++ stats.text ++ "\n") : m (Except SystemFault Unit)) with
    | .ok () => return .exited 0
    | .error fault => return .aborted ("failed printing to stdout: " ++ fault.description)
  else return .exited 0

def fulfil (verbose : Bool) (request : Request) : m Outcome := do
  match ← (generateAndAnnounce request).run with
  | .ok stats => finish verbose stats
  | .error failure => complainAndExit 2 failure.message

def withOutFile (outFile : String) (options : Options) : m Outcome := do
  match options.size with
  | none => fulfil options.verbose (.new outFile defaultSize)
  | some argument => match argument.text? with
    | none => answer .unreadable
    | some text => match parseSize text with
      | .error fault => complainAndExit 1 ("Invalid size \"" ++ text ++ "\" : " ++ fault.message)
      | .ok size => fulfil options.verbose ((Request.new outFile size).withSizeText (Text.trim text))

def execute (options : Options) : m Outcome := do
  match options.outFile.elim (some defaultOutFile) Argument.text? with
  | none => answer .unreadable
  | some outFile =>
    if ← Machine.isDirectory outFile then complainAndExit 1 ("\"" ++ outFile ++ "\" is a directory")
    else withOutFile outFile options

def run (arguments : List Argument) : m Outcome :=
  match Options.parse arguments with
  | .error stop => answer stop
  | .ok options => execute options

end NoiseFile.CommandLine
