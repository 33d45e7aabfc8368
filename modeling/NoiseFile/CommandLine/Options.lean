import NoiseFile.Binary64.Literal
import NoiseFile.CommandLine.Argument
import NoiseFile.CommandLine.Similarity

/-!
# Options

* `Flag` : the flags, each with a long name and a letter;
* `Stop` : why reading a command line ends early;
* `Options.parse` : reads arguments from left to right; the first that asks for help or the version, or that cannot
  be read, decides. A flag given twice is noticed only at the end.
-/

namespace NoiseFile.CommandLine

/-! ## Flags -/

inductive Flag
  | help
  | version
  | verbose
  deriving DecidableEq

namespace Flag

def name : Flag → String
  | .help => "help"
  | .version => "version"
  | .verbose => "verbose"

def letter : Flag → Char
  | .help => 'h'
  | .version => 'V'
  | .verbose => 'v'

/-- The flags, in the order in which a usage line shows them. -/
def all : List Flag := [.help, .version, .verbose]

def ofName? (name : String) : Option Flag := all.find? fun flag => decide (flag.name = name)

def ofLetter? (letter : Char) : Option Flag := all.find? fun flag => decide (flag.letter = letter)

/-- The least similarity that makes a suggestion has to exceed four fifths. -/
def suggestionBound : Binary64 := Similarity.share 4 5

/-- The flag whose name is most like a word, if it is like it enough. Of equals the first one tried stays. -/
def suggestion? (word : String) : Option Flag :=
  ([verbose, help, version].foldl (fun (best : Binary64 × Option Flag) flag =>
    let score := Similarity.closeness word.toList flag.name.toList
    if best.1.isLess score then (score, some flag) else best) (suggestionBound, none)).2

end Flag

/-! ## Reading arguments -/

inductive Stop
  | help
  | version
  /-- An argument that has no place, with the flag it may stand for; `verbose` tells whether that flag came before. -/
  | unexpected (shown : String) (suggestion : Option Flag) (verbose : Bool)
  | repeatedVerbose
  /-- A text was needed where there was none. -/
  | unreadable
  deriving DecidableEq

structure Options where
  outFile : Option Argument
  size : Option Argument
  verbose : Bool
  deriving DecidableEq

/-- What has been read so far: the values in order, and how often the verbose flag was given. -/
structure Seen where
  values : List Argument := []
  verbose : Nat := 0
  deriving DecidableEq

namespace Seen

def unexpected (seen : Seen) (shown : String) (suggestion : Option Flag) : Except Stop Seen :=
  .error (.unexpected shown suggestion (decide (0 < seen.verbose)))

/-- Takes a value; there are places for two. -/
def value (seen : Seen) (argument : Argument) : Except Stop Seen :=
  if seen.values.length < 2 then .ok { seen with values := seen.values ++ [argument] }
  else seen.unexpected argument.shown none

def flag (seen : Seen) : Flag → Except Stop Seen
  | .help => .error .help
  | .version => .error .version
  | .verbose => .ok { seen with verbose := seen.verbose + 1 }

def letters (seen : Seen) : List (Option Char) → Except Stop Seen
  | [] => .ok seen
  | glyph :: glyphs => match glyph.bind Flag.ofLetter? with
    | some flag => do (← seen.flag flag).letters glyphs
    | none => seen.unexpected (Text.render [some '-', glyph]) none

/-- Takes a long option, its dashes and everything from an equals sign on left out. A name that is no flag can only be
answered if it and the arguments after it are text. -/
def long (seen : Seen) (glyphs : List (Option Char)) (later : List Argument) : Except Stop Seen :=
  match (Argument.mk glyphs).text? with
  | none => .error .unreadable
  | some name => match Flag.ofName? name with
    | some flag => seen.flag flag
    | none =>
      if later.all fun argument => argument.text?.isSome then seen.unexpected ("--" ++ name) (Flag.suggestion? name)
      else .error .unreadable

end Seen

/-- Whether an argument with a dash in front is a number all the same. -/
def isNumber (argument : Argument) : Bool :=
  match Argument.charsOf? argument.glyphs with
  | none => false
  | some cs => (Literal.parse? cs).isSome

def scanValues (seen : Seen) : List Argument → Except Stop Seen
  | [] => .ok seen
  | argument :: rest => do scanValues (← seen.value argument) rest

/-- Reads arguments, up to a lone pair of dashes as flags and values, and after it as values. -/
def scan (seen : Seen) : List Argument → Except Stop Seen
  | [] => .ok seen
  | argument :: rest => match argument.glyphs with
    | [some '-', some '-'] => scanValues seen rest
    | some '-' :: some '-' :: glyphs => do
      let name := (glyphs.dropWhile (· == some '-')).takeWhile (· != some '=')
      scan (← seen.long name rest) rest
    | some '-' :: glyph :: glyphs => do
      if isNumber argument then scan (← seen.value argument) rest
      else scan (← seen.letters (glyph :: glyphs)) rest
    | _ => do scan (← seen.value argument) rest

def Options.parse (arguments : List Argument) : Except Stop Options :=
  match scan {} arguments with
  | .error stop => .error stop
  | .ok seen =>
    if 1 < seen.verbose then .error .repeatedVerbose
    else .ok { outFile := seen.values[0]?, size := seen.values[1]?, verbose := decide (0 < seen.verbose) }

end NoiseFile.CommandLine
