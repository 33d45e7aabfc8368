import NoiseFile.CommandLine.Options

/-!
# Messages of the command line

* `helpText`, `versionText` : what is shown on request, and `versionRefused` where that fails;
* `usage` : the usage line of a refusal, which names the flags at hand;
* `Stop.message` : the text of an early end.
-/

namespace NoiseFile.CommandLine

def versionText : String := "randfill 0.1.0"

def helpText : String :=
  versionText ++ "\n" ++
  "Write a file of the given size filled with cryptographically secure random bytes\n" ++
  "\n" ++
  "USAGE:\n" ++
  "    randfill [FLAGS] [ARGS]\n" ++
  "\n" ++
  "FLAGS:\n" ++
  "    -h, --help       Prints help information\n" ++
  "    -V, --version    Prints version information\n" ++
  "    -v, --verbose    Show statistics after the file is written\n" ++
  "\n" ++
  "ARGS:\n" ++
  "    <OUTFILE>    File to write. Created if missing, truncated if it exists.\n" ++
  "                 Parent directories are not created. Defaults to random_1gb_file.bin\n" ++
  "    <SIZE-GB>    Size of the file in GiB (1024^3 bytes), fractions allowed.\n" ++
  "                 The byte count is rounded down. Negative values are rejected.\n" ++
  "                 Defaults to 1"

/-- The complaint when the output refuses the version, whatever its reason. -/
def versionRefused : String := "error: description() is deprecated; use Display"

def green (text : String) : String := "\x1b[32m" ++ text ++ "\x1b[0m"

/-- How the program is used with the given flags, or in general if there are none. -/
def usage (flags : List Flag) : String :=
  let words := match Flag.all.filter flags.contains with
    | [] => " [FLAGS] [ARGS]"
    | shown => String.join (shown.map fun flag => " --" ++ flag.name)
  "USAGE:\n    randfill" ++ words ++ "\n\nFor more information try --help"

/-- The text of an early end; the version has none, since it is printed at once. -/
def Stop.message : Stop → String
  | .help => helpText
  | .version => ""
  | .unexpected shown suggestion verbose =>
    let hint := match suggestion with
      | none => ""
      | some flag => "\tDid you mean " ++ green "--" ++ green flag.name ++ "?\n"
    "error: Found argument '" ++ shown ++ "' which wasn't expected, or isn't valid in this context\n" ++ hint ++ "\n" ++
      usage (suggestion.toList ++ if verbose then [.verbose] else [])
  | .repeatedVerbose =>
    "error: The argument '--verbose' was provided more than once, but cannot be used multiple times\n\n" ++
      usage [.verbose]
  | .unreadable => "unexpected invalid UTF-8 code point"

end NoiseFile.CommandLine
