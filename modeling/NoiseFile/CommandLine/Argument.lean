import NoiseFile.Text.Utf8

/-!
# Arguments

* `Argument` : one word of a command line, character by character; the system may hand over bytes that are no text,
  and those stand as `none`;
* `Argument.text?` : its text, if all of it is text;
* `Argument.shown` : how a message shows it.
-/

namespace NoiseFile.CommandLine

structure Argument where
  glyphs : List (Option Char)
  deriving DecidableEq

namespace Argument

def ofString (text : String) : Argument := ⟨text.toList.map some⟩

def ofBytes (bytes : List UInt8) : Argument := ⟨Text.decode bytes⟩

/-- The characters, if every part is one. -/
def charsOf? : List (Option Char) → Option (List Char)
  | [] => some []
  | none :: _ => none
  | some c :: glyphs => (charsOf? glyphs).map (c :: ·)

def text? (argument : Argument) : Option String := (charsOf? argument.glyphs).map String.ofList

def shown (argument : Argument) : String := Text.render argument.glyphs

theorem charsOf?_map_some (cs : List Char) : charsOf? (cs.map some) = some cs := by
  induction cs with
  | nil => rfl
  | cons c cs ih => simp [charsOf?, ih]

theorem text?_ofString (text : String) : (ofString text).text? = some text := by
  simp [text?, ofString, charsOf?_map_some]

theorem ofString_injective : Function.Injective ofString := by
  intro text text' h
  have htext := congrArg text? h
  rwa [text?_ofString, text?_ofString, Option.some_inj] at htext

theorem shown_ofString (text : String) : (ofString text).shown = text := by
  simp [shown, ofString, Text.render, Function.comp_def]

end Argument

end NoiseFile.CommandLine
