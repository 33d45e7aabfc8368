import NoiseFile.CommandLine.Options
import NoiseFile.Proofs.Decimal.Reading

/-!
# The grammar of command lines

A lone pair of dashes ends the options; every word behind it is a value. Of the words in front of it:

* `IsValue` : a value has no dash in front, or is a dash alone, or a number;
* `IsLong`, `IsGroup` : any other word is a long option with its name, or a group of letters;
* `Token`, `Stands` : what a word stands for: a value, a flag, or an option that is no flag; a group has a token for
  each letter;
* `Reading` : the tokens of a command line, of which every command line has one row (`exists_reading`,
  `Reading.unique`).
-/

namespace NoiseFile.CommandLine

variable {text name : String}

/-! ## Values -/

/-- A text that is a 64-bit integer: a sign or none, and digits. -/
def IsInt64 (text : String) : Prop :=
  ∃ (sign : Sign) (digits : List (Fin 10)), text.toList = sign.spelling ++ Digits.spelling digits ∧ digits ≠ [] ∧
    -2 ^ 63 ≤ sign.factor * (Digits.value digits : Int) ∧ sign.factor * (Digits.value digits : Int) < 2 ^ 63

def IsBinary64 (text : String) : Prop := (Literal.parse? text.toList).isSome = true

/-- A word in front of the lone pair of dashes that is a value. -/
def IsValue (text : String) : Prop :=
  text.toList.head? ≠ some '-' ∨ text = "-" ∨ IsInt64 text ∨ IsBinary64 text

theorem IsInt64.isBinary64 (h : IsInt64 text) : IsBinary64 text := by
  obtain ⟨sign, digits, htext, hne, -⟩ := h
  let numeral : Numeral := { sign, whole := digits, fraction := none, exponent := none, digits_ne_nil := by simpa }
  have hspelling : text.toList = numeral.spelling := by
    simp [htext, numeral, Numeral.spelling, Numeral.fractionSpelling, Numeral.exponentSpelling]
  rw [IsBinary64, hspelling, numeral.parse?_spelling]
  rfl

theorem isNumber_ofString (text : String) : isNumber (.ofString text) = true ↔ IsBinary64 text := by
  simp [isNumber, IsBinary64, Argument.ofString, Argument.charsOf?_map_some]

/-- To be a number it is enough to be a binary64 number. -/
theorem isValue_iff (text : String) :
    IsValue text ↔ text.toList.head? ≠ some '-' ∨ text = "-" ∨ isNumber (.ofString text) = true := by
  rw [isNumber_ofString, IsValue, or_iff_right_of_imp IsInt64.isBinary64]

instance : DecidablePred IsValue := fun text => decidable_of_iff _ (isValue_iff text).symm

theorem not_isBinary64_of_dashes {cs : List Char} (h : text.toList = '-' :: '-' :: cs) : ¬ IsBinary64 text := by
  have hlower : '-'.toLower = '-' := by decide
  have hdigit : '-'.isDigit = false := by decide
  simp [IsBinary64, h, Literal.parse?, Literal.splitSign, Literal.decimal?, Literal.splitFraction, hlower, hdigit]

theorem not_isValue_of_dashes {cs : List Char} (h : text.toList = '-' :: '-' :: cs) : ¬ IsValue text := by
  rintro (hhead | rfl | hint | hbinary)
  · exact hhead (by rw [h]; rfl)
  · simp at h
  · exact not_isBinary64_of_dashes h hint.isBinary64
  · exact not_isBinary64_of_dashes h hbinary

/-! ## Options -/

/-- A long option: two dashes or more, a name, and perhaps an equals sign with anything behind it. -/
def IsLong (text name : String) : Prop :=
  ∃ (dashes : Nat) (tail : List Char), text.toList = List.replicate dashes '-' ++ (name.toList ++ tail) ∧ 2 ≤ dashes ∧
    '-' ∉ name.toList.head? ∧ '=' ∉ name.toList ∧ ∀ c ∈ tail.head?, c = '='

/-- A group of letters behind one dash. -/
def IsGroup (text : String) (letters : List Char) : Prop :=
  text.toList = '-' :: letters ∧ '-' ∉ letters.head? ∧ ¬ IsValue text

/-- What is left of a long option without its dashes and without everything from an equals sign on is its name. -/
theorem IsLong.cut (h : IsLong text name) :
    ∃ cs, text.toList = '-' :: '-' :: cs ∧ (cs.dropWhile (· == '-')).takeWhile (· != '=') = name.toList := by
  obtain ⟨dashes, tail, htext, hdashes, hhead, hequals, htail⟩ := h
  obtain ⟨more, rfl⟩ := Nat.exists_eq_add_of_le' hdashes
  have hbody : ∀ c ∈ (name.toList ++ tail).head?, (c == '-') = false := by
    intro c hc
    rw [beq_eq_false_iff_ne]
    rintro rfl
    cases hname : name.toList with
    | nil =>
        rw [hname] at hc
        exact absurd (htail _ hc) (by decide)
    | cons d ds =>
        rw [hname] at hc hhead
        exact hhead hc
  refine ⟨List.replicate more '-' ++ (name.toList ++ tail), htext, ?_⟩
  rw [dropWhile_stretch (by simp) hbody, takeWhile_stretch (fun c hc => bne_iff_ne.mpr (ne_of_mem_of_not_mem hc hequals))
    (fun c hc => by simp [htail c hc])]

theorem exists_isLong {cs : List Char} (h : text.toList = '-' :: '-' :: cs) : ∃ name, IsLong text name := by
  obtain ⟨dashes, body, rfl, hdashes, hbody⟩ := exists_stretch (· == '-') cs
  obtain ⟨name, tail, rfl, hname, htail⟩ := exists_stretch (· != '=') body
  have hreplicate : dashes = List.replicate dashes.length '-' :=
    List.eq_replicate_of_mem fun c hc => beq_iff_eq.mp (hdashes c hc)
  refine ⟨.ofList name, dashes.length + 2, tail, ?_, Nat.le_add_left .., ?_, ?_, fun c hc => by simpa using htail c hc⟩
  · rw [h, List.replicate_succ, List.replicate_succ, ← hreplicate, String.toList_ofList]
    rfl
  · rw [String.toList_ofList]
    intro hhead
    cases name with
    | nil => exact nomatch hhead
    | cons d ds => exact absurd (hbody _ hhead) (by decide)
  · rw [String.toList_ofList]
    exact fun hequals => absurd (hname _ hequals) (by decide)

theorem IsLong.not_isValue (h : IsLong text name) : ¬ IsValue text := by
  obtain ⟨cs, htext, -⟩ := h.cut
  exact not_isValue_of_dashes htext

theorem IsLong.unique {other : String} (h : IsLong text name) (h' : IsLong text other) : name = other := by
  obtain ⟨cs, htext, hname⟩ := h.cut
  obtain ⟨cs', htext', hother⟩ := h'.cut
  rw [htext] at htext'
  obtain rfl : cs = cs' := (List.cons.inj (List.cons.inj htext').2).2
  exact String.toList_injective (hname.symm.trans hother)

theorem IsGroup.not_isLong {letters : List Char} (h : IsGroup text letters) : ¬ IsLong text name := by
  intro hlong
  obtain ⟨cs, htext, -⟩ := hlong.cut
  obtain ⟨hletters, hhead, -⟩ := h
  obtain rfl : letters = '-' :: cs := (List.cons.inj (hletters.symm.trans htext)).2
  exact hhead rfl

theorem value_or_long_or_group (text : String) :
    IsValue text ∨ (∃ name, IsLong text name) ∨ ∃ letters, IsGroup text letters := by
  by_cases hvalue : IsValue text
  · exact .inl hvalue
  refine .inr ?_
  have hdash : text.toList.head? = some '-' := by
    by_contra hhead
    exact hvalue (.inl hhead)
  obtain ⟨letters, hletters⟩ := List.head?_eq_some_iff.mp hdash
  by_cases hhead : '-' ∈ letters.head?
  · obtain ⟨cs, rfl⟩ := List.head?_eq_some_iff.mp hhead
    exact .inl (exists_isLong hletters)
  · exact .inr ⟨letters, hletters, hhead, hvalue⟩

/-! ## Readings -/

/-- What a word, or a letter of a group, stands for. -/
inductive Token
  | value (text : String)
  | flag (flag : Flag)
  /-- An option that is none of the flags, as it is shown, with the flag it may stand for. -/
  | unknown (shown : String) (suggestion : Option Flag)
  deriving DecidableEq

def Token.option (found : Option Flag) (shown : String) (suggestion : Option Flag) : Token :=
  found.elim (.unknown shown suggestion) .flag

def Token.ofLetter (letter : Char) : Token := .option (Flag.ofLetter? letter) (.ofList ['-', letter]) none

def Token.ofName (name : String) : Token := .option (Flag.ofName? name) ("--" ++ name) (Flag.suggestion? name)

/-- What a word in front of the lone pair of dashes stands for. -/
inductive Stands : String → List Token → Prop
  | value {text : String} : IsValue text → Stands text [.value text]
  | long {text name : String} : IsLong text name → Stands text [.ofName name]
  | group {text : String} {letters : List Char} : IsGroup text letters → Stands text (letters.map .ofLetter)

/-- What a command line stands for, word by word. -/
inductive Reading : List String → List Token → Prop
  | nil : Reading [] []
  | dashes {rest : List String} : Reading ("--" :: rest) (rest.map .value)
  | cons {text : String} {rest : List String} {tokens more : List Token} :
      text ≠ "--" → Stands text tokens → Reading rest more → Reading (text :: rest) (tokens ++ more)

theorem exists_stands (text : String) : ∃ tokens, Stands text tokens := by
  rcases value_or_long_or_group text with hvalue | ⟨name, hlong⟩ | ⟨letters, hgroup⟩
  · exact ⟨_, .value hvalue⟩
  · exact ⟨_, .long hlong⟩
  · exact ⟨_, .group hgroup⟩

theorem exists_reading (arguments : List String) : ∃ tokens, Reading arguments tokens := by
  induction arguments with
  | nil => exact ⟨_, .nil⟩
  | cons text rest ih =>
      by_cases hdashes : text = "--"
      · subst hdashes
        exact ⟨_, .dashes⟩
      · obtain ⟨tokens, htokens⟩ := exists_stands text
        obtain ⟨more, hmore⟩ := ih
        exact ⟨_, .cons hdashes htokens hmore⟩

theorem Stands.unique {tokens others : List Token} (h : Stands text tokens) (h' : Stands text others) :
    tokens = others := by
  cases h with
  | value hvalue =>
      cases h' with
      | value => rfl
      | long hlong => exact absurd hvalue hlong.not_isValue
      | group hgroup => exact absurd hvalue hgroup.2.2
  | long hlong =>
      cases h' with
      | value hvalue => exact absurd hvalue hlong.not_isValue
      | long hother => rw [hlong.unique hother]
      | group hgroup => exact absurd hlong hgroup.not_isLong
  | group hgroup =>
      cases h' with
      | value hvalue => exact absurd hvalue hgroup.2.2
      | long hlong => exact absurd hlong hgroup.not_isLong
      | group hother => rw [(List.cons.inj (hgroup.1.symm.trans hother.1)).2]

theorem Reading.unique {arguments : List String} {tokens others : List Token} (h : Reading arguments tokens)
    (h' : Reading arguments others) : tokens = others := by
  induction h generalizing others with
  | nil => cases h' with | nil => rfl
  | dashes =>
      cases h' with
      | dashes => rfl
      | cons hne => exact absurd rfl hne
  | cons hne hstands _ ih =>
      cases h' with
      | dashes => exact absurd rfl hne
      | cons _ hstands' hrest' => rw [hstands.unique hstands', ih hrest']

end NoiseFile.CommandLine
