import NoiseFile.Proofs.CommandLine.Scan

/-!
# Which command lines are accepted

* `front`, `positionals` : the words in front of the first lone pair of dashes, and the values of a command line;
* `Accepted` : a command line that is accepted, and `granted`, what it asks for;
* `accepted_iff` : that is one in which no token ends the reading and the verbose flag stands once at most;
* `parse_settled` : an accepted command line gives what it asks for; any other ends by its leftmost token that ends the
  reading, or, if there is none, by the repeated flag.
-/

namespace NoiseFile.CommandLine

/-- The words in front of the first lone pair of dashes. -/
def front (arguments : List String) : List String := arguments.takeWhile (· ≠ "--")

def behind (arguments : List String) : List String := (arguments.dropWhile (· ≠ "--")).tail

def positionals (arguments : List String) : List String :=
  (front arguments).filter (fun text => decide (IsValue text)) ++ behind arguments

/-- A word that may stand in front of the dashes: a value, the long verbose flag, or a group of its letter alone. -/
def IsAdmitted (text : String) : Prop :=
  IsValue text ∨ IsLong text "verbose" ∨ ∃ letters, IsGroup text letters ∧ ∀ c ∈ letters, c = 'v'

/-- A command line that is accepted, with the tokens of its reading. -/
structure Accepted (arguments : List String) (tokens : List Token) : Prop where
  words : ∀ text ∈ front arguments, IsAdmitted text
  once : tokens.count (.flag .verbose) ≤ 1
  places : (positionals arguments).length ≤ 2

def granted (arguments : List String) (tokens : List Token) : Options where
  outFile := (positionals arguments)[0]?.map .ofString
  size := (positionals arguments)[1]?.map .ofString
  verbose := decide (.flag .verbose ∈ tokens)

/-! ## Words and tokens -/

section Words
variable {text name : String} {rest arguments : List String} {tokens : List Token}

theorem front_cons (h : text ≠ "--") : front (text :: rest) = text :: front rest := by simp [front, h]

theorem behind_cons (h : text ≠ "--") : behind (text :: rest) = behind rest := by simp [behind, h]

theorem positionals_cons (h : text ≠ "--") :
    positionals (text :: rest) = (if IsValue text then [text] else []) ++ positionals rest := by
  rw [positionals, front_cons h, behind_cons h, List.filter_cons]
  by_cases hvalue : IsValue text <;> simp [hvalue, positionals]

theorem positionals_dashes (rest : List String) : positionals ("--" :: rest) = rest := by
  simp [positionals, front, behind]

theorem ofName?_eq_some_iff {flag : Flag} : Flag.ofName? name = some flag ↔ flag.name = name := by
  constructor
  · intro h
    simpa using List.find?_some h
  · rintro rfl
    cases flag <;> decide

theorem ofLetter?_eq_some_iff {letter : Char} {flag : Flag} :
    Flag.ofLetter? letter = some flag ↔ flag.letter = letter := by
  constructor
  · intro h
    simpa using List.find?_some h
  · rintro rfl
    cases flag <;> decide

theorem passes_option_iff {found suggestion : Option Flag} {shown : String} :
    (Token.option found shown suggestion).Passes ↔ found = some .verbose := by
  cases found <;> simp [Token.option, Token.Passes]

theorem passes_ofName_iff : (Token.ofName name).Passes ↔ name = "verbose" := by
  rw [Token.ofName, passes_option_iff, ofName?_eq_some_iff]
  exact eq_comm

theorem passes_ofLetter_iff {letter : Char} : (Token.ofLetter letter).Passes ↔ letter = 'v' := by
  rw [Token.ofLetter, passes_option_iff, ofLetter?_eq_some_iff]
  exact eq_comm

theorem passes_stands (h : Stands text tokens) : (∀ token ∈ tokens, token.Passes) ↔ IsAdmitted text := by
  cases h with
  | value hvalue =>
      refine iff_of_true ?_ (.inl hvalue)
      simp [Token.Passes]
  | long hlong =>
      rw [List.forall_mem_singleton, passes_ofName_iff]
      constructor
      · rintro rfl
        exact .inr (.inl hlong)
      · rintro (hvalue | hverbose | ⟨letters, hgroup, -⟩)
        · exact absurd hvalue hlong.not_isValue
        · exact hlong.unique hverbose
        · exact absurd hlong hgroup.not_isLong
  | group hgroup =>
      rw [List.forall_mem_map]
      simp only [passes_ofLetter_iff]
      constructor
      · intro hletters
        exact .inr (.inr ⟨_, hgroup, hletters⟩)
      · rintro (hvalue | hverbose | ⟨letters, hgroup', hletters⟩)
        · exact absurd hvalue hgroup.2.2
        · exact absurd hverbose hgroup.not_isLong
        · rwa [(List.cons.inj (hgroup.1.symm.trans hgroup'.1)).2]

theorem passes_reading (h : Reading arguments tokens) :
    (∀ token ∈ tokens, token.Passes) ↔ ∀ text ∈ front arguments, IsAdmitted text := by
  induction h with
  | nil => simp [front]
  | dashes => simp [front, Token.Passes]
  | cons hdashes hstands _ ih =>
      rw [List.forall_mem_append, passes_stands hstands, ih, front_cons hdashes, List.forall_mem_cons]

theorem text?_option {found suggestion : Option Flag} {shown : String} :
    (Token.option found shown suggestion).text? = none := by
  cases found <;> rfl

theorem valuesOf_append (tokens more : List Token) : valuesOf (tokens ++ more) = valuesOf tokens ++ valuesOf more :=
  List.filterMap_append

theorem valuesOf_map_value (rest : List String) : valuesOf (rest.map .value) = rest := by
  simp [valuesOf, Token.text?, Function.comp_def]

theorem valuesOf_stands (h : Stands text tokens) : valuesOf tokens = if IsValue text then [text] else [] := by
  cases h with
  | value hvalue =>
      rw [if_pos hvalue]
      rfl
  | long hlong =>
      rw [if_neg hlong.not_isValue]
      simp [valuesOf, Token.ofName, text?_option]
  | group hgroup =>
      rw [if_neg hgroup.2.2]
      simp [valuesOf, Token.ofLetter, text?_option]

/-- The values of a command line are known before its options are. -/
theorem valuesOf_reading (h : Reading arguments tokens) : valuesOf tokens = positionals arguments := by
  induction h with
  | nil => rfl
  | dashes => rw [positionals_dashes, valuesOf_map_value]
  | cons hdashes hstands _ ih => rw [valuesOf_append, valuesOf_stands hstands, ih, positionals_cons hdashes]

/-- No token ends the reading if none does by itself and there are two values at most. -/
theorem undecided_iff :
    Undecided tokens ↔ (∀ token ∈ tokens, token.Passes) ∧ (valuesOf tokens).length ≤ 2 := by
  induction tokens using List.reverseRecOn with
  | nil => exact iff_of_true undecided_nil (by simp [valuesOf])
  | append_singleton tokens token ih =>
      rw [undecided_append_singleton, ih, not_decides_iff, List.forall_mem_append, List.forall_mem_singleton,
        valuesOf_append, List.length_append]
      constructor
      · rintro ⟨⟨htokens, hplaces⟩, htoken, hroom⟩
        refine ⟨⟨htokens, htoken⟩, ?_⟩
        rcases htoken with rfl | ⟨text, rfl⟩
        · exact hplaces
        · exact hroom text rfl
      · rintro ⟨⟨htokens, htoken⟩, hplaces⟩
        refine ⟨⟨htokens, Nat.le_of_add_right_le hplaces⟩, htoken, ?_⟩
        rintro text rfl
        exact hplaces

end Words

/-- A command line is accepted if no token ends the reading and the verbose flag stands once at most. -/
theorem accepted_iff {arguments : List String} {tokens : List Token} (h : Reading arguments tokens) :
    Accepted arguments tokens ↔ Undecided tokens ∧ tokens.count (.flag .verbose) ≤ 1 := by
  rw [undecided_iff, passes_reading h, valuesOf_reading h]
  constructor
  · rintro ⟨hwords, honce, hplaces⟩
    exact ⟨⟨hwords, hplaces⟩, honce⟩
  · rintro ⟨⟨hwords, hplaces⟩, honce⟩
    exact ⟨hwords, honce, hplaces⟩

/-! ## Reading a command line -/

section Parse
variable {arguments : List String} {tokens : List Token}

theorem parse_endsBy {stop : Stop} (hreading : Reading arguments tokens) (h : EndsBy tokens stop) :
    Options.parse (arguments.map .ofString) = .error stop := by
  rw [Options.parse, scan_reading hreading, take_endsBy h]

theorem parse_undecided (hreading : Reading arguments tokens) (h : Undecided tokens) :
    Options.parse (arguments.map .ofString) =
      if 1 < tokens.count (.flag .verbose) then .error .repeatedVerbose else .ok (granted arguments tokens) := by
  rw [Options.parse, scan_reading hreading, take_undecided h]
  dsimp only [Seen.ofTokens]
  rw [valuesOf_reading hreading]
  simp only [List.getElem?_map, List.count_pos_iff, granted]

/-- The options of a command line of text are text, and only help, the version or a refusal ends it earlier. -/
theorem parse_text (arguments : List String) :
    match Options.parse (arguments.map .ofString) with
    | .error stop => stop ≠ .unreadable
    | .ok options => ∃ (outFile size : Option String) (verbose : Bool),
        options = { outFile := outFile.map .ofString, size := size.map .ofString, verbose } := by
  obtain ⟨tokens, hreading⟩ := exists_reading arguments
  rcases undecided_or_endsBy tokens with hundecided | ⟨stop, hends⟩
  · rw [parse_undecided hreading hundecided]
    split_ifs
    · exact nofun
    · exact ⟨_, _, _, rfl⟩
  · rw [parse_endsBy hreading hends]
    exact hends.ne_unreadable

end Parse

/-- How a command line is read. It has exactly one reading. If it is accepted, that gives the options; if not, the
leftmost token that ends the reading tells how, and without one the verbose flag was repeated. -/
theorem parse_settled (arguments : List String) :
    ∃ tokens, (∀ others, Reading arguments others ↔ others = tokens) ∧
      (∀ options, Options.parse (arguments.map .ofString) = .ok options ↔
        Accepted arguments tokens ∧ options = granted arguments tokens) ∧
      ∀ stop, Options.parse (arguments.map .ofString) = .error stop ↔
        EndsBy tokens stop ∨ Undecided tokens ∧ 2 ≤ tokens.count (.flag .verbose) ∧ stop = .repeatedVerbose := by
  obtain ⟨tokens, hreading⟩ := exists_reading arguments
  refine ⟨tokens, fun others => ⟨fun hothers => hothers.unique hreading, fun heq => heq ▸ hreading⟩, ?_⟩
  rw [accepted_iff hreading]
  rcases undecided_or_endsBy tokens with hundecided | ⟨stop, hends⟩
  · have hnone : ∀ stop, ¬ EndsBy tokens stop := fun stop hends => hends.not_undecided hundecided
    rw [parse_undecided hreading hundecided]
    by_cases hrepeated : 1 < tokens.count (.flag .verbose)
    · rw [if_pos hrepeated]
      refine ⟨fun options => iff_of_false nofun fun h => absurd h.1.2 (Nat.not_le_of_lt hrepeated), fun stop => ?_⟩
      simp [hnone, hundecided, Nat.succ_le_of_lt hrepeated, eq_comm]
    · rw [if_neg hrepeated]
      refine ⟨fun options => ?_, fun stop => iff_of_false nofun ?_⟩
      · simp [hundecided, Nat.le_of_not_lt hrepeated, eq_comm]
      · rintro (hends | ⟨-, htwice, -⟩)
        · exact hnone stop hends
        · exact hrepeated htwice
  · have hdecided := hends.not_undecided
    rw [parse_endsBy hreading hends]
    refine ⟨fun options => iff_of_false nofun fun h => hdecided h.1.1, fun other => ⟨?_, ?_⟩⟩
    · intro heq
      exact .inl (Except.error.inj heq ▸ hends)
    · rintro (hother | ⟨hundecided, -⟩)
      · exact (parse_endsBy hreading hends).symm.trans (parse_endsBy hreading hother)
      · exact absurd hundecided hdecided

example : Options.parse (["-1e3", "---verbose=no", "--", "-v"].map .ofString) =
    .ok { outFile := some (.ofString "-1e3"), size := some (.ofString "-v"), verbose := true } := by
  decide

end NoiseFile.CommandLine
