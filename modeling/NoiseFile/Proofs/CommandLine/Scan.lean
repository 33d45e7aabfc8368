import Mathlib.Data.List.Induction
import NoiseFile.Proofs.CommandLine.Grammar

/-!
# Scanning by the grammar

* `Seen.take`, `scan_reading` : to scan a command line is to take the tokens of its reading one after another;
* `Decides`, `EndsBy` : a token that ends the reading, and how tokens end it, by the leftmost of these;
* `take_undecided`, `take_endsBy` : what comes of taking tokens in either case.
-/

namespace NoiseFile.CommandLine

/-! ## Token by token -/

def Seen.take (seen : Seen) : Token → Except Stop Seen
  | .value text => seen.value (.ofString text)
  | .flag flag => seen.flag flag
  | .unknown shown suggestion => seen.unexpected shown suggestion

theorem letters_eq (letters : List Char) (seen : Seen) :
    seen.letters (letters.map some) = (letters.map Token.ofLetter).foldlM Seen.take seen := by
  induction letters generalizing seen with
  | nil => rfl
  | cons c cs ih =>
      rw [List.map_cons, List.map_cons, List.foldlM_cons, Seen.letters, Option.bind_some, Token.ofLetter]
      cases Flag.ofLetter? c with
      | some flag => exact bind_congr fun after => ih after
      | none => rfl

theorem long_eq (name : String) (seen : Seen) (rest : List String) :
    seen.long (name.toList.map some) (rest.map .ofString) = seen.take (.ofName name) := by
  have hname : (Argument.mk (name.toList.map some)).text? = some name := Argument.text?_ofString name
  have hlater : (rest.map Argument.ofString).all (fun argument => argument.text?.isSome) = true := by
    simp [Argument.text?_ofString]
  rw [Seen.long, hname, Token.ofName]
  dsimp only
  cases Flag.ofName? name with
  | some flag => rfl
  | none => exact if_pos hlater

theorem scanValues_eq (rest : List String) (seen : Seen) :
    scanValues seen (rest.map .ofString) = (rest.map Token.value).foldlM Seen.take seen := by
  induction rest generalizing seen with
  | nil => rfl
  | cons text rest ih => exact bind_congr fun after => ih after

section Words
variable {text name : String} (seen : Seen) (rest : List Argument)

theorem glyphs_ofString {cs : List Char} (h : text.toList = cs) : (Argument.ofString text).glyphs = cs.map some := by
  rw [← h]
  rfl

theorem scan_plain (h : text.toList.head? ≠ some '-') :
    scan seen (.ofString text :: rest) = seen.value (.ofString text) >>= fun after => scan after rest := by
  rw [scan]
  cases htext : text.toList with
  | nil =>
      rw [glyphs_ofString htext]
      rfl
  | cons c cs =>
      have hc : c ≠ '-' := by
        rintro rfl
        exact h (by rw [htext]; rfl)
      rw [glyphs_ofString htext]
      simp [hc]

/-- A word with one dash in front, and more than that, is a number or a group of letters. -/
theorem scan_dash {c : Char} {cs : List Char} (htext : text.toList = '-' :: c :: cs) (hc : c ≠ '-') :
    scan seen (.ofString text :: rest) =
      (if isNumber (.ofString text) then seen.value (.ofString text) else seen.letters ((c :: cs).map some)) >>=
        fun after => scan after rest := by
  rw [scan, glyphs_ofString htext]
  by_cases hnumber : isNumber (.ofString text) = true <;> simp [hc, hnumber]

theorem scan_value (h : IsValue text) :
    scan seen (.ofString text :: rest) = seen.value (.ofString text) >>= fun after => scan after rest := by
  by_cases hhead : text.toList.head? = some '-'
  · obtain ⟨letters, htext⟩ := List.head?_eq_some_iff.mp hhead
    cases letters with
    | nil =>
        rw [scan, glyphs_ofString htext]
        rfl
    | cons c cs =>
        have hc : c ≠ '-' := by
          rintro rfl
          exact not_isValue_of_dashes htext h
        have hnumber : isNumber (.ofString text) = true := by
          rcases (isValue_iff text).mp h with hplain | rfl | hnumber
          · exact absurd hhead hplain
          · simp at htext
          · exact hnumber
        rw [scan_dash seen rest htext hc, if_pos hnumber]
  · exact scan_plain seen rest hhead

theorem scan_long (hdashes : text ≠ "--") (h : IsLong text name) :
    scan seen (.ofString text :: rest) = seen.long (name.toList.map some) rest >>= fun after => scan after rest := by
  obtain ⟨cs, htext, hname⟩ := h.cut
  cases cs with
  | nil => exact absurd (String.toList_injective htext) hdashes
  | cons c cs =>
      have hcut : (((c :: cs).map some).dropWhile (· == some '-')).takeWhile (· != some '=') = name.toList.map some := by
        rw [← hname, List.dropWhile_map, List.takeWhile_map]
        rfl
      rw [scan, glyphs_ofString htext, ← hcut]
      rfl

theorem scan_group {letters : List Char} (h : IsGroup text letters) :
    scan seen (.ofString text :: rest) = seen.letters (letters.map some) >>= fun after => scan after rest := by
  obtain ⟨htext, hhead, hvalue⟩ := h
  obtain ⟨-, hdash, hnumber⟩ : _ ∧ text ≠ "-" ∧ ¬ isNumber (.ofString text) = true := by
    simpa only [isValue_iff, not_or] using hvalue
  cases letters with
  | nil => exact absurd (String.toList_injective htext) hdash
  | cons c cs => rw [scan_dash seen rest htext fun hc => hhead (by rw [hc]; rfl), if_neg hnumber]

end Words

theorem scan_stands {text : String} {tokens : List Token} (hdashes : text ≠ "--") (h : Stands text tokens)
    (seen : Seen) (rest : List String) :
    scan seen (.ofString text :: rest.map .ofString) =
      tokens.foldlM Seen.take seen >>= fun after => scan after (rest.map .ofString) := by
  cases h with
  | value hvalue =>
      rw [scan_value seen _ hvalue, List.foldlM_cons]
      simp only [List.foldlM_nil, bind_pure]
      rfl
  | long hlong =>
      rw [scan_long seen _ hdashes hlong, long_eq, List.foldlM_cons]
      simp only [List.foldlM_nil, bind_pure]
  | group hgroup => rw [scan_group seen _ hgroup, letters_eq]

theorem scan_reading {arguments : List String} {tokens : List Token} (h : Reading arguments tokens) (seen : Seen) :
    scan seen (arguments.map .ofString) = tokens.foldlM Seen.take seen := by
  induction h generalizing seen with
  | nil => rfl
  | dashes => exact scanValues_eq _ seen
  | cons hdashes hstands _ ih =>
      rw [List.map_cons, scan_stands hdashes hstands, List.foldlM_append]
      exact bind_congr fun after => ih after

/-! ## What decides -/

def Token.text? : Token → Option String
  | .value text => some text
  | _ => none

def valuesOf (tokens : List Token) : List String := tokens.filterMap Token.text?

/-- A token that ends the reading, those in front of it being given: it asks for help or the version, or is an option
that is no flag, or a value behind two others. -/
inductive Decides (before : List Token) : Token → Stop → Prop
  | help : Decides before (.flag .help) .help
  | version : Decides before (.flag .version) .version
  | unknown {shown : String} {suggestion : Option Flag} :
      Decides before (.unknown shown suggestion) (.unexpected shown suggestion (decide (.flag .verbose ∈ before)))
  | surplus {text : String} : 2 ≤ (valuesOf before).length →
      Decides before (.value text) (.unexpected text none (decide (.flag .verbose ∈ before)))

def Undecided (tokens : List Token) : Prop :=
  ∀ before token after stop, tokens = before ++ token :: after → ¬ Decides before token stop

/-- Tokens of which the leftmost that ends the reading ends it so. -/
def EndsBy (tokens : List Token) (stop : Stop) : Prop :=
  ∃ before token after, tokens = before ++ token :: after ∧ Undecided before ∧ Decides before token stop

/-- A token that does not end the reading by itself. -/
def Token.Passes (token : Token) : Prop := token = .flag .verbose ∨ ∃ text, token = .value text

section Tokens
variable {tokens : List Token} {token : Token} {stop : Stop}

/-- A token does not end the reading if it does not by itself and there is a place for it. -/
theorem not_decides_iff :
    (∀ stop, ¬ Decides tokens token stop) ↔
      token.Passes ∧ ∀ text, token = .value text → (valuesOf tokens).length < 2 := by
  constructor
  · intro h
    cases token with
    | value text =>
        refine ⟨.inr ⟨text, rfl⟩, fun _ _ => ?_⟩
        by_contra hfull
        exact h _ (.surplus (Nat.le_of_not_lt hfull))
    | flag flag =>
        cases flag with
        | help => exact absurd .help (h _)
        | version => exact absurd .version (h _)
        | verbose => exact ⟨.inl rfl, fun text heq => nomatch heq⟩
    | unknown shown suggestion => exact absurd .unknown (h _)
  · rintro ⟨hpasses, hroom⟩ stop hdecides
    cases hdecides with
    | help => simp [Token.Passes] at hpasses
    | version => simp [Token.Passes] at hpasses
    | unknown => simp [Token.Passes] at hpasses
    | surplus hfull => exact absurd hfull (Nat.not_le_of_lt (hroom _ rfl))

theorem undecided_nil : Undecided [] := fun _ _ _ _ heq => by simp at heq

theorem undecided_append_singleton :
    Undecided (tokens ++ [token]) ↔ Undecided tokens ∧ ∀ stop, ¬ Decides tokens token stop := by
  constructor
  · intro h
    refine ⟨fun before other after stop heq => h before other (after ++ [token]) stop ?_,
      fun stop => h tokens token [] stop rfl⟩
    rw [heq, List.append_assoc]
    rfl
  · rintro ⟨htokens, htoken⟩ before other after stop heq
    rcases List.eq_nil_or_concat after with rfl | ⟨more, last, rfl⟩
    · obtain ⟨rfl, hlast⟩ := List.append_inj' heq rfl
      obtain rfl := (List.cons.inj hlast).1
      exact htoken stop
    · rw [List.concat_eq_append, ← List.cons_append, ← List.append_assoc] at heq
      exact htokens before other more stop (List.append_inj' heq rfl).1

theorem EndsBy.not_undecided (h : EndsBy tokens stop) : ¬ Undecided tokens := by
  obtain ⟨before, token, after, heq, -, hdecides⟩ := h
  exact fun hundecided => hundecided before token after stop heq hdecides

/-- Tokens of text never end the reading for want of text. -/
theorem EndsBy.ne_unreadable (h : EndsBy tokens stop) : stop ≠ .unreadable := by
  obtain ⟨before, token, after, -, -, hdecides⟩ := h
  cases hdecides <;> exact nofun

theorem undecided_or_endsBy (tokens : List Token) : Undecided tokens ∨ ∃ stop, EndsBy tokens stop := by
  induction tokens using List.reverseRecOn with
  | nil => exact .inl undecided_nil
  | append_singleton tokens token ih =>
      rcases ih with hundecided | ⟨stop, before, other, after, heq, hends⟩
      · by_cases hstop : ∃ stop, Decides tokens token stop
        · obtain ⟨stop, hdecides⟩ := hstop
          exact .inr ⟨stop, tokens, token, [], rfl, hundecided, hdecides⟩
        · exact .inl (undecided_append_singleton.mpr ⟨hundecided, not_exists.mp hstop⟩)
      · refine .inr ⟨stop, before, other, after ++ [token], ?_, hends⟩
        rw [heq, List.append_assoc]
        rfl

/-- What has been read when tokens have been taken. -/
def Seen.ofTokens (tokens : List Token) : Seen :=
  { values := (valuesOf tokens).map .ofString, verbose := tokens.count (.flag .verbose) }

theorem length_values_ofTokens (tokens : List Token) :
    (Seen.ofTokens tokens).values.length = (valuesOf tokens).length :=
  List.length_map _

theorem unexpected_ofTokens (tokens : List Token) (shown : String) (suggestion : Option Flag) :
    (Seen.ofTokens tokens).unexpected shown suggestion =
      .error (.unexpected shown suggestion (decide (.flag .verbose ∈ tokens))) := by
  simp only [Seen.unexpected, Seen.ofTokens, List.count_pos_iff]

theorem take_of_decides (h : Decides tokens token stop) : (Seen.ofTokens tokens).take token = .error stop := by
  cases h with
  | help => rfl
  | version => rfl
  | unknown => exact unexpected_ofTokens ..
  | surplus hvalues =>
      have hfull : ¬ (Seen.ofTokens tokens).values.length < 2 := by
        rw [length_values_ofTokens]
        exact Nat.not_lt_of_le hvalues
      rw [Seen.take, Seen.value, if_neg hfull, Argument.shown_ofString]
      exact unexpected_ofTokens ..

theorem take_of_not_decides (h : ∀ stop, ¬ Decides tokens token stop) :
    (Seen.ofTokens tokens).take token = .ok (.ofTokens (tokens ++ [token])) := by
  obtain ⟨rfl | ⟨text, rfl⟩, hroom⟩ := not_decides_iff.mp h
  · simp [Seen.take, Seen.flag, Seen.ofTokens, valuesOf, Token.text?]
  · have hplace : (Seen.ofTokens tokens).values.length < 2 := by
      rw [length_values_ofTokens]
      exact hroom text rfl
    rw [Seen.take, Seen.value, if_pos hplace]
    simp [Seen.ofTokens, valuesOf, Token.text?]

theorem take_undecided (h : Undecided tokens) : tokens.foldlM Seen.take {} = .ok (.ofTokens tokens) := by
  induction tokens using List.reverseRecOn with
  | nil => rfl
  | append_singleton tokens token ih =>
      obtain ⟨htokens, htoken⟩ := undecided_append_singleton.mp h
      rw [List.foldlM_append, ih htokens]
      exact (bind_pure _).trans (take_of_not_decides htoken)

theorem take_endsBy (h : EndsBy tokens stop) : tokens.foldlM Seen.take {} = .error stop := by
  obtain ⟨before, token, after, rfl, hbefore, htoken⟩ := h
  rw [List.foldlM_append, take_undecided hbefore]
  show (List.foldlM Seen.take (.ofTokens before) (token :: after) : Except Stop Seen) = _
  rw [List.foldlM_cons, take_of_decides htoken]
  rfl

end Tokens

end NoiseFile.CommandLine
