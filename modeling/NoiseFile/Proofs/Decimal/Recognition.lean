import Mathlib.Data.List.Forall2
import NoiseFile.Proofs.Decimal.Denotation

/-!
# What can be read at all

* `Keyword` : the words that stand for an infinity or for no number, each letter small or capital;
* `parse?_keyword`, `exists_of_parse?` : what can be read is a keyword behind a sign or the text of a numeral, and nothing
  else is;
* `shows_iff`, `showsKeyword_iff` : the same about what trimming leaves of a text;
* `Numeral.spelling_injective` : a numeral is known by its text, so a text shows one at most (`Shows.eq`).
-/

namespace NoiseFile

/-! ## Keywords -/

inductive Keyword
  | inf
  | infinity
  | nan
  deriving DecidableEq

namespace Keyword

def letters : Keyword → List Char
  | .inf => ['i', 'n', 'f']
  | .infinity => ['i', 'n', 'f', 'i', 'n', 'i', 't', 'y']
  | .nan => ['n', 'a', 'n']

/-- Characters that spell a keyword in letters of either case. -/
def IsSpelledBy (keyword : Keyword) (cs : List Char) : Prop :=
  List.Forall₂ (fun c letter => c = letter ∨ c = letter.toUpper) cs keyword.letters

def literal (keyword : Keyword) (negative : Bool) : Literal :=
  if keyword = .nan then .nan else .infinity negative

end Keyword

/-- A text that shows a keyword behind a sign or none, blanks around it aside. -/
def ShowsKeyword (text : String) (keyword : Keyword) : Prop :=
  ∃ before after, ∃ (sign : Sign) (cs : List Char), text.toList = before ++ (sign.spelling ++ cs ++ after) ∧
    keyword.IsSpelledBy cs ∧ (∀ c ∈ before, Text.isBlank c = true) ∧ ∀ c ∈ after, Text.isBlank c = true

/-! ## Letters -/

theorem eq_or_eq_toUpper_toLower (c : Char) : c = c.toLower ∨ c = c.toLower.toUpper := by
  by_cases hupper : 'A'.val ≤ c.val ∧ c.val ≤ 'Z'.val
  · right
    have hlow : 65 ≤ c.toNat := hupper.1
    have hhigh : c.toNat ≤ 90 := hupper.2
    have hcapital : ∀ n ≤ 90, 65 ≤ n → Char.ofNat n = (Char.ofNat n).toLower.toUpper := by decide
    have hc := hcapital c.toNat hhigh hlow
    rwa [Char.ofNat_toNat] at hc
  · left
    unfold Char.toLower
    rw [dif_neg hupper]

namespace Keyword

theorem toLower_letter {keyword : Keyword} {letter : Char} (h : letter ∈ keyword.letters) :
    letter.toLower = letter ∧ letter.toUpper.toLower = letter := by
  have hall : keyword.letters.all fun letter => letter.toLower = letter ∧ letter.toUpper.toLower = letter := by
    cases keyword <;> decide
  exact of_decide_eq_true (List.all_eq_true.mp hall letter h)

theorem isSpelledBy_iff (keyword : Keyword) (cs : List Char) :
    keyword.IsSpelledBy cs ↔ cs.map Char.toLower = keyword.letters := by
  have hletters : ∀ letter ∈ keyword.letters, letter.toLower = letter ∧ letter.toUpper.toLower = letter := fun _ =>
    toLower_letter
  unfold IsSpelledBy
  generalize keyword.letters = letters at hletters
  induction cs generalizing letters with
  | nil => simp [eq_comm]
  | cons c cs ih =>
      cases letters with
      | nil => simp
      | cons letter letters =>
          obtain ⟨⟨hsmall, hcapital⟩, hrest⟩ := List.forall_mem_cons.mp hletters
          rw [List.forall₂_cons, List.map_cons, List.cons_eq_cons]
          refine and_congr ⟨?_, ?_⟩ (ih letters hrest)
          · rintro (rfl | rfl)
            · exact hsmall
            · exact hcapital
          · rintro rfl
            exact eq_or_eq_toUpper_toLower c

end Keyword

/-! ## Reading backwards -/

theorem exists_splitSign (cs : List Char) :
    ∃ (sign : Sign) (rest : List Char), cs = sign.spelling ++ rest ∧ Literal.splitSign cs = (sign.isMinus, rest) := by
  unfold Literal.splitSign
  split
  · exact ⟨.minus, _, rfl, rfl⟩
  · exact ⟨.plus, _, rfl, rfl⟩
  · exact ⟨.none, _, rfl, rfl⟩

theorem exists_digits (cs : List Char) :
    ∃ (digits : List (Fin 10)) (rest : List Char), cs = Digits.spelling digits ++ rest ∧
      cs.takeWhile Char.isDigit = Digits.spelling digits ∧ cs.dropWhile Char.isDigit = rest := by
  obtain ⟨stretch, rest, rfl, hstretch, hrest⟩ := exists_stretch Char.isDigit cs
  obtain ⟨digits, rfl⟩ := Digits.exists_spelling hstretch
  exact ⟨digits, rest, rfl, takeWhile_stretch hstretch hrest, dropWhile_stretch hstretch hrest⟩

theorem exists_splitFraction (cs : List Char) :
    ∃ (fraction : Option (List (Fin 10))) (rest : List Char),
      cs = (fraction.elim [] fun digits => '.' :: Digits.spelling digits) ++ rest ∧
      Literal.splitFraction cs = (Digits.spelling (fraction.getD []), rest) := by
  unfold Literal.splitFraction
  split
  · next cs =>
    obtain ⟨digits, rest, hcs, htake, hdrop⟩ := exists_digits cs
    exact ⟨some digits, rest, congrArg _ hcs, by rw [htake, hdrop]; rfl⟩
  · exact ⟨none, _, rfl, rfl⟩

theorem exists_exponent {cs : List Char} {e : Int} (h : Literal.exponent? cs = some e) :
    ∃ exponent : Option Exponent, cs = exponent.elim [] Exponent.spelling := by
  cases cs with
  | nil => exact ⟨none, rfl⟩
  | cons c cs =>
      obtain ⟨sign, rest, hcs, hsplit⟩ := exists_splitSign cs
      rw [Literal.exponent?, hsplit] at h
      dsimp only at h
      split at h
      next hparts =>
        obtain ⟨hletter, hne, hdigit⟩ := hparts
        obtain ⟨digits, rfl⟩ := Digits.exists_spelling (List.all_eq_true.mp hdigit)
        have hdigits : digits ≠ [] := fun hnil => hne ((Digits.spelling_eq_nil_iff digits).mpr hnil)
        have hcapital : c = if decide (c = 'E') then 'E' else 'e' := by
          rcases eq_or_eq_toUpper_toLower c with heq | heq
          · rw [heq, hletter]
            rfl
          · rw [heq, hletter]
            rfl
        refine ⟨some { capital := decide (c = 'E'), sign, digits, digits_ne_nil := hdigits }, ?_⟩
        rw [hcs, Option.elim_some, Exponent.spelling, ← hcapital]
      next => cases h

theorem exists_numeral_of_decimal? {negative : Bool} {cs : List Char} {literal : Literal}
    (h : Literal.decimal? negative cs = some literal) (sign : Sign) :
    ∃ numeral : Numeral, sign.spelling ++ cs = numeral.spelling := by
  obtain ⟨whole, rest, hcs, htake, hdrop⟩ := exists_digits cs
  obtain ⟨fraction, tail, hrest, hsplit⟩ := exists_splitFraction rest
  rw [Literal.decimal?, htake, hdrop, hsplit] at h
  dsimp only at h
  split at h
  · cases h
  next hne =>
  obtain ⟨e, hexponent, -⟩ := Option.map_eq_some_iff.mp h
  obtain ⟨exponent, htail⟩ := exists_exponent hexponent
  have hdigits : whole ++ fraction.getD [] ≠ [] := by
    rwa [← Digits.spelling_append, Digits.spelling_eq_nil_iff] at hne
  exact ⟨{ sign, whole, fraction, exponent, digits_ne_nil := hdigits }, by rw [hcs, hrest, htail]; rfl⟩

theorem exists_of_parse? {cs : List Char} {literal : Literal} (h : Literal.parse? cs = some literal) :
    (∃ (sign : Sign) (letters : List Char) (keyword : Keyword), cs = sign.spelling ++ letters ∧
      keyword.IsSpelledBy letters) ∨ ∃ numeral : Numeral, cs = numeral.spelling := by
  obtain ⟨sign, rest, rfl, hsplit⟩ := exists_splitSign cs
  rw [Literal.parse?, hsplit] at h
  dsimp only at h
  simp only [Keyword.isSpelledBy_iff]
  split at h
  next hword =>
    left
    rcases hword with hinf | hinfinity
    · exact ⟨sign, rest, .inf, rfl, hinf⟩
    · exact ⟨sign, rest, .infinity, rfl, hinfinity⟩
  next =>
  split at h
  next hnan => exact .inl ⟨sign, rest, .nan, rfl, hnan⟩
  next => exact .inr (exists_numeral_of_decimal? h sign)

theorem parse?_keyword {keyword : Keyword} {letters : List Char} (h : keyword.IsSpelledBy letters) (sign : Sign) :
    Literal.parse? (sign.spelling ++ letters) = some (keyword.literal sign.isMinus) := by
  rw [Keyword.isSpelledBy_iff] at h
  have hsign : Literal.splitSign (sign.spelling ++ letters) = (sign.isMinus, letters) := by
    apply splitSign_spelling
    intro c hc
    have hletter : c.toLower ∈ keyword.letters := h ▸ List.mem_map_of_mem (List.mem_of_mem_head? hc)
    constructor
    all_goals
      rintro rfl
      revert hletter
      cases keyword <;> decide
  rw [Literal.parse?, hsign]
  dsimp only
  rw [h]
  cases keyword <;> rfl

/-! ## Trimming -/

theorem exists_dropWhile (p : Char → Bool) (cs : List Char) :
    ∃ dropped, cs = dropped ++ cs.dropWhile p ∧ ∀ c ∈ dropped, p c = true := by
  obtain ⟨stretch, rest, rfl, hstretch, hrest⟩ := exists_stretch p cs
  exact ⟨stretch, by rw [dropWhile_stretch hstretch hrest], hstretch⟩

theorem exists_trimChars (cs : List Char) :
    ∃ before after, cs = before ++ (Text.trimChars cs ++ after) ∧ (∀ c ∈ before, Text.isBlank c = true) ∧
      ∀ c ∈ after, Text.isBlank c = true := by
  obtain ⟨before, hbefore, hblank⟩ := exists_dropWhile Text.isBlank cs
  obtain ⟨after, hafter, hblank'⟩ := exists_dropWhile Text.isBlank (cs.dropWhile Text.isBlank).reverse
  refine ⟨before, after.reverse, ?_, hblank, fun c hc => hblank' c (List.mem_reverse.mp hc)⟩
  rw [Text.trimChars, ← List.reverse_append, ← hafter, List.reverse_reverse, ← hbefore]

theorem shows_iff (text : String) (numeral : Numeral) :
    Shows text numeral ↔ Text.trimChars text.toList = numeral.spelling := by
  refine ⟨trimChars_shown, fun h => ?_⟩
  obtain ⟨before, after, htext, hbefore, hafter⟩ := exists_trimChars text.toList
  exact ⟨before, after, h ▸ htext, hbefore, hafter⟩

theorem Keyword.IsSpelledBy.isBlank {keyword : Keyword} {cs : List Char} (h : keyword.IsSpelledBy cs) :
    ∀ c ∈ cs, Text.isBlank c = false := by
  intro c hc
  rw [isSpelledBy_iff] at h
  have hletter : c.toLower ∈ keyword.letters := h ▸ List.mem_map_of_mem hc
  have hall : keyword.letters.all fun letter => Text.isBlank letter = false ∧ Text.isBlank letter.toUpper = false := by
    cases keyword <;> decide
  obtain ⟨hlower, hupper⟩ := of_decide_eq_true (List.all_eq_true.mp hall _ hletter)
  rcases eq_or_eq_toUpper_toLower c with heq | heq
  · rwa [heq]
  · rwa [heq]

theorem showsKeyword_iff (text : String) (keyword : Keyword) :
    ShowsKeyword text keyword ↔ ∃ (sign : Sign) (cs : List Char), Text.trimChars text.toList = sign.spelling ++ cs ∧
      keyword.IsSpelledBy cs := by
  constructor
  · rintro ⟨before, after, sign, cs, htext, hspelled, hbefore, hafter⟩
    refine ⟨sign, cs, ?_, hspelled⟩
    have hne : sign.spelling ++ cs ≠ [] := by
      rintro hnil
      rw [Keyword.isSpelledBy_iff, (List.append_eq_nil_iff.mp hnil).2] at hspelled
      revert hspelled
      cases keyword <;> decide
    rw [htext]
    exact trimChars_blanks hbefore hafter (List.forall_mem_append.mpr ⟨isBlank_sign, hspelled.isBlank⟩) hne
  · rintro ⟨sign, cs, htrim, hspelled⟩
    obtain ⟨before, after, htext, hbefore, hafter⟩ := exists_trimChars text.toList
    exact ⟨before, after, sign, cs, htrim ▸ htext, hspelled, hbefore, hafter⟩

/-! ## One numeral at most -/

theorem Digits.spelling_injective : Function.Injective Digits.spelling := by
  have hdigit : ∀ digit other : Fin 10, Nat.digitChar digit.val = Nat.digitChar other.val → digit = other := by decide
  exact List.map_injective_iff.mpr fun digit other => hdigit digit other

/-- A sign and what follows it can be told from each other. -/
theorem eq_of_signed {sign other : Sign} {rest more : List Char} (h : sign.spelling ++ rest = other.spelling ++ more)
    (hrest : ∀ c ∈ rest.head?, c ≠ '-' ∧ c ≠ '+') (hmore : ∀ c ∈ more.head?, c ≠ '-' ∧ c ≠ '+') :
    sign = other ∧ rest = more := by
  have hsplit := congrArg Literal.splitSign h
  rw [splitSign_spelling sign hrest, splitSign_spelling other hmore] at hsplit
  obtain rfl := congrArg Prod.snd hsplit
  refine ⟨?_, rfl⟩
  have hspelling := List.append_cancel_right h
  revert hspelling
  cases sign <;> cases other <;> decide

theorem Exponent.spelling_injective : Function.Injective Exponent.spelling := by
  rintro ⟨capital, sign, digits, hdigits⟩ ⟨capital', sign', digits', hdigits'⟩ h
  obtain ⟨hletter, hrest⟩ := List.cons_eq_cons.mp h
  obtain ⟨rfl, hspelling⟩ := eq_of_signed hrest (ne_sign_digits digits) (ne_sign_digits digits')
  obtain rfl := Digits.spelling_injective hspelling
  have hletters : ∀ one other : Bool, (if one then 'E' else 'e') = (if other then 'E' else 'e') → one = other := by decide
  obtain rfl := hletters capital capital' hletter
  rfl

/-- A part that may be left out, and is known by its text otherwise, is known by its text. -/
theorem elim_injective {α : Type} {spelling : α → List Char} (h : Function.Injective spelling)
    (hne : ∀ part, spelling part ≠ []) : Function.Injective fun part : Option α => part.elim [] spelling := by
  rintro (_ | part) (_ | other) heq
  · rfl
  · exact absurd heq.symm (hne other)
  · exact absurd heq (hne part)
  · exact congrArg some (h heq)

theorem Numeral.spelling_injective : Function.Injective Numeral.spelling := by
  intro numeral other h
  obtain ⟨hsign, hrest⟩ := eq_of_signed h numeral.ne_sign_unsigned other.ne_sign_unsigned
  have hends := numeral.endsDigits_fractionSpelling
  have hends' := other.endsDigits_fractionSpelling
  have hwhole := congrArg (List.takeWhile Char.isDigit) hrest
  have htail := congrArg (List.dropWhile Char.isDigit) hrest
  rw [takeWhile_digits _ hends, takeWhile_digits _ hends'] at hwhole
  rw [dropWhile_digits _ hends, dropWhile_digits _ hends'] at htail
  have hsplit := congrArg Literal.splitFraction htail
  rw [splitFraction_spelling, splitFraction_spelling] at hsplit
  have hexponent : numeral.exponentSpelling = other.exponentSpelling := congrArg Prod.snd hsplit
  have hfraction : numeral.fractionSpelling = other.fractionSpelling := by
    rw [hexponent] at htail
    exact List.append_cancel_right htail
  have hpoint : Function.Injective fun digits => '.' :: Digits.spelling digits :=
    List.cons_injective.comp Digits.spelling_injective
  obtain ⟨sign, whole, fraction, exponent, hdigits⟩ := numeral
  obtain ⟨sign', whole', fraction', exponent', hdigits'⟩ := other
  obtain rfl : sign = sign' := hsign
  obtain rfl : whole = whole' := Digits.spelling_injective hwhole
  obtain rfl : fraction = fraction' := elim_injective hpoint (fun _ => List.cons_ne_nil _ _) hfraction
  obtain rfl : exponent = exponent' := elim_injective Exponent.spelling_injective (fun _ => List.cons_ne_nil _ _) hexponent
  rfl

theorem Shows.eq {text : String} {numeral other : Numeral} (h : Shows text numeral) (hother : Shows text other) :
    numeral = other :=
  Numeral.spelling_injective ((trimChars_shown h).symm.trans (trimChars_shown hother))

/-! ## Texts -/

/-- A text can be read if and only if it shows a keyword or a numeral. -/
theorem parse?_eq_none_iff (text : String) :
    Literal.parse? (Text.trimChars text.toList) = none ↔
      (∀ keyword, ¬ShowsKeyword text keyword) ∧ ∀ numeral, ¬Shows text numeral := by
  constructor
  · intro hnone
    constructor
    · intro keyword hshows
      obtain ⟨sign, cs, htrim, hspelled⟩ := (showsKeyword_iff text keyword).mp hshows
      rw [htrim, parse?_keyword hspelled] at hnone
      cases hnone
    · intro numeral hshows
      rw [trimChars_shown hshows, numeral.parse?_spelling] at hnone
      cases hnone
  · rintro ⟨hkeyword, hnumeral⟩
    by_contra hsome
    obtain ⟨literal, hparse⟩ := Option.ne_none_iff_exists'.mp hsome
    rcases exists_of_parse? hparse with ⟨sign, cs, keyword, htrim, hspelled⟩ | ⟨numeral, htrim⟩
    · exact hkeyword keyword ((showsKeyword_iff text keyword).mpr ⟨sign, cs, htrim, hspelled⟩)
    · exact hnumeral numeral ((shows_iff text numeral).mpr htrim)

end NoiseFile
