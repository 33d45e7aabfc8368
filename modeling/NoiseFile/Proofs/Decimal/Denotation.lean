import Mathlib.Algebra.Order.Field.Power
import Mathlib.Algebra.Order.Ring.Abs
import NoiseFile.Proofs.Binary64.Nearest
import NoiseFile.Proofs.Decimal.Reading
import NoiseFile.Text.Blank

/-!
# What a text denotes

* `Shows` : a text shows a numeral, with blanks around it;
* `Denotes` : a text denotes a number if it shows a numeral of that value, whose written exponent is not enormous;
* `trimChars_shown` : trimming takes the blanks away and nothing else;
* `toBinary64_decimal` : the number read from a text is the one nearest to what was written.
-/

namespace NoiseFile

open Binary64

/-- A text that shows a numeral, blanks around it aside. -/
def Shows (text : String) (numeral : Numeral) : Prop :=
  ∃ before after, text.toList = before ++ (numeral.spelling ++ after) ∧
    (∀ c ∈ before, Text.isBlank c = true) ∧ ∀ c ∈ after, Text.isBlank c = true

def Denotes (text : String) (value : ℚ) : Prop :=
  ∃ numeral : Numeral, Shows text numeral ∧ numeral.power.natAbs < 65536 ∧ numeral.value = value

/-! ## Blanks -/

/-- A text in which no blank stands comes out of any blanks around it. -/
theorem trimChars_blanks {before body after : List Char} (hbefore : ∀ c ∈ before, Text.isBlank c = true)
    (hafter : ∀ c ∈ after, Text.isBlank c = true) (hbody : ∀ c ∈ body, Text.isBlank c = false) (hne : body ≠ []) :
    Text.trimChars (before ++ (body ++ after)) = body := by
  have hfront : ∀ c ∈ (body ++ after).head?, Text.isBlank c = false := by
    intro c hc
    rw [List.head?_append_of_ne_nil _ hne] at hc
    exact hbody c (List.mem_of_mem_head? hc)
  have hback : ∀ c ∈ body.reverse.head?, Text.isBlank c = false := fun c hc =>
    hbody c (List.mem_reverse.mp (List.mem_of_mem_head? hc))
  rw [Text.trimChars, dropWhile_stretch hbefore hfront, List.reverse_append,
    dropWhile_stretch (fun c hc => hafter c (List.mem_reverse.mp hc)) hback, List.reverse_reverse]

theorem isBlank_digitChar (digit : Fin 10) : Text.isBlank (Nat.digitChar digit.val) = false := by
  revert digit
  decide

theorem isBlank_digits {digits : List (Fin 10)} : ∀ c ∈ Digits.spelling digits, Text.isBlank c = false := by
  intro c hc
  obtain ⟨digit, -, rfl⟩ := List.mem_map.mp hc
  exact isBlank_digitChar digit

theorem isBlank_sign {sign : Sign} : ∀ c ∈ sign.spelling, Text.isBlank c = false := by
  cases sign with
  | none => exact List.forall_mem_nil _
  | plus => exact List.forall_mem_singleton.mpr (by decide)
  | minus => exact List.forall_mem_singleton.mpr (by decide)

theorem isBlank_numeral (numeral : Numeral) : ∀ c ∈ numeral.spelling, Text.isBlank c = false := by
  intro c hc
  simp only [Numeral.spelling, List.mem_append] at hc
  rcases hc with hsign | hwhole | hfraction | hexponent
  · exact isBlank_sign c hsign
  · exact isBlank_digits c hwhole
  · unfold Numeral.fractionSpelling at hfraction
    cases hdigits : numeral.fraction with
    | none => simp [hdigits] at hfraction
    | some digits =>
        rw [hdigits] at hfraction
        rcases List.mem_cons.mp hfraction with rfl | hdigit
        · decide
        · exact isBlank_digits c hdigit
  · unfold Numeral.exponentSpelling at hexponent
    cases hpower : numeral.exponent with
    | none => simp [hpower] at hexponent
    | some exponent =>
        rw [hpower] at hexponent
        simp only [Option.elim_some, Exponent.spelling, List.mem_cons, List.mem_append] at hexponent
        rcases hexponent with rfl | hsign | hdigit
        · cases exponent.capital <;> decide
        · exact isBlank_sign c hsign
        · exact isBlank_digits c hdigit

theorem trimChars_shown {text : String} {numeral : Numeral} (h : Shows text numeral) :
    Text.trimChars text.toList = numeral.spelling := by
  obtain ⟨before, after, htext, hbefore, hafter⟩ := h
  have hne : numeral.spelling ≠ [] := by
    obtain ⟨c, cs, hhead, -⟩ := numeral.head_unsigned
    rw [Numeral.spelling, hhead]
    simp
  rw [htext]
  exact trimChars_blanks hbefore hafter (isBlank_numeral numeral) hne

/-! ## Value -/

theorem toBinary64_decimal (negative : Bool) (digits : Nat) (scale : Int) :
    (Literal.decimal negative digits scale).toBinary64 =
      ofField negative (nearest (digits * 10 ^ scale * unitsPerOne)) := by
  cases scale with
  | ofNat scale =>
      rw [Literal.toBinary64, ofRatio, nearestField_eq_nearest Nat.one_pos, Int.ofNat_eq_natCast, zpow_natCast, Nat.pow_eq]
      push_cast
      rw [div_one]
  | negSucc scale =>
      have hpower : 0 < Nat.pow 10 (scale + 1) := Nat.pow_pos (by decide)
      rw [Literal.toBinary64, ofRatio, nearestField_eq_nearest hpower, zpow_negSucc, Nat.pow_eq]
      push_cast
      congr 2
      ring

theorem magnitude_nonneg (numeral : Numeral) :
    (0 : ℚ) ≤ Digits.value numeral.digits * 10 ^ (numeral.power - numeral.fractionDigits.length) :=
  mul_nonneg (Nat.cast_nonneg _) (zpow_nonneg (by norm_num) _)

theorem abs_value (numeral : Numeral) :
    |numeral.value| = Digits.value numeral.digits * 10 ^ (numeral.power - numeral.fractionDigits.length) := by
  rw [numeral.value_eq, mul_assoc, abs_mul, abs_of_nonneg (magnitude_nonneg numeral)]
  cases numeral.sign <;> simp [Sign.factor]

theorem value_nonpos {numeral : Numeral} (h : numeral.sign.isMinus = true) : numeral.value ≤ 0 := by
  have hsign : numeral.sign = .minus := of_decide_eq_true h
  rw [numeral.value_eq, hsign, mul_assoc]
  exact mul_nonpos_of_nonpos_of_nonneg (by norm_num [Sign.factor]) (magnitude_nonneg numeral)

theorem parse?_shown {text : String} {numeral : Numeral} (h : Shows text numeral) (hpower : numeral.power.natAbs < 65536) :
    ∃ literal, Literal.parse? (Text.trimChars text.toList) = some literal ∧
      literal.toBinary64 = ofField numeral.sign.isMinus (nearest (|numeral.value| * unitsPerOne)) := by
  rw [trimChars_shown h]
  refine ⟨_, numeral.parse?_spelling, ?_⟩
  rw [toBinary64_decimal, abs_value, Numeral.countedPower_eq hpower]

end NoiseFile
