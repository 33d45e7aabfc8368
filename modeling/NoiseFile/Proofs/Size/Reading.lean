import Mathlib.Algebra.Order.Field.Basic
import NoiseFile.Proofs.Decimal.Recognition
import NoiseFile.Proofs.Size.Denoted
import NoiseFile.Proofs.Size.RoundTrip

/-!
# What becomes of the text of a size

* `RoundsTo` : the number that a numeral is rounded to, the nearest one with the sign that is written; there is only one
  (`RoundsTo.eq`);
* `parseSize_keyword`, `parseSize_large`, `parseSize_rounded` : what becomes of a text by what it shows;
* `parseSize_settled` : so it is settled what becomes of any text.
-/

namespace NoiseFile

open Binary64

/-- A numeral and the number nearest to its value, with the sign that is written. -/
structure RoundsTo (numeral : Numeral) (size : Binary64) : Prop where
  isNearest : size.IsNearest numeral.value
  negative : size.negative = numeral.sign.isMinus

theorem RoundsTo.eq {numeral : Numeral} {size other : Binary64} (h : RoundsTo numeral size)
    (hother : RoundsTo numeral other) : size = other :=
  h.isNearest.eq hother.isNearest (h.negative.trans hother.negative.symm)

theorem value_eq_signed (numeral : Numeral) :
    numeral.value = if numeral.sign.isMinus then -|numeral.value| else |numeral.value| := by
  rw [abs_value, numeral.value_eq]
  cases numeral.sign <;> simp [Sign.factor, Sign.isMinus]

/-! ## Readings -/

section Reading
variable {text : String}

theorem parseSize_of_parse? {literal : Literal} (h : Literal.parse? (Text.trimChars text.toList) = some literal) :
    parseSize text = (checkSize literal.toBinary64).map fun _ => literal.toBinary64 := by
  simp only [parseSize, h]

/-- A text is refused as no number, or what is read is checked, and refused for nothing but its value. -/
theorem parseSize_cases (text : String) :
    Literal.parse? (Text.trimChars text.toList) = none ∧ parseSize text = .error .notANumber ∨
      ∃ literal, Literal.parse? (Text.trimChars text.toList) = some literal ∧
        (checkSize literal.toBinary64 = .ok () ∧ parseSize text = .ok literal.toBinary64 ∨
          parseSize text = .error .notFinite ∨ parseSize text = .error .negative) := by
  cases hparse : Literal.parse? (Text.trimChars text.toList) with
  | none => exact .inl ⟨rfl, by simp only [parseSize, hparse]⟩
  | some literal =>
      refine .inr ⟨literal, rfl, ?_⟩
      rw [parseSize_of_parse? hparse]
      cases hcheck : checkSize literal.toBinary64 with
      | ok => exact .inl ⟨rfl, rfl⟩
      | error fault =>
          right
          rcases checkSize_fault hcheck with rfl | rfl
          · exact .inl rfl
          · exact .inr rfl

theorem parseSize_notANumber_iff :
    parseSize text = .error .notANumber ↔ Literal.parse? (Text.trimChars text.toList) = none := by
  rcases parseSize_cases text with ⟨hnone, h⟩ | ⟨literal, hsome, ⟨-, h⟩ | h | h⟩
  · exact iff_of_true h hnone
  all_goals
    rw [h, hsome]
    exact iff_of_false (by rintro ⟨⟩) (by rintro ⟨⟩)

theorem exists_shows (hkeyword : ∀ keyword, ¬ShowsKeyword text keyword) (h : parseSize text ≠ .error .notANumber) :
    ∃ numeral, Shows text numeral := by
  by_contra hno
  exact h (parseSize_notANumber_iff.mpr ((parse?_eq_none_iff text).mpr ⟨hkeyword, not_exists.mp hno⟩))

theorem checkSize_of_parseSize {size : Binary64} (hsize : parseSize text = .ok size) : checkSize size = .ok () := by
  rcases parseSize_cases text with ⟨-, h⟩ | ⟨literal, -, ⟨hcheck, h⟩ | h | h⟩
  · cases h.symm.trans hsize
  · rwa [← Except.ok.inj (h.symm.trans hsize)]
  · cases h.symm.trans hsize
  · cases h.symm.trans hsize

theorem parseSize_ne_tooLarge : parseSize text ≠ .error .tooLarge := by
  intro hlarge
  rcases parseSize_cases text with ⟨-, h⟩ | ⟨literal, -, ⟨-, h⟩ | h | h⟩
  all_goals cases h.symm.trans hlarge

theorem parseSize_keyword {keyword : Keyword} (h : ShowsKeyword text keyword) : parseSize text = .error .notFinite := by
  obtain ⟨sign, cs, htrim, hspelled⟩ := (showsKeyword_iff text keyword).mp h
  have hparse : Literal.parse? (Text.trimChars text.toList) = some (keyword.literal sign.isMinus) := by
    rw [htrim, parse?_keyword hspelled]
  have hcheck : checkSize (keyword.literal sign.isMinus).toBinary64 = .error .notFinite := by
    cases keyword <;> cases sign <;> decide
  rw [parseSize_of_parse? hparse, hcheck]
  rfl

section Shown
variable {numeral : Numeral} (hshows : Shows text numeral) (hpower : numeral.power.natAbs < 65536)
include hshows hpower

/-- Halfway between the greatest number and the next power of two, numbers are infinite. -/
theorem parseSize_large (h : 2 ^ 1024 - 2 ^ 970 ≤ |numeral.value|) : parseSize text = .error .notFinite := by
  obtain ⟨literal, hparse, hliteral⟩ := parse?_shown hshows hpower
  have hlt : nearest (|numeral.value| * unitsPerOne) < signBit := nearestField_lt _ _
  have hinfinite : infinityField ≤ nearest (|numeral.value| * unitsPerOne) :=
    (infinityField_le_nearest_iff (abs_nonneg _)).mpr h
  have hcheck : checkSize literal.toBinary64 = .error .notFinite := by
    have hfinite : literal.toBinary64.isFinite = false := by
      rw [hliteral, isFinite, field_ofField hlt]
      exact decide_eq_false (Nat.not_lt.mpr hinfinite)
    rw [checkSize, hfinite]
    rfl
  rw [parseSize_of_parse? hparse, hcheck]
  rfl

/-- Every other numeral is rounded, and what it is rounded to is checked. -/
theorem exists_roundsTo (h : |numeral.value| < 2 ^ 1024 - 2 ^ 970) :
    ∃ size, RoundsTo numeral size ∧ size.field = nearest (|numeral.value| * unitsPerOne) ∧
      parseSize text = (checkSize size).map fun _ => size := by
  obtain ⟨literal, hparse, hliteral⟩ := parse?_shown hshows hpower
  have hlt : nearest (|numeral.value| * unitsPerOne) < signBit := nearestField_lt _ _
  have hfinite : nearest (|numeral.value| * unitsPerOne) < infinityField := by
    rwa [← not_le, infinityField_le_nearest_iff (abs_nonneg _), not_le]
  refine ⟨literal.toBinary64, ⟨?_, ?_⟩, ?_, parseSize_of_parse? hparse⟩
  · rw [hliteral]
    exact isNearest_ofField (value_eq_signed numeral) hfinite
  · rw [hliteral, negative_ofField hlt]
  · rw [hliteral, field_ofField hlt]

theorem parseSize_rounded {size : Binary64} (hrounds : RoundsTo numeral size) (h : |numeral.value| < 2 ^ 1024 - 2 ^ 970) :
    parseSize text = if size.value < 0 then .error .negative else .ok size := by
  obtain ⟨rounded, hrounded, -, hparse⟩ := exists_roundsTo hshows hpower h
  obtain rfl := hrounds.eq hrounded
  obtain ⟨haccepted, -, hnegative⟩ := checkSize_cases size
  rw [hparse]
  split
  next hbelow =>
    rw [hnegative.mpr ⟨hrounds.isNearest.isFinite, (value_neg_iff size).mp hbelow⟩]
    rfl
  next habove =>
    rw [haccepted.mpr ⟨hrounds.isNearest.isFinite, (value_nonneg_iff size).mp (not_lt.mp habove)⟩]
    rfl

omit hshows hpower in
theorem small_of_tiny (h : |numeral.value| ≤ 1 / 2 ^ 1075) : |numeral.value| < 2 ^ 1024 - 2 ^ 970 := by
  have hone : |numeral.value| ≤ 1 := h.trans (div_le_one_of_le₀ (one_le_pow₀ (by norm_num)) (by positivity))
  have hlarge : (1 : ℚ) ≤ 2 ^ 970 := one_le_pow₀ (by norm_num)
  have hsplit : (2 : ℚ) ^ 1024 = 2 ^ 970 * 2 ^ 54 := by rw [← pow_add]
  rw [hsplit]
  generalize (2 : ℚ) ^ 970 = large at hlarge ⊢
  linarith only [hone, hlarge]

/-- Up to half of the smallest number there is a zero, with the sign that is written. -/
theorem parseSize_tiny (hminus : numeral.sign = .minus) (h : |numeral.value| ≤ 1 / 2 ^ 1075) :
    parseSize text = .ok ⟨0x8000000000000000⟩ := by
  obtain ⟨size, hrounds, hfield, hparse⟩ := exists_roundsTo hshows hpower (small_of_tiny h)
  have hunits : 2 * (|numeral.value| * unitsPerOne) ≤ 1 := by
    have hone : (unitsPerOne : ℚ) * 2 = 2 ^ 1075 := by
      rw [unitsPerOne_eq, Nat.cast_pow, Nat.cast_ofNat, ← pow_succ]
    rw [mul_comm, mul_assoc, hone]
    exact (le_div_iff₀ (by positivity)).mp h
  have hword : size = ⟨0x8000000000000000⟩ := by
    rw [← ofField_eta size, hfield, nearest_eq_zero (mul_nonneg (abs_nonneg _) unitsPerOne_pos'.le) hunits,
      hrounds.negative, hminus]
    rfl
  rw [hparse, hword]
  rfl

end Shown

end Reading

/-- What becomes of a text. It is refused as no number if and only if it shows neither a keyword nor a numeral. If no
exponent in it is enormous, it is refused as not finite if and only if it shows a keyword, or a numeral that is too large;
and any other numeral is rounded to the nearest number, which is refused if and only if it is below zero. So a numeral
behind a minus that is too small becomes the negative zero. -/
theorem parseSize_settled (text : String) :
    (parseSize text = .error .notANumber ↔ (∀ keyword, ¬ShowsKeyword text keyword) ∧ ∀ numeral, ¬Shows text numeral) ∧
      ((∀ numeral, Shows text numeral → numeral.power.natAbs < 65536) →
        (parseSize text = .error .notFinite ↔
          (∃ keyword, ShowsKeyword text keyword) ∨ ∃ numeral, Shows text numeral ∧ 2 ^ 1024 - 2 ^ 970 ≤ |numeral.value|) ∧
        ∀ numeral, Shows text numeral → |numeral.value| < 2 ^ 1024 - 2 ^ 970 →
          (∃! size, RoundsTo numeral size) ∧
          (∀ size, RoundsTo numeral size → parseSize text = if size.value < 0 then .error .negative else .ok size) ∧
          (numeral.sign = .minus → |numeral.value| ≤ 1 / 2 ^ 1075 → parseSize text = .ok ⟨0x8000000000000000⟩)) := by
  have hnone : parseSize text = .error .notANumber ↔
      (∀ keyword, ¬ShowsKeyword text keyword) ∧ ∀ numeral, ¬Shows text numeral :=
    parseSize_notANumber_iff.trans (parse?_eq_none_iff text)
  refine ⟨hnone, fun hpower => ⟨⟨fun hrefused => ?_, ?_⟩, fun numeral hshows hsmall => ⟨?_, fun size hrounds => ?_, ?_⟩⟩⟩
  · by_contra hno
    rw [not_or, not_exists, not_exists] at hno
    obtain ⟨hkeyword, hlarge⟩ := hno
    obtain ⟨numeral, hshows⟩ := exists_shows hkeyword (by rw [hrefused]; rintro ⟨⟩)
    have hsmall := not_le.mp fun hle => hlarge numeral ⟨hshows, hle⟩
    obtain ⟨size, hrounds, -⟩ := exists_roundsTo hshows (hpower numeral hshows) hsmall
    rw [parseSize_rounded hshows (hpower numeral hshows) hrounds hsmall] at hrefused
    split at hrefused <;> cases hrefused
  · rintro (⟨keyword, hkeyword⟩ | ⟨numeral, hshows, hlarge⟩)
    · exact parseSize_keyword hkeyword
    · exact parseSize_large hshows (hpower numeral hshows) hlarge
  · obtain ⟨size, hrounds, -⟩ := exists_roundsTo hshows (hpower numeral hshows) hsmall
    exact ⟨size, hrounds, fun other hother => hother.eq hrounds⟩
  · exact parseSize_rounded hshows (hpower numeral hshows) hrounds hsmall
  · exact parseSize_tiny hshows (hpower numeral hshows)

/-- A number just below zero that is written with an exponent. -/
theorem parseSize_settled_below_zero :
    ∃ numeral, Shows "-1e-400\n" numeral ∧ numeral.value = -1 / 10 ^ 400 ∧ (∃! size, RoundsTo numeral size) ∧
      parseSize "-1e-400\n" = .ok ⟨0x8000000000000000⟩ := by
  let numeral : Numeral := {
    sign := .minus
    whole := [1]
    fraction := none
    exponent := some { capital := false, sign := .minus, digits := [4, 0, 0], digits_ne_nil := by decide }
    digits_ne_nil := by decide }
  have hshows : Shows "-1e-400\n" numeral :=
    ⟨[], ['\n'], by decide, List.forall_mem_nil _, List.forall_mem_singleton.mpr (by decide)⟩
  have hpower : ∀ other, Shows "-1e-400\n" other → other.power.natAbs < 65536 := by
    intro other hother
    rw [hother.eq hshows]
    decide
  have hvalue : numeral.value = -1 / 10 ^ 400 := by
    have hone : Digits.value numeral.digits = 1 := rfl
    have hminus : numeral.sign.factor = -1 := rfl
    have hexponent : numeral.power - numeral.fractionDigits.length = -(400 : Nat) := rfl
    rw [numeral.value_eq, hone, hminus, hexponent, zpow_neg, zpow_natCast, div_eq_mul_inv]
    norm_num
  have htiny : |numeral.value| ≤ 1 / 2 ^ 1075 := by
    have hpowers : (2 : ℚ) ^ 1075 ≤ 10 ^ 400 :=
      calc (2 : ℚ) ^ 1075 ≤ 2 ^ (3 * 400) := pow_le_pow_right₀ (by norm_num) (by norm_num)
        _ = (2 ^ 3) ^ 400 := pow_mul ..
        _ ≤ 10 ^ 400 := pow_le_pow_left₀ (by norm_num) (by norm_num) _
    rw [hvalue, neg_div, abs_neg, abs_of_pos (by positivity)]
    exact one_div_le_one_div_of_le (by positivity) hpowers
  obtain ⟨-, hsettled⟩ := parseSize_settled "-1e-400\n"
  obtain ⟨hunique, -, hzero⟩ := (hsettled hpower).2 numeral hshows (small_of_tiny htiny)
  exact ⟨numeral, hshows, hvalue, hunique, hzero rfl htiny⟩

end NoiseFile
