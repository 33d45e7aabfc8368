import Mathlib.Algebra.Order.Field.Power
import Mathlib.Algebra.Order.Ring.Abs
import NoiseFile.Proofs.Binary64.Nearest

/-!
# The numbers that words stand for

* `value` : the number that a word stands for, by its sign, its exponent and its fraction; `value_eq` : the same in units;
* `IsNearest` : a finite number than which none is nearer to an amount, with an even fraction if another one is as near.
  Signs aside there is one for each amount (`IsNearest.eq`), and it is the one that rounding gives
  (`isNearest_ofField`);
* `isNearest_mul` : so a product is the exact one, rounded.
-/

namespace NoiseFile

open Binary64

/-! ## Units -/

theorem unitsPerOne_eq : unitsPerOne = 2 ^ 1074 := by decide +kernel

theorem unitsPerOne_pos : 0 < unitsPerOne := by
  rw [unitsPerOne_eq]
  positivity

theorem unitsPerOne_pos' : (0 : ℚ) < unitsPerOne := by exact_mod_cast unitsPerOne_pos

namespace Binary64

/-! ## Values -/

/-- The exponent of a word. It is counted from `-1023` on. -/
def exponent (x : Binary64) : Nat := x.field / leadingOne

/-- The fraction of a word, in steps of `2⁻⁵²`. -/
def fraction (x : Binary64) : Nat := x.field % leadingOne

/-- The magnitude that a finite word stands for. Where the exponent is zero, there is no leading one. -/
def magnitude (x : Binary64) : ℚ :=
  if x.exponent = 0 then x.fraction / 2 ^ 52 * (2 : ℚ) ^ (-1022 : ℤ)
  else (1 + x.fraction / 2 ^ 52) * (2 : ℚ) ^ (x.exponent - 1023 : ℤ)

def value (x : Binary64) : ℚ := if x.negative then -x.magnitude else x.magnitude

/-- The leading one is even, so a word is as even as its fraction. -/
theorem fraction_mod_two (x : Binary64) : x.fraction % 2 = x.field % 2 :=
  Nat.mod_mod_of_dvd x.field ⟨2 ^ 51, rfl⟩

theorem magnitude_eq (x : Binary64) : x.magnitude = x.units / unitsPerOne := by
  have htwo : (2 : ℚ) ≠ 0 := by norm_num
  have hone : (unitsPerOne : ℚ) = 2 ^ (1074 : ℤ) := by
    rw [unitsPerOne_eq, Nat.cast_pow, Nat.cast_ofNat]
    rfl
  have hfifty : (2 : ℚ) ^ 52 = 2 ^ (52 : ℤ) := rfl
  rw [magnitude, hone, hfifty, units, unitsOf, exponent, fraction]
  by_cases hlow : x.field < leadingOne
  · rw [if_pos hlow, if_pos (Nat.div_eq_of_lt hlow), Nat.mod_eq_of_lt hlow, div_mul_eq_mul_div, mul_div_assoc,
      ← zpow_sub₀ htwo, div_eq_mul_inv, ← zpow_neg]
    rfl
  · have hpos : 0 < x.field / leadingOne := Nat.div_pos (Nat.le_of_not_lt hlow) (by decide)
    obtain ⟨k, hk⟩ := Nat.exists_eq_succ_of_ne_zero hpos.ne'
    have hexponent : ((k.succ : ℕ) - 1023 : ℤ) = k + 52 - 1074 := by
      push_cast
      ring
    rw [if_neg hlow, if_neg hpos.ne', hk, hexponent, zpow_sub₀ htwo, zpow_add₀ htwo, zpow_natCast, ← hfifty,
      Nat.succ_sub_one, Nat.pow_eq, Nat.cast_mul, Nat.cast_add, Nat.cast_pow, Nat.cast_ofNat, leadingOne_eq, Nat.cast_pow, Nat.cast_ofNat,
      one_add_div (pow_ne_zero _ htwo), mul_div_assoc', mul_comm _ (2 ^ 52 : ℚ), ← mul_assoc,
      div_mul_cancel₀ _ (pow_ne_zero _ htwo)]

theorem value_eq (x : Binary64) : x.value = x.signedUnits / unitsPerOne := by
  rw [value, magnitude_eq, signedUnits]
  cases x.negative with
  | true => rw [if_pos rfl, if_pos rfl, Int.cast_neg, Int.cast_natCast, neg_div]
  | false => rw [if_neg Bool.false_ne_true, if_neg Bool.false_ne_true, Int.cast_natCast]

theorem zero_le_magnitude (x : Binary64) : 0 ≤ x.magnitude := by
  rw [magnitude_eq]
  exact div_nonneg (Nat.cast_nonneg _) (Nat.cast_nonneg _)

theorem abs_value_eq (x : Binary64) : |x.value| = x.magnitude := by
  rw [value]
  split
  · rw [abs_neg, abs_of_nonneg x.zero_le_magnitude]
  · exact abs_of_nonneg x.zero_le_magnitude

theorem magnitude_mul_units (x : Binary64) : x.magnitude * unitsPerOne = x.units := by
  rw [magnitude_eq, div_mul_cancel₀ _ unitsPerOne_pos'.ne']

theorem magnitude_lt_iff (x y : Binary64) : x.magnitude < y.magnitude ↔ x.field < y.field := by
  rw [magnitude_eq, magnitude_eq, div_lt_div_iff_of_pos_right unitsPerOne_pos', Nat.cast_lt, units, units,
    unitsOf_strictMono.lt_iff_lt]

theorem value_lt_iff {x y : Binary64} (hsign : x.negative = y.negative) :
    x.value < y.value ↔ if x.negative then y.field < x.field else x.field < y.field := by
  rw [value, value, ← hsign]
  cases x.negative with
  | true => simpa using magnitude_lt_iff y x
  | false => simpa using magnitude_lt_iff x y

theorem value_neg_iff (x : Binary64) : x.value < 0 ↔ x.signedUnits < 0 := by
  rw [value_eq, div_lt_iff₀ unitsPerOne_pos', zero_mul, Int.cast_lt_zero]

theorem value_nonneg_iff (x : Binary64) : 0 ≤ x.value ↔ 0 ≤ x.signedUnits := by
  rw [← not_lt, value_neg_iff, not_lt]

theorem magnitude_ofField {negative : Bool} {field : Nat} (h : field < signBit) :
    (ofField negative field).magnitude = unitsOf field / unitsPerOne := by
  rw [magnitude_eq, units, field_ofField h]

/-! ## The nearest number -/

/-- A finite number than which none is nearer to an amount. If another one is as near, its own fraction is even. -/
structure IsNearest (x : Binary64) (amount : ℚ) : Prop where
  isFinite : x.isFinite = true
  closest : ∀ y : Binary64, y.isFinite = true → |x.value - amount| ≤ |y.value - amount|
  even : ∀ y : Binary64, y.isFinite = true → y.value ≠ x.value → |y.value - amount| = |x.value - amount| →
    x.fraction % 2 = 0

section Distance
variable {low high amount : ℚ} (h : low < high)
include h

/-- Of two numbers the upper one is not farther from what lies past the middle between them. -/
theorem high_closer_iff : |high - amount| ≤ |low - amount| ↔ low + high ≤ 2 * amount := by
  have hsplit : (low - amount) ^ 2 - (high - amount) ^ 2 = (high - low) * (2 * amount - (low + high)) := by ring
  rw [← sq_le_sq, ← sub_nonneg, hsplit, mul_nonneg_iff_of_pos_left (sub_pos.mpr h), sub_nonneg]

theorem low_closer_iff : |low - amount| ≤ |high - amount| ↔ 2 * amount ≤ low + high := by
  have hsplit : (high - amount) ^ 2 - (low - amount) ^ 2 = (high - low) * (low + high - 2 * amount) := by ring
  rw [← sq_le_sq, ← sub_nonneg, hsplit, mul_nonneg_iff_of_pos_left (sub_pos.mpr h), sub_nonneg]

theorem as_close_iff : |low - amount| = |high - amount| ↔ 2 * amount = low + high := by
  rw [le_antisymm_iff, low_closer_iff h, high_closer_iff h, ← le_antisymm_iff]

end Distance

/-- No field is nearer to a number of units than the one it is rounded to; if another one is as near, that is even. -/
theorem nearest_closest {amount : ℚ} (hamount : 0 ≤ amount) (hfinite : nearest amount < infinityField) (other : Nat) :
    |(unitsOf (nearest amount) : ℚ) - amount| ≤ |(unitsOf other : ℚ) - amount| ∧
      (other ≠ nearest amount → |(unitsOf other : ℚ) - amount| = |(unitsOf (nearest amount) : ℚ) - amount| →
        nearest amount % 2 = 0) := by
  generalize hfield : nearest amount = field at hfinite
  rcases Nat.lt_trichotomy other field with hlt | rfl | hgt
  · have hunits : (unitsOf other : ℚ) < unitsOf field := by exact_mod_cast unitsOf_strictMono hlt
    rw [high_closer_iff hunits, as_close_iff hunits]
    -- the field below is the one to look at
    obtain ⟨below, rfl⟩ : ∃ below, field = below + 1 := ⟨field - 1, by omega⟩
    have hle : (unitsOf other : ℚ) ≤ unitsOf below := by exact_mod_cast unitsOf_strictMono.monotone (Nat.lt_succ_iff.mp hlt)
    have hpast : below < nearest amount := by omega
    rcases (lt_nearest_iff hamount (by omega)).mp hpast with hpast | ⟨hmiddle, hodd⟩
    · exact ⟨by linarith, fun _ htie => by linarith⟩
    · exact ⟨by linarith, fun _ _ => by omega⟩
  · exact ⟨le_refl _, fun hne => absurd rfl hne⟩
  · have hunits : (unitsOf field : ℚ) < unitsOf other := by exact_mod_cast unitsOf_strictMono hgt
    rw [low_closer_iff hunits, eq_comm, as_close_iff hunits]
    have hle : (unitsOf (field + 1) : ℚ) ≤ unitsOf other := by exact_mod_cast unitsOf_strictMono.monotone hgt
    have hpast : ¬field < nearest amount := by omega
    rw [lt_nearest_iff hamount hfinite, not_or, not_and, not_lt] at hpast
    obtain ⟨hmiddle, heven⟩ := hpast
    refine ⟨by linarith, fun _ htie => ?_⟩
    have hodd : ¬field % 2 = 1 := heven (by linarith)
    omega

/-- Up to half a unit is rounded down. -/
theorem nearest_eq_zero {amount : ℚ} (hamount : 0 ≤ amount) (h : 2 * amount ≤ 1) : nearest amount = 0 := by
  by_contra hne
  have hone : unitsOf (0 + 1) = 1 := rfl
  rcases (lt_nearest_iff hamount (by decide)).mp (Nat.pos_of_ne_zero hne) with hpast | ⟨-, hodd⟩
  · rw [hone, unitsOf_zero, Nat.cast_zero, Nat.cast_one, zero_add] at hpast
    exact absurd hpast (not_lt.mpr h)
  · exact absurd hodd (by decide)

section Rounding
variable {negative : Bool} {amount : ℚ}

theorem abs_magnitude_sub_le (x : Binary64) : |x.magnitude - abs amount| ≤ |x.value - amount| := by
  rw [← abs_value_eq]
  exact abs_abs_sub_abs_le x.value amount

theorem abs_magnitude_sub_eq {x : Binary64} (h : amount = if x.negative then -|amount| else |amount|) :
    |x.magnitude - abs amount| = |x.value - amount| := by
  rw [value]
  split at h
  · next hnegative =>
    have hopposite : -x.magnitude - amount = -(x.magnitude - |amount|) := by linarith
    rw [if_pos hnegative, hopposite, abs_neg]
  · next hnegative => rw [if_neg hnegative, ← h]

theorem abs_units_sub (x : Binary64) :
    |(x.units : ℚ) - |amount| * unitsPerOne| = |x.magnitude - abs amount| * unitsPerOne := by
  rw [← magnitude_mul_units, ← sub_mul, abs_mul, abs_of_pos unitsPerOne_pos']

/-- Only zero is as near to a number as to its opposite. -/
theorem amount_eq_zero {x y : Binary64} (hne : y.value ≠ x.value) (habs : |y.value| = |x.value|)
    (htie : |y.value - amount| = |x.value - amount|) : amount = 0 := by
  have hopposite : y.value = -x.value := (abs_eq_abs.mp habs).resolve_left hne
  have hzero : x.value * amount = 0 := by
    rw [hopposite, ← sq_eq_sq_iff_abs_eq_abs] at htie
    linarith
  have hvalue : x.value ≠ 0 := fun h => hne (by rw [hopposite, h, neg_zero])
  exact (mul_eq_zero.mp hzero).resolve_left hvalue

/-- Rounding gives the nearest number, if it gives a finite one. -/
theorem isNearest_ofField (hsign : amount = if negative then -|amount| else |amount|)
    (hfinite : nearest (|amount| * unitsPerOne) < infinityField) :
    IsNearest (ofField negative (nearest (|amount| * unitsPerOne))) amount := by
  generalize hx : ofField negative (nearest (|amount| * unitsPerOne)) = x
  have hlt : nearest (|amount| * unitsPerOne) < signBit := nearestField_lt _ _
  have hfield : x.field = nearest (|amount| * unitsPerOne) := by rw [← hx, field_ofField hlt]
  have hnegative : x.negative = negative := by rw [← hx, negative_ofField hlt]
  have hclosest := fun y : Binary64 => nearest_closest (mul_nonneg (abs_nonneg amount) unitsPerOne_pos'.le) hfinite y.field
  rw [← hfield] at hfinite hclosest
  have hdistance : |x.magnitude - abs amount| = |x.value - amount| := abs_magnitude_sub_eq (by rwa [hnegative])
  -- the distances in units are those of the magnitudes
  have hscaled : ∀ y : Binary64, |x.magnitude - abs amount| ≤ |y.magnitude - abs amount| ∧
      (y.field ≠ x.field → |y.magnitude - abs amount| = |x.magnitude - abs amount| → x.field % 2 = 0) := by
    intro y
    have hunits := hclosest y
    rwa [← units, ← units, abs_units_sub, abs_units_sub, mul_le_mul_iff_left₀ unitsPerOne_pos',
      mul_left_inj' unitsPerOne_pos'.ne'] at hunits
  refine ⟨decide_eq_true hfinite, fun y _ => ?_, fun y _ hne htie => ?_⟩
  · exact hdistance ▸ (hscaled y).1.trans (abs_magnitude_sub_le y)
  · rw [fraction_mod_two]
    by_cases hsame : y.field = x.field
    · have habs : |y.value| = |x.value| := by
        rw [abs_value_eq, abs_value_eq, magnitude_eq, magnitude_eq, units, units, hsame]
      rw [hfield, amount_eq_zero hne habs htie, abs_zero, zero_mul, nearest_zero]
    · have hmagnitude : |y.magnitude - abs amount| = |x.magnitude - abs amount| :=
        le_antisymm ((abs_magnitude_sub_le y).trans (by rw [htie, hdistance])) (hscaled y).1
      exact (hscaled y).2 hsame hmagnitude

theorem between_closer {low middle high : ℚ} (hlow : low < middle) (hhigh : middle < high)
    (htie : |low - amount| = |high - amount|) : |middle - amount| < |low - amount| := by
  have hmiddle : 2 * amount = low + high := (as_close_iff (hlow.trans hhigh)).mp htie
  rw [abs_of_neg (by linarith : low - amount < 0), abs_lt]
  exact ⟨by linarith, by linarith⟩

/-- If two numbers of a sign are as near and not next to each other, there is a nearer one. -/
theorem exists_closer {x y : Binary64} (hy : y.isFinite = true) (hsign : x.negative = y.negative)
    (hlt : x.field + 1 < y.field) (htie : |x.value - amount| = |y.value - amount|) :
    ∃ z : Binary64, z.isFinite = true ∧ |z.value - amount| < |x.value - amount| := by
  have hfinite : y.field < infinityField := of_decide_eq_true hy
  have hword : x.field + 1 < signBit := hlt.trans y.field_lt
  generalize hz : ofField x.negative (x.field + 1) = z
  have hfield : z.field = x.field + 1 := by rw [← hz, field_ofField hword]
  have hnegative : z.negative = x.negative := by rw [← hz, negative_ofField hword]
  refine ⟨z, decide_eq_true (hfield ▸ hlt.trans hfinite), ?_⟩
  cases hminus : x.negative with
  | false =>
      have hlow : x.value < z.value := (value_lt_iff hnegative.symm).mpr (by simp [hminus, hfield])
      have hhigh : z.value < y.value :=
        (value_lt_iff (hnegative.trans hsign)).mpr (by simp [hnegative, hminus, hfield, hlt])
      exact between_closer hlow hhigh htie
  | true =>
      have hlow : y.value < z.value :=
        (value_lt_iff (hnegative.trans hsign).symm).mpr (by simp [← hsign, hminus, hfield, hlt])
      have hhigh : z.value < x.value := (value_lt_iff hnegative).mpr (by simp [hnegative, hminus, hfield])
      exact htie ▸ between_closer hlow hhigh htie.symm

theorem IsNearest.field_le {x y : Binary64} (hx : IsNearest x amount) (hy : IsNearest y amount)
    (hsign : x.negative = y.negative) : y.field ≤ x.field := by
  by_contra hlt
  rw [not_le] at hlt
  have htie : |x.value - amount| = |y.value - amount| := le_antisymm (hx.closest y hy.isFinite) (hy.closest x hx.isFinite)
  have hne : y.value ≠ x.value := by
    intro heq
    have hmagnitude := (magnitude_lt_iff x y).mpr hlt
    rw [← abs_value_eq, ← abs_value_eq, heq] at hmagnitude
    exact lt_irrefl _ hmagnitude
  have hxeven := hx.even y hy.isFinite hne htie.symm
  have hyeven := hy.even x hx.isFinite hne.symm htie
  rw [fraction_mod_two] at hxeven hyeven
  -- both are even, so they are not next to each other
  obtain ⟨z, hfinite, hcloser⟩ := exists_closer hy.isFinite hsign (by omega : x.field + 1 < y.field) htie
  exact absurd (hx.closest z hfinite) (not_le.mpr hcloser)

theorem IsNearest.eq {x y : Binary64} (hx : IsNearest x amount) (hy : IsNearest y amount)
    (hsign : x.negative = y.negative) : x = y := by
  rw [← ofField_eta x, ← ofField_eta y, hsign, le_antisymm (hy.field_le hx hsign.symm) (hx.field_le hy hsign)]

end Rounding

/-! ## Whole numbers -/

/-- Whole numbers are exact as far as there are digits for them. -/
theorem unitsOf_nearestField_whole {n : Nat} (h : n ≤ 2 * leadingOne) :
    unitsOf (nearestField (n * unitsPerOne) 1) = n * unitsPerOne := by
  obtain ⟨field, hfield⟩ := exists_unitsOf 1074 h
  have hvalue : unitsOf field = n * unitsPerOne := by rw [hfield, unitsPerOne_eq]
  have hfinite : field ≤ infinityField := by
    rw [← unitsOf_strictMono.le_iff_le, hvalue]
    calc n * unitsPerOne ≤ 2 * leadingOne * unitsPerOne := Nat.mul_le_mul_right _ h
      _ ≤ unitsOf infinityField := by decide +kernel
  rw [nearestField_eq_nearest Nat.one_pos, Nat.cast_one, div_one, ← hvalue, nearest_unitsOf, Nat.min_eq_left hfinite]

/-! ## Products -/

theorem mul_eq (x y : Binary64) :
    x.mul y = ofField (x.negative != y.negative) (nearest (|x.value * y.value| * unitsPerOne)) := by
  rw [mul, ofRatio, nearestField_eq_nearest unitsPerOne_pos, abs_mul, abs_value_eq, abs_value_eq, magnitude_eq,
    magnitude_eq, Nat.cast_mul, div_mul_div_comm, ← div_div, div_mul_cancel₀ _ unitsPerOne_pos'.ne']

/-- A product that is finite is the nearest number to the exact one. -/
theorem isNearest_mul {x y : Binary64} (h : (x.mul y).isFinite = true) : IsNearest (x.mul y) (x.value * y.value) := by
  have hfield : (x.mul y).field < infinityField := of_decide_eq_true h
  have hlt : nearest (|x.value * y.value| * unitsPerOne) < signBit := nearestField_lt _ _
  rw [mul_eq] at hfield ⊢
  rw [field_ofField hlt] at hfield
  refine isNearest_ofField ?_ hfield
  rw [abs_mul, abs_value_eq, abs_value_eq, value, value]
  cases x.negative <;> cases y.negative <;> simp

end Binary64

end NoiseFile
