import Mathlib.Algebra.Order.Field.Rat
import Mathlib.Tactic.Linarith
import NoiseFile.Proofs.Binary64.Field

/-!
# The nearest field

* `lt_roundHalfEven_iff` : a quotient is rounded past `s` from the middle between `s` and `s + 1` on, the middle itself
  going to the even side;
* `lt_nearestField_iff` : so is a quotient of units rounded past a field, whatever the two binades around it. All else
  follows from this;
* `nearest` : rounding as a function of the value alone (`nearestField_eq_nearest`). It keeps the order (`nearest_mono`)
  and leaves the magnitudes of fields alone (`nearest_unitsOf`).
-/

namespace NoiseFile

theorem lt_roundHalfEven_iff {num den s : Nat} (hden : 0 < den) :
    s < roundHalfEven num den ↔ (2 * s + 1) * den < 2 * num ∨ (2 * s + 1) * den = 2 * num ∧ s % 2 = 1 := by
  have hsplit : den * (num / den) + num % den = num := Nat.div_add_mod num den
  have hrest := Nat.mod_lt num hden
  have hmiddle : (2 * s + 1) * den = 2 * (den * s) + den := by ring
  unfold roundHalfEven
  rw [hmiddle]
  generalize num / den = q at *
  generalize num % den = r at *
  rcases Nat.lt_trichotomy s q with hlt | rfl | hgt
  · have hmul : den * (s + 1) ≤ den * q := Nat.mul_le_mul_left den hlt
    rw [Nat.mul_add] at hmul
    split_ifs <;> omega
  · split_ifs <;> omega
  · have hmul : den * (q + 1) ≤ den * s := Nat.mul_le_mul_left den hgt
    rw [Nat.mul_add] at hmul
    split_ifs <;> omega

namespace Binary64

/-- Whether a quotient of units lies past the middle between the magnitudes of a field and of the next one, or on it
where the next field is the even one. -/
def IsPast (field num den : Nat) : Prop :=
  (unitsOf field + unitsOf (field + 1)) * den < 2 * num ∨
    (unitsOf field + unitsOf (field + 1)) * den = 2 * num ∧ field % 2 = 1

/-! ## The binade of a quotient -/

section Quotient
variable (num : Nat) {den : Nat} (hden : 0 < den)
include hden

theorem num_lt_binade : num < 2 * leadingOne * (den * 2 ^ binade num den) := by
  have hlog : num / den < 2 ^ (Nat.log2 (num / den) + 1) := Nat.lt_log2_self
  have hpow : 2 ^ (Nat.log2 (num / den) + 1) ≤ 2 ^ (53 + binade num den) := by
    apply Nat.pow_le_pow_right (by decide)
    unfold binade
    omega
  have hlt : num < 2 ^ (53 + binade num den) * den := (Nat.div_lt_iff_lt_mul hden).mp (Nat.lt_of_lt_of_le hlog hpow)
  have hpower : 2 * leadingOne * (den * 2 ^ binade num den) = 2 ^ (53 + binade num den) * den := by
    rw [leadingOne_eq]
    ring
  rwa [hpower]

theorem binade_le_num (h : binade num den ≠ 0) : leadingOne * (den * 2 ^ binade num den) ≤ num := by
  have hlog : Nat.log2 (num / den) = 52 + binade num den := by
    unfold binade at h ⊢
    omega
  have hne : num / den ≠ 0 := by
    intro hzero
    rw [hzero, Nat.log2_zero] at hlog
    omega
  have hle : 2 ^ (52 + binade num den) ≤ num / den := by
    rw [← hlog]
    exact Nat.log2_self_le hne
  have hpower : leadingOne * (den * 2 ^ binade num den) = 2 ^ (52 + binade num den) * den := by
    rw [leadingOne_eq]
    ring
  rw [hpower]
  exact (Nat.le_div_iff_mul_le hden).mp hle

end Quotient

/-! ## Past a field -/

section Past
variable {num den k field : Nat} (hden : 0 < den)
include hden

/-- The middles below the binade of a quotient. -/
theorem isPast_below (hnum : leadingOne * (den * 2 ^ k) ≤ num) (h : field < k * leadingOne + leadingOne) :
    field < k * leadingOne + roundHalfEven num (den * 2 ^ k) ∧ IsPast field num den := by
  have hstep : 0 < den * 2 ^ k := Nat.mul_pos hden (Nat.two_pow_pos k)
  constructor
  · have hreach : leadingOne - 1 < roundHalfEven num (den * 2 ^ k) := by
      rw [lt_roundHalfEven_iff hstep]
      have hmiddle : (2 * (leadingOne - 1) + 1) * (den * 2 ^ k) + den * 2 ^ k = 2 * (leadingOne * (den * 2 ^ k)) := by
        have hodd : (2 * (leadingOne - 1) + 1).succ = 2 * leadingOne := rfl
        rw [← Nat.succ_mul, hodd, Nat.mul_assoc]
      omega
    have hone : 0 < leadingOne := by decide
    omega
  · have hbegin : unitsOf (k * leadingOne + leadingOne) * den = leadingOne * (den * 2 ^ k) := by
      rw [unitsOf_binade (.inl (Nat.le_refl _)) (by omega)]
      ring
    have hlt : unitsOf field * den < unitsOf (k * leadingOne + leadingOne) * den :=
      Nat.mul_lt_mul_of_pos_right (unitsOf_strictMono h) hden
    have hle : unitsOf (field + 1) * den ≤ unitsOf (k * leadingOne + leadingOne) * den :=
      Nat.mul_le_mul_right den (unitsOf_strictMono.monotone h)
    left
    rw [Nat.add_mul]
    omega

/-- The middles of the binade of a quotient, where fields are one step apart. -/
theorem isPast_within {s : Nat} (hlow : leadingOne ≤ s ∨ k = 0) (hhigh : s < 2 * leadingOne) :
    k * leadingOne + s < k * leadingOne + roundHalfEven num (den * 2 ^ k) ↔ IsPast (k * leadingOne + s) num den := by
  have hstep : 0 < den * 2 ^ k := Nat.mul_pos hden (Nat.two_pow_pos k)
  have hsum : (unitsOf (k * leadingOne + s) + unitsOf (k * leadingOne + s + 1)) * den =
      (2 * s + 1) * (den * 2 ^ k) := by
    rw [unitsOf_binade hlow (Nat.le_of_lt hhigh), Nat.add_assoc, unitsOf_binade (by omega) (by omega)]
    ring
  have hparity : (k * leadingOne + s) % 2 = s % 2 := by
    rw [leadingOne_eq]
    omega
  rw [IsPast, hsum, hparity, Nat.add_lt_add_iff_left]
  exact lt_roundHalfEven_iff hstep

/-- The middles beyond the binade of a quotient. -/
theorem isPast_beyond (hnum : num < 2 * leadingOne * (den * 2 ^ k)) (h : k * leadingOne + 2 * leadingOne ≤ field) :
    ¬field < k * leadingOne + roundHalfEven num (den * 2 ^ k) ∧ ¬IsPast field num den := by
  have hstep : 0 < den * 2 ^ k := Nat.mul_pos hden (Nat.two_pow_pos k)
  constructor
  · have hstop : ¬2 * leadingOne < roundHalfEven num (den * 2 ^ k) := by
      rw [lt_roundHalfEven_iff hstep]
      have hmiddle : (2 * (2 * leadingOne) + 1) * (den * 2 ^ k) =
          2 * (2 * leadingOne * (den * 2 ^ k)) + den * 2 ^ k := by ring
      omega
    omega
  · have hend : unitsOf (k * leadingOne + 2 * leadingOne) * den = 2 * leadingOne * (den * 2 ^ k) := by
      rw [unitsOf_binade (.inl (by omega)) (Nat.le_refl _)]
      ring
    have hle : unitsOf (k * leadingOne + 2 * leadingOne) * den ≤ unitsOf field * den :=
      Nat.mul_le_mul_right den (unitsOf_strictMono.monotone h)
    have hlt : unitsOf field * den < unitsOf (field + 1) * den :=
      Nat.mul_lt_mul_of_pos_right (unitsOf_lt_succ field) hden
    rw [IsPast, Nat.add_mul]
    omega

/-- A quotient is rounded past a field exactly where it lies past the middle behind that field. -/
theorem lt_nearestField_iff (h : field < infinityField) : field < nearestField num den ↔ IsPast field num den := by
  have hhigh := num_lt_binade num hden
  have hlow := binade_le_num num hden
  rw [nearestField, lt_min_iff, and_iff_left h]
  show field < binade num den * leadingOne + roundHalfEven num (den * 2 ^ binade num den) ↔ _
  generalize binade num den = k at *
  by_cases hbelow : k ≠ 0 ∧ field < k * leadingOne + leadingOne
  · obtain ⟨hrounded, hpast⟩ := isPast_below hden (hlow hbelow.1) hbelow.2
    exact iff_of_true hrounded hpast
  rcases Nat.lt_or_ge field (k * leadingOne + 2 * leadingOne) with hwithin | hbeyond
  · obtain ⟨s, rfl⟩ : ∃ s, field = k * leadingOne + s := by
      refine ⟨field - k * leadingOne, ?_⟩
      rcases Nat.eq_zero_or_pos k with rfl | hk
      · omega
      · omega
    exact isPast_within hden (by omega) (by omega)
  · obtain ⟨hrounded, hpast⟩ := isPast_beyond hden hhigh hbeyond
    exact iff_of_false hrounded hpast

end Past

/-! ## Rounding a number of units -/

def nearest (amount : ℚ) : Nat := nearestField amount.num.natAbs amount.den

theorem nearestField_le (num den : Nat) : nearestField num den ≤ infinityField := Nat.min_le_right _ _

theorem nearestField_lt (num den : Nat) : nearestField num den < signBit :=
  Nat.lt_of_le_of_lt (nearestField_le num den) (by decide)

theorem isPast_iff {num den field : Nat} (hden : 0 < den) :
    IsPast field num den ↔ (unitsOf field + unitsOf (field + 1) : ℚ) < 2 * (num / den) ∨
      (unitsOf field + unitsOf (field + 1) : ℚ) = 2 * (num / den) ∧ field % 2 = 1 := by
  have hpos : (0 : ℚ) < den := by exact_mod_cast hden
  rw [← mul_div_assoc, lt_div_iff₀ hpos, eq_div_iff hpos.ne', IsPast]
  norm_cast

section Amount
variable {amount : ℚ} {field : Nat} (hamount : 0 ≤ amount)
include hamount

theorem natAbs_num_div_den : (amount.num.natAbs / amount.den : ℚ) = amount := by
  have hcast : ((amount.num.natAbs : Nat) : ℚ) = amount.num := by
    rw [← Int.cast_natCast, Int.natAbs_of_nonneg (Rat.num_nonneg.mpr hamount)]
  rw [hcast, Rat.num_div_den]

theorem lt_nearest_iff (h : field < infinityField) :
    field < nearest amount ↔ (unitsOf field + unitsOf (field + 1) : ℚ) < 2 * amount ∨
      (unitsOf field + unitsOf (field + 1) : ℚ) = 2 * amount ∧ field % 2 = 1 := by
  rw [nearest, lt_nearestField_iff amount.den_pos h, isPast_iff amount.den_pos, natAbs_num_div_den hamount]

/-- Where the next field is even, the middle in front of it is rounded up to it. -/
theorem lt_nearest_iff_le (h : field < infinityField) (hodd : field % 2 = 1) :
    field < nearest amount ↔ (unitsOf field + unitsOf (field + 1) : ℚ) ≤ 2 * amount := by
  rw [lt_nearest_iff hamount h, and_iff_left hodd]
  exact le_iff_lt_or_eq.symm

theorem nearest_mono {larger : ℚ} (h : amount ≤ larger) : nearest amount ≤ nearest larger := by
  by_contra hlt
  rw [Nat.not_le] at hlt
  have hfinite : nearest larger < infinityField := Nat.lt_of_lt_of_le hlt (nearestField_le _ _)
  refine absurd ((lt_nearest_iff (hamount.trans h) hfinite).mpr ?_) (Nat.lt_irrefl _)
  rcases (lt_nearest_iff hamount hfinite).mp hlt with hpast | ⟨hmiddle, hodd⟩
  · exact .inl (by linarith)
  · rcases h.lt_or_eq with hless | rfl
    · exact .inl (by linarith)
    · exact .inr ⟨hmiddle, hodd⟩

end Amount

/-- The magnitude of a field is rounded to that field, or to infinity if it is too great. -/
theorem nearest_unitsOf (field : Nat) : nearest (unitsOf field) = min field infinityField := by
  apply eq_of_forall_lt_iff
  intro other
  rw [lt_min_iff]
  rcases Nat.lt_or_ge other infinityField with hfinite | hinfinite
  · rw [lt_nearest_iff (Nat.cast_nonneg _) hfinite, and_iff_left hfinite]
    rcases Nat.lt_or_ge other field with hlt | hge
    · have hle : (unitsOf (other + 1) : ℚ) ≤ unitsOf field := by exact_mod_cast unitsOf_strictMono.monotone hlt
      have hother : (unitsOf other : ℚ) < unitsOf field := by exact_mod_cast unitsOf_strictMono hlt
      exact iff_of_true (.inl (by linarith)) hlt
    · have hle : (unitsOf field : ℚ) ≤ unitsOf other := by exact_mod_cast unitsOf_strictMono.monotone hge
      have hnext : (unitsOf other : ℚ) < unitsOf (other + 1) := by exact_mod_cast unitsOf_lt_succ other
      refine iff_of_false ?_ (Nat.not_lt.mpr hge)
      rintro (hlt | ⟨heq, -⟩)
      · linarith
      · linarith
  · refine iff_of_false ?_ fun hboth => absurd hboth.2 (Nat.not_lt.mpr hinfinite)
    exact Nat.not_lt.mpr ((nearestField_le _ _).trans hinfinite)

theorem nearest_zero : nearest 0 = 0 := by
  have hzero := nearest_unitsOf 0
  rwa [unitsOf_zero, Nat.cast_zero, Nat.zero_min] at hzero

/-- Rounding a quotient depends on its value only. -/
theorem nearestField_eq_nearest {num den : Nat} (hden : 0 < den) : nearestField num den = nearest (num / den) := by
  have hquotient : (0 : ℚ) ≤ num / den := div_nonneg num.cast_nonneg den.cast_nonneg
  apply eq_of_forall_lt_iff
  intro field
  rcases Nat.lt_or_ge field infinityField with hfinite | hinfinite
  · rw [lt_nearestField_iff hden hfinite, isPast_iff hden, lt_nearest_iff hquotient hfinite]
  · exact iff_of_false (Nat.not_lt.mpr ((nearestField_le _ _).trans hinfinite))
      (Nat.not_lt.mpr ((nearestField_le _ _).trans hinfinite))

end Binary64

end NoiseFile
