import NoiseFile.Proofs.Binary64.Value
import NoiseFile.Size

/-!
# The byte count of a size

* `checkSize_ok_iff` : the sizes that are accepted;
* `mul_gib`, `wholePart_mul_gib` : scaling to bytes is exact, short of an overflow far beyond every byte count;
* `byteCount_eq` : so the byte count of an accepted size is its exact value in bytes, rounded down, if that fits.
-/

namespace NoiseFile

open Binary64

theorem checkSize_ok_iff (size : Binary64) :
    checkSize size = .ok () ↔ size.field < infinityField ∧ (size.negative = true → size.field = 0) := by
  unfold checkSize isBelowZero isFinite isNaN
  by_cases hfinite : size.field < infinityField
  · by_cases hnegative : size.negative = true
    · by_cases hzero : size.field = 0
      · simp [hzero, infinityField]
      · have hpos : 0 < size.field := Nat.pos_of_ne_zero hzero
        have hnotNaN : ¬infinityField < size.field := by omega
        simp [hfinite, hnegative, hzero, hpos, hnotNaN]
    · simp [hfinite, hnegative]
  · simp [hfinite]

/-! ## Scaling -/

theorem cast_gib : (gib : ℚ) = 2 ^ 30 := by norm_num [gib]

theorem units_ofNat {n : Nat} (h : n ≤ 2 * leadingOne) : (ofNat n).units = n * unitsPerOne := by
  rw [ofNat, ofRatio, units, field_ofField (nearestField_lt _ _), unitsOf_nearestField_whole h]

/-- Scaling to bytes is exact, unless it overflows. -/
theorem mul_gib (size : Binary64) :
    ∃ scaled, unitsOf scaled = size.units * gib ∧
      size.mul (ofNat gib) = ofField size.negative (min scaled infinityField) := by
  obtain ⟨scaled, hscaled⟩ := exists_unitsOf_mul size.field 30
  have hunits : unitsOf scaled = size.units * gib := hscaled
  have hpositive : (ofNat gib).negative = false := negative_ofField (nearestField_lt _ _)
  have hnearest : nearestField (size.units * (gib * unitsPerOne)) unitsPerOne = min scaled infinityField := by
    rw [nearestField_eq_nearest unitsPerOne_pos, ← Nat.mul_assoc, Nat.cast_mul,
      mul_div_cancel_right₀ _ unitsPerOne_pos'.ne', ← hunits, nearest_unitsOf]
  refine ⟨scaled, hunits, ?_⟩
  rw [mul, ofRatio, units_ofNat (by decide), hnearest, hpositive, Bool.bne_false]

theorem min_infinityField_lt (field : Nat) : min field infinityField < signBit :=
  Nat.lt_of_le_of_lt (Nat.min_le_right _ _) (by decide)

/-- The bytes of a size before a fraction is dropped, or some number too large for a byte count. -/
theorem wholePart_mul_gib (size : Binary64) :
    (size.mul (ofNat gib)).wholePart = size.units * gib / unitsPerOne ∨
      byteLimit ≤ (size.mul (ofNat gib)).wholePart ∧ byteLimit ≤ size.units * gib / unitsPerOne := by
  obtain ⟨scaled, hunits, hproduct⟩ := mul_gib size
  rw [hproduct, wholePart, units, field_ofField (min_infinityField_lt scaled), ← hunits]
  rcases Nat.le_total scaled infinityField with hfits | hoverflow
  · rw [Nat.min_eq_left hfits]
    exact .inl rfl
  · have hlarge : byteLimit ≤ unitsOf infinityField / unitsPerOne := by decide +kernel
    rw [Nat.min_eq_right hoverflow]
    exact .inr ⟨hlarge, hlarge.trans (Nat.div_le_div_right (unitsOf_strictMono.monotone hoverflow))⟩

/-- An accepted size has the byte count that its exact value has, rounded down. -/
theorem byteCount_eq {size : Binary64} (h : checkSize size = .ok ()) :
    byteCount size = if byteLimit ≤ size.units * gib / unitsPerOne then .error .tooLarge
      else .ok (UInt64.ofNat (size.units * gib / unitsPerOne)) := by
  unfold byteCount
  rw [h]
  dsimp only
  rcases wholePart_mul_gib size with hexact | ⟨hwhole, hlarge⟩
  · rw [hexact]
  · rw [if_pos hwhole, if_pos hlarge]

/-- The field of `2³⁴`, the first size that is too large. -/
def firstTooLarge : Nat := 0x4210000000000000

theorem unitsOf_firstTooLarge : unitsOf firstTooLarge * gib = byteLimit * unitsPerOne := by decide +kernel

/-- The sizes that are too large, by their fields. -/
theorem byteLimit_le_count_iff (field : Nat) : byteLimit ≤ unitsOf field * gib / unitsPerOne ↔ firstTooLarge ≤ field := by
  have hgib : 0 < gib := by decide
  rw [Nat.le_div_iff_mul_le unitsPerOne_pos, ← unitsOf_firstTooLarge, Nat.mul_le_mul_right_iff hgib,
    unitsOf_strictMono.le_iff_le]

end NoiseFile
