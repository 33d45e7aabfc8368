import Mathlib.Algebra.Order.Floor.Semifield
import Mathlib.Data.Rat.Floor
import NoiseFile.Proofs.Size.RoundTrip

/-!
# The byte count of every size, exactly

* `byteCount_cases` : which sizes have no byte count, and why;
* `count_eq_floor` : the byte count is the value in bytes, rounded down over the rationals;
* `isNearest_mul_gib`, `value_mul_gib` : the product that it is taken from is the exact one, rounded, and rounding leaves
  it as it is;
* `byteCount_exact` : all of these, for every word.
-/

namespace NoiseFile

open Binary64

/-! ## The count as a rational number -/

section Nonnegative
variable {size : Binary64} (h : 0 ≤ size.value)
include h

theorem value_eq_units_div : size.value = size.units / unitsPerOne := by
  rw [← magnitude_eq, ← abs_value_eq, abs_of_nonneg h]

theorem count_eq_floor : size.units * gib / unitsPerOne = ⌊size.value * 2 ^ 30⌋₊ := by
  rw [value_eq_units_div h, ← cast_gib, div_mul_eq_mul_div, ← Nat.cast_mul, Nat.floor_div_eq_div]

theorem byteLimit_le_count : byteLimit ≤ size.units * gib / unitsPerOne ↔ 2 ^ 64 ≤ size.value * 2 ^ 30 := by
  have hlimit : ((byteLimit : Nat) : ℚ) = 2 ^ 64 := by norm_num [byteLimit]
  rw [count_eq_floor h, Nat.le_floor_iff (mul_nonneg h (by norm_num)), hlimit]

end Nonnegative

/-! ## Cases -/

theorem byteCount_cases (size : Binary64) :
    (byteCount size = .error .notFinite ↔ checkSize size = .error .notFinite) ∧
      (byteCount size = .error .negative ↔ checkSize size = .error .negative) ∧
      (byteCount size = .error .tooLarge ↔ checkSize size = .ok () ∧ byteLimit ≤ size.units * gib / unitsPerOne) ∧
      ∀ bytes, byteCount size = .ok bytes ↔
        checkSize size = .ok () ∧ size.units * gib / unitsPerOne < byteLimit ∧
          bytes.toNat = size.units * gib / unitsPerOne := by
  cases hcheck : checkSize size with
  | error fault =>
      have hcount : byteCount size = .error fault := by
        unfold byteCount
        rw [hcheck]
      rw [hcount]
      rcases checkSize_fault hcheck with rfl | rfl <;> simp
  | ok =>
      have hlimit : byteLimit = 2 ^ 64 := rfl
      rw [byteCount_eq hcheck]
      generalize size.units * gib / unitsPerOne = count
      split
      next hlarge => simp [hlarge]
      next hfits =>
      rw [Nat.not_le] at hfits
      simp only [reduceCtorEq, false_iff, Except.ok.injEq, true_and, hfits]
      refine ⟨Nat.not_le.mpr hfits, fun bytes => ?_⟩
      rw [← UInt64.toNat_inj, UInt64.toNat_ofNat', Nat.mod_eq_of_lt (hlimit ▸ hfits), eq_comm]

/-! ## The product -/

theorem value_gib : (ofNat gib).value = 2 ^ 30 := by
  have hpositive : (ofNat gib).negative = false := negative_ofField (nearestField_lt _ _)
  rw [value, hpositive, if_neg Bool.false_ne_true, magnitude_eq, units_ofNat (by decide), Nat.cast_mul,
    mul_div_cancel_right₀ _ unitsPerOne_pos'.ne', cast_gib]

theorem isNearest_mul_gib {size : Binary64} (h : (size.mul (ofNat gib)).isFinite = true) :
    IsNearest (size.mul (ofNat gib)) (size.value * 2 ^ 30) := by
  have hnearest := isNearest_mul h
  rwa [value_gib] at hnearest

/-- Rounding leaves a finite product as it is. -/
theorem value_mul_gib {size : Binary64} (h : (size.mul (ofNat gib)).isFinite = true) :
    (size.mul (ofNat gib)).value = size.value * 2 ^ 30 := by
  obtain ⟨scaled, hunits, hproduct⟩ := mul_gib size
  have hlt := min_infinityField_lt scaled
  have hfield : min scaled infinityField < infinityField := by
    have hfinite := of_decide_eq_true h
    rwa [hproduct, field_ofField hlt] at hfinite
  have hmin : min scaled infinityField = scaled := Nat.min_eq_left (by omega)
  rw [hmin] at hlt hproduct
  rw [hproduct, value, value, negative_ofField hlt, magnitude_ofField hlt, hunits, magnitude_eq, Nat.cast_mul, cast_gib,
    mul_div_right_comm]
  split
  · rw [neg_mul]
  · rfl

theorem byteLimit_le_of_overflow {size : Binary64} (h : (size.mul (ofNat gib)).isFinite = false) :
    byteLimit ≤ size.units * gib / unitsPerOne := by
  obtain ⟨scaled, hunits, hproduct⟩ := mul_gib size
  have hfield := of_decide_eq_false h
  rw [hproduct, field_ofField (min_infinityField_lt scaled)] at hfield
  have hscaled : infinityField ≤ scaled := by omega
  calc byteLimit ≤ unitsOf infinityField / unitsPerOne := by decide +kernel
    _ ≤ unitsOf scaled / unitsPerOne := Nat.div_le_div_right (unitsOf_strictMono.monotone hscaled)
    _ = size.units * gib / unitsPerOne := by rw [hunits]

theorem count_le {size : Binary64} (h : size.units * gib / unitsPerOne < byteLimit) :
    size.units * gib / unitsPerOne ≤ 2 ^ 64 - 2048 := by
  have hfield : size.field ≤ firstTooLarge - 1 := by
    rw [units, ← Nat.not_le, byteLimit_le_count_iff] at h
    omega
  calc size.units * gib / unitsPerOne ≤ unitsOf (firstTooLarge - 1) * gib / unitsPerOne :=
        Nat.div_le_div_right (Nat.mul_le_mul_right gib (unitsOf_strictMono.monotone hfield))
    _ = 2 ^ 64 - 2048 := by decide +kernel

/-- The byte count of every word. There is none for a NaN or an infinity, nor for a number below zero. Every other number
has the bytes of its exact value, rounded down, unless these are `2⁶⁴` or more; so it is too where the product is infinite. A
finite product is the nearest number to the exact one, and is the exact one; the byte count is taken from it without
wrapping. -/
theorem byteCount_exact (size : Binary64) :
    (byteCount size = .error .notFinite ↔ size.isNaN = true ∨ size = infinity false ∨ size = infinity true) ∧
      (byteCount size = .error .negative ↔ size.isFinite = true ∧ size.value < 0) ∧
      (byteCount size = .error .tooLarge ↔ size.isFinite = true ∧ 0 ≤ size.value ∧ 2 ^ 64 ≤ size.value * 2 ^ 30) ∧
      (∀ bytes, byteCount size = .ok bytes ↔ size.isFinite = true ∧ 0 ≤ size.value ∧ size.value * 2 ^ 30 < 2 ^ 64 ∧
        bytes.toNat = ⌊size.value * 2 ^ 30⌋₊) ∧
      (size.isFinite = true → 0 ≤ size.value → (size.mul (ofNat gib)).isFinite = false →
        byteCount size = .error .tooLarge) ∧
      ((size.mul (ofNat gib)).isFinite = true →
        IsNearest (size.mul (ofNat gib)) (size.value * 2 ^ 30) ∧ (size.mul (ofNat gib)).value = size.value * 2 ^ 30) ∧
      ∀ bytes, byteCount size = .ok bytes → (size.mul (ofNat gib)).isFinite = true ∧
        (size.mul (ofNat gib)).value = size.value * 2 ^ 30 ∧ (size.mul (ofNat gib)).wholePart = bytes.toNat ∧
        bytes.toNat ≤ 2 ^ 64 - 2048 := by
  obtain ⟨haccepted, hinfinite, hnegative⟩ := checkSize_cases size
  obtain ⟨hnotFinite, hbelow, hlarge, hbytes⟩ := byteCount_cases size
  rw [hinfinite] at hnotFinite
  rw [hnegative, ← value_neg_iff] at hbelow
  rw [← value_nonneg_iff] at haccepted
  refine ⟨hnotFinite, hbelow, ?_, fun bytes => ?_, fun hfinite hvalue hoverflow => ?_,
    fun hfinite => ⟨isNearest_mul_gib hfinite, value_mul_gib hfinite⟩, fun bytes hcount => ?_⟩
  · rw [hlarge, haccepted, and_assoc]
    exact and_congr_right fun _ => and_congr_right byteLimit_le_count
  · rw [hbytes, haccepted, and_assoc]
    refine and_congr_right fun _ => and_congr_right fun hvalue => ?_
    rw [← not_le, byteLimit_le_count hvalue, not_le, count_eq_floor hvalue]
  · exact hlarge.mpr ⟨haccepted.mpr ⟨hfinite, hvalue⟩, byteLimit_le_of_overflow hoverflow⟩
  · obtain ⟨-, hfits, hcount⟩ := (hbytes bytes).mp hcount
    have hfinite : (size.mul (ofNat gib)).isFinite = true := by
      by_contra hoverflow
      exact absurd (byteLimit_le_of_overflow (Bool.eq_false_of_not_eq_true hoverflow)) (Nat.not_le.mpr hfits)
    refine ⟨hfinite, value_mul_gib hfinite, ?_, ?_⟩
    · rw [hcount]
      exact (wholePart_mul_gib size).resolve_right fun hboth => absurd hboth.2 (Nat.not_le.mpr hfits)
    · rw [hcount]
      exact count_le hfits

/-- The largest size with a byte count, and one whose product is infinite. -/
theorem byteCount_exact_at_limits :
    byteCount ⟨0x420FFFFFFFFFFFFF⟩ = .ok 0xFFFFFFFFFFFFF800 ∧
      (mul ⟨0x420FFFFFFFFFFFFF⟩ (ofNat gib)).value = value ⟨0x420FFFFFFFFFFFFF⟩ * 2 ^ 30 ∧
      (mul ⟨0x7FE0000000000000⟩ (ofNat gib)).isFinite = false ∧ byteCount ⟨0x7FE0000000000000⟩ = .error .tooLarge := by
  obtain ⟨-, -, -, -, -, -, hproduct⟩ := byteCount_exact ⟨0x420FFFFFFFFFFFFF⟩
  obtain ⟨-, -, -, -, hoverflow, -⟩ := byteCount_exact ⟨0x7FE0000000000000⟩
  have hbytes : byteCount ⟨0x420FFFFFFFFFFFFF⟩ = .ok 0xFFFFFFFFFFFFF800 := by decide +kernel
  have hinfinite : (mul ⟨0x7FE0000000000000⟩ (ofNat gib)).isFinite = false := by decide +kernel
  have hvalue : 0 ≤ value ⟨0x7FE0000000000000⟩ := (value_nonneg_iff _).mpr (by decide +kernel)
  exact ⟨hbytes, (hproduct _ hbytes).2.1, hinfinite, hoverflow (by decide) hvalue hinfinite⟩

end NoiseFile
