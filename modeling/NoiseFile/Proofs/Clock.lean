import NoiseFile.Proofs.Binary64.Value
import NoiseFile.Stats

/-!
# Whole seconds

A run takes its times as binary64 numbers, rounded more than once.

* `IsWhole` : a number that stands for an integer. Sums and differences of such numbers are exact, as far as there are
  digits for them, and so is the way back to the integer (`IsWhole.toInt64_eq`);
* `elapsed_of_whole_seconds` : so between two full seconds of the clock the elapsed time is exact.
-/

namespace NoiseFile

namespace Binary64

structure IsWhole (x : Binary64) (n : Int) : Prop where
  isNaN : x.isNaN = false
  signedUnits : x.signedUnits = n * unitsPerOne

theorem isWhole_ofRatio {negative : Bool} {n : Int} (hbound : n.natAbs ≤ 2 * leadingOne)
    (hsign : n ≠ 0 → negative = decide (n < 0)) : (ofRatio negative (n.natAbs * unitsPerOne) 1).IsWhole n := by
  have hlt := nearestField_lt (n.natAbs * unitsPerOne) 1
  have hle := nearestField_le (n.natAbs * unitsPerOne) 1
  constructor
  · rw [ofRatio, Binary64.isNaN, field_ofField hlt]
    exact decide_eq_false (Nat.not_lt.mpr hle)
  · rw [ofRatio, Binary64.signedUnits, units, field_ofField hlt, negative_ofField hlt, unitsOf_nearestField_whole hbound]
    rcases lt_trichotomy n 0 with hlt | rfl | hgt
    · rw [hsign hlt.ne, if_pos (decide_eq_true hlt), Nat.cast_mul, Int.ofNat_natAbs_of_nonpos hlt.le, neg_mul, neg_neg]
    · rw [Int.natAbs_zero, Nat.zero_mul, Nat.cast_zero, neg_zero, ite_self, zero_mul]
    · have hnot : ¬decide (n < 0) = true := by simpa using hgt.le
      rw [hsign hgt.ne', if_neg hnot, Nat.cast_mul, Int.natAbs_of_nonneg hgt.le]

theorem isWhole_ofInt {n : Int} (hbound : n.natAbs ≤ 2 * leadingOne) : (ofInt n).IsWhole n :=
  isWhole_ofRatio hbound fun _ => rfl

namespace IsWhole
variable {x y : Binary64} {m n : Int}

theorem add (hx : x.IsWhole m) (hy : y.IsWhole n) (hbound : (m + n).natAbs ≤ 2 * leadingOne) :
    (x.add y).IsWhole (m + n) := by
  have hsum : x.signedUnits + y.signedUnits = (m + n) * unitsPerOne := by rw [hx.signedUnits, hy.signedUnits, add_mul]
  have hpos : (0 : Int) < unitsPerOne := by exact_mod_cast unitsPerOne_pos
  unfold Binary64.add
  dsimp only
  rw [hsum, Int.natAbs_mul, Int.natAbs_natCast]
  refine isWhole_ofRatio hbound fun hne => ?_
  have hnonzero : (m + n) * (unitsPerOne : Int) ≠ 0 := mul_ne_zero hne hpos.ne'
  have hbelow : (m + n) * (unitsPerOne : Int) < 0 ↔ m + n < 0 := by
    rw [← not_le, mul_nonneg_iff_of_pos_right hpos, not_le]
  simp only [hbelow, hnonzero, decide_false, Bool.false_and, Bool.or_false]

theorem neg (hx : x.IsWhole m) : x.neg.IsWhole (-m) := by
  have hfield : x.neg.field = x.field := field_ofField x.field_lt
  have hnegative : x.neg.negative = !x.negative := negative_ofField x.field_lt
  have hunits := hx.signedUnits
  refine ⟨?_, ?_⟩
  · rw [Binary64.isNaN, hfield]
    exact hx.isNaN
  · rw [Binary64.signedUnits] at hunits ⊢
    rw [neg_mul, ← hunits, units, hfield, hnegative]
    cases x.negative <;> simp [units]

theorem sub (hx : x.IsWhole m) (hy : y.IsWhole n) (hbound : (m - n).natAbs ≤ 2 * leadingOne) :
    (x.sub y).IsWhole (m - n) :=
  hx.add hy.neg hbound

theorem toInt64_eq (hx : x.IsWhole m) (hbound : m.natAbs ≤ 2 * leadingOne) : x.toInt64.toInt = m := by
  have hunits := hx.signedUnits
  have hmagnitude : x.units = m.natAbs * unitsPerOne := by
    have habs := congrArg Int.natAbs hunits
    rw [Int.natAbs_mul, Int.natAbs_natCast] at habs
    rw [← habs, Binary64.signedUnits]
    cases x.negative <;> simp
  have hwhole : x.wholePart = m.natAbs := by rw [wholePart, hmagnitude, Nat.mul_div_cancel _ unitsPerOne_pos]
  have hsigned : (if x.negative then -(x.wholePart : Int) else x.wholePart) = m := by
    apply Int.eq_of_mul_eq_mul_right (Int.natCast_ne_zero.mpr unitsPerOne_pos.ne')
    rw [← hunits, Binary64.signedUnits, hwhole, hmagnitude, Nat.cast_mul, ite_mul, neg_mul]
  have hone : leadingOne = 4503599627370496 := rfl
  have hleast : Int64.minValue.toInt = -9223372036854775808 := rfl
  have hgreatest : Int64.maxValue.toInt = 9223372036854775807 := rfl
  rw [toInt64, hx.isNaN, if_neg Bool.false_ne_true, hsigned]
  exact Int64.toInt_ofIntClamp (by omega) (by omega)

end IsWhole

end Binary64

theorem isWhole_toBinary64 {seconds : Int64} (hbound : seconds.toInt.natAbs ≤ 2 * Binary64.leadingOne) :
    ({ seconds } : Instant).toBinary64.IsWhole seconds.toInt := by
  have hfraction : (Binary64.ofNat (0 : UInt32).toNat).div (Binary64.ofNat 1000000000) = ⟨0⟩ := by decide +kernel
  have hzero : (⟨0⟩ : Binary64).IsWhole 0 := ⟨by decide, by rw [zero_mul]; decide⟩
  have hsum := (Binary64.isWhole_ofInt hbound).add hzero (by rwa [add_zero])
  rw [add_zero] at hsum
  unfold Instant.toBinary64
  rw [hfraction]
  exact hsum

/-- Between two full seconds of the clock the elapsed time is the number of seconds between them. -/
theorem elapsed_of_whole_seconds {stats : Stats} {start finish : Int64}
    (hstart : stats.start = ({ seconds := start } : Instant).toBinary64)
    (hfinish : stats.finish = ({ seconds := finish } : Instant).toBinary64)
    (hearly : start.toInt.natAbs ≤ Binary64.leadingOne) (hlate : finish.toInt.natAbs ≤ Binary64.leadingOne) :
    stats.elapsed.toInt = finish.toInt - start.toInt := by
  have hbound : (finish.toInt - start.toInt).natAbs ≤ 2 * Binary64.leadingOne := by omega
  have hwhole := (isWhole_toBinary64 (by omega : finish.toInt.natAbs ≤ 2 * Binary64.leadingOne)).sub
    (isWhole_toBinary64 (by omega : start.toInt.natAbs ≤ 2 * Binary64.leadingOne)) hbound
  rw [Stats.elapsed, hstart, hfinish]
  exact hwhole.toInt64_eq hbound

/-- As far from its origin as clocks are today, a nanosecond short of a second counts as a whole one. -/
example : (({ seconds := 1700000000, nanoseconds := 999999999 } : Instant).toBinary64.sub
    ({ seconds := 1700000000 } : Instant).toBinary64).toInt64 = 1 := by decide +kernel

end NoiseFile
