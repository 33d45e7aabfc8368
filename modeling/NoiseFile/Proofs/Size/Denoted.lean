import NoiseFile.Proofs.Decimal.Denotation
import NoiseFile.Proofs.Size.ByteCount

/-!
# From the text of a size to its bytes

* `textBytes` : the byte count of the size that a text denotes;
* `nearestBytes` : the same as a function of the number denoted, which is all that it depends on (`textBytes_eq`);
* `nearestBytes_mono`, `nearestBytes_of_units` : it keeps the order, and is exact on every number that is a size;
* `infinityField_le_nearest_iff`, `byteLimit_le_iff` : where numbers stop being sizes, and sizes stop having byte counts;
* `textBytes_denoted` : all of these.
-/

namespace NoiseFile

open Binary64

def textBytes (text : String) : Except SizeFault UInt64 := do
  let size ← parseSize text
  byteCount size

def nearestBytes (value : ℚ) : Except SizeFault UInt64 :=
  if infinityField ≤ nearest (value * unitsPerOne) then .error .notFinite
  else if byteLimit ≤ unitsOf (nearest (value * unitsPerOne)) * gib / unitsPerOne then .error .tooLarge
  else .ok (UInt64.ofNat (unitsOf (nearest (value * unitsPerOne)) * gib / unitsPerOne))

theorem textBytes_eq {text : String} {value : ℚ} (h : Denotes text value) (hvalue : 0 ≤ value) :
    textBytes text = nearestBytes value := by
  obtain ⟨numeral, hshows, hpower, rfl⟩ := h
  obtain ⟨literal, hparse, hliteral⟩ := parse?_shown hshows hpower
  rw [abs_of_nonneg hvalue] at hliteral
  have hlt := nearestField_lt (numeral.value * unitsPerOne).num.natAbs (numeral.value * unitsPerOne).den
  change nearest (numeral.value * unitsPerOne) < signBit at hlt
  have hfield : literal.toBinary64.field = nearest (numeral.value * unitsPerOne) := by rw [hliteral, field_ofField hlt]
  have hnegative : literal.toBinary64.negative = true → nearest (numeral.value * unitsPerOne) = 0 := by
    rw [hliteral, negative_ofField hlt]
    intro hminus
    -- a minus in front of a number that is not negative makes a zero
    rw [le_antisymm (value_nonpos hminus) hvalue, zero_mul, nearest_zero]
  have hread : parseSize text = (checkSize literal.toBinary64).map fun _ => literal.toBinary64 := by
    simp only [parseSize, hparse]
  unfold textBytes nearestBytes
  rw [hread]
  rcases Nat.lt_or_ge (nearest (numeral.value * unitsPerOne)) infinityField with hfinite | hinfinite
  · have hcheck : checkSize literal.toBinary64 = .ok () := by
      rw [checkSize_ok_iff, hfield]
      exact ⟨hfinite, hnegative⟩
    rw [hcheck, if_neg (Nat.not_le.mpr hfinite), ← hfield]
    exact byteCount_eq hcheck
  · have hinfinite' : literal.toBinary64.isFinite = false := by
      rw [isFinite, hfield]
      exact decide_eq_false (Nat.not_lt.mpr hinfinite)
    have hcheck : checkSize literal.toBinary64 = .error .notFinite := by
      rw [checkSize, hinfinite']
      rfl
    rw [hcheck, if_pos hinfinite]
    rfl

/-! ## Order -/

theorem nearestBytes_mono {value larger : ℚ} {bytes : UInt64} (hvalue : 0 ≤ value) (h : value ≤ larger)
    (hbytes : nearestBytes larger = .ok bytes) : ∃ fewer, nearestBytes value = .ok fewer ∧ fewer ≤ bytes := by
  have hfield : nearest (value * unitsPerOne) ≤ nearest (larger * unitsPerOne) :=
    nearest_mono (mul_nonneg hvalue unitsPerOne_pos'.le) (mul_le_mul_of_nonneg_right h unitsPerOne_pos'.le)
  have hcount : unitsOf (nearest (value * unitsPerOne)) * gib / unitsPerOne ≤
      unitsOf (nearest (larger * unitsPerOne)) * gib / unitsPerOne :=
    Nat.div_le_div_right (Nat.mul_le_mul_right gib (unitsOf_strictMono.monotone hfield))
  unfold nearestBytes at hbytes ⊢
  split at hbytes
  · cases hbytes
  next hfinite =>
  split at hbytes
  · cases hbytes
  next hfits =>
  cases hbytes
  refine ⟨_, by rw [if_neg (by omega), if_neg (by omega)], ?_⟩
  have hlimit : byteLimit = 2 ^ 64 := rfl
  rw [UInt64.le_iff_toNat_le, UInt64.toNat_ofNat', UInt64.toNat_ofNat', Nat.mod_eq_of_lt (by omega),
    Nat.mod_eq_of_lt (by omega)]
  exact hcount

/-! ## Exact values -/

theorem nearestBytes_of_units {value : ℚ} {n k bytes : Nat} (hn : n ≤ 2 * leadingOne) (hk : k ≤ 1074)
    (hvalue : value * unitsPerOne = (n * 2 ^ k : Nat)) (hbytes : n * 2 ^ k * gib = bytes * unitsPerOne)
    (hfits : bytes < byteLimit) : nearestBytes value = .ok (UInt64.ofNat bytes) := by
  obtain ⟨field, hfield⟩ := exists_unitsOf k hn
  have hfinite : field < infinityField := by
    rw [← unitsOf_strictMono.lt_iff_lt, hfield]
    calc n * 2 ^ k ≤ 2 * leadingOne * 2 ^ 1074 := Nat.mul_le_mul hn (pow_le_pow_right₀ (by decide) hk)
      _ < unitsOf infinityField := by decide +kernel
  have hnearest : nearest (value * unitsPerOne) = field := by
    rw [hvalue, ← hfield, nearest_unitsOf, Nat.min_eq_left hfinite.le]
  unfold nearestBytes
  rw [hnearest, hfield, hbytes, Nat.mul_div_cancel _ unitsPerOne_pos, if_neg (Nat.not_le.mpr hfinite),
    if_neg (Nat.not_le.mpr hfits)]

/-! ## Limits -/

theorem middle_eq {middle unit above gap : Nat} (h : middle + 2 * gap * unit = 2 * above * unit) :
    (middle : ℚ) = 2 * ((above - gap) * unit) := by
  have hcast : (middle : ℚ) + 2 * gap * unit = 2 * above * unit := by exact_mod_cast h
  linarith

/-- The middle between the greatest finite size and the next power of two is no size any more. -/
theorem infinityField_le_nearest_iff {value : ℚ} (hvalue : 0 ≤ value) :
    infinityField ≤ nearest (value * unitsPerOne) ↔ 2 ^ 1024 - 2 ^ 970 ≤ value := by
  have hunits := unitsPerOne_pos'
  have hmiddle : unitsOf (infinityField - 1) + unitsOf (infinityField - 1 + 1) + 2 * 2 ^ 970 * unitsPerOne =
      2 * 2 ^ 1024 * unitsPerOne := by decide +kernel
  have hmiddle' : (unitsOf (infinityField - 1) + unitsOf (infinityField - 1 + 1) : ℚ) =
      2 * ((2 ^ 1024 - 2 ^ 970) * unitsPerOne) := by
    exact_mod_cast middle_eq hmiddle
  show infinityField - 1 < nearest (value * unitsPerOne) ↔ _
  rw [lt_nearest_iff_le (mul_nonneg hvalue hunits.le) (by decide) (by decide), hmiddle',
    mul_le_mul_iff_right₀ two_pos, mul_le_mul_iff_left₀ hunits]

/-- The middle between `2³⁴` and the size below it has no byte count any more. -/
theorem byteLimit_le_iff {value : ℚ} (hvalue : 0 ≤ value) :
    byteLimit ≤ unitsOf (nearest (value * unitsPerOne)) * gib / unitsPerOne ↔ 2 ^ 34 - 1 / 2 ^ 20 ≤ value := by
  have hunits := unitsPerOne_pos'
  have hmiddle : (unitsOf (firstTooLarge - 1) + unitsOf (firstTooLarge - 1 + 1)) * 2 ^ 20 + 2 * unitsPerOne =
      2 * 2 ^ 34 * 2 ^ 20 * unitsPerOne := by decide +kernel
  have hmiddle' : (unitsOf (firstTooLarge - 1) + unitsOf (firstTooLarge - 1 + 1) : ℚ) =
      2 * ((2 ^ 34 - 1 / 2 ^ 20) * unitsPerOne) := by
    have hcast := congrArg (Nat.cast : Nat → ℚ) hmiddle
    push_cast at hcast
    linarith
  rw [byteLimit_le_count_iff]
  show firstTooLarge - 1 < nearest (value * unitsPerOne) ↔ _
  rw [lt_nearest_iff_le (mul_nonneg hvalue hunits.le) (by decide) (by decide), hmiddle',
    mul_le_mul_iff_right₀ two_pos, mul_le_mul_iff_left₀ hunits]

/-! ## Texts -/

theorem unitsPerOne_eq_gib : unitsPerOne = gib * 2 ^ 1044 := by decide +kernel

theorem nearestBytes_of_bytes {bytes : Nat} (h : bytes < 2 ^ 53) :
    nearestBytes (bytes / 2 ^ 30) = .ok (UInt64.ofNat bytes) := by
  apply nearestBytes_of_units (n := bytes) (k := 1044)
  · exact h.le
  · decide
  · rw [unitsPerOne_eq_gib, Nat.cast_mul gib, cast_gib, ← mul_assoc, div_mul_cancel₀ _ (by norm_num), Nat.cast_mul]
  · rw [unitsPerOne_eq_gib, Nat.mul_assoc, Nat.mul_comm gib]
  · exact h.trans (by decide)

theorem nearestBytes_of_gibs {gibs : Nat} (h : gibs < 2 ^ 34) :
    nearestBytes gibs = .ok (UInt64.ofNat (gibs * 2 ^ 30)) := by
  apply nearestBytes_of_units (n := gibs) (k := 1074)
  · exact h.le.trans (by decide)
  · decide
  · rw [← unitsPerOne_eq, Nat.cast_mul]
  · rw [← unitsPerOne_eq, show gib = 2 ^ 30 from rfl, Nat.mul_right_comm]
  · rw [show byteLimit = 2 ^ 34 * 2 ^ 30 from rfl]
    omega

/-- What becomes of a number, by its place among the limits. -/
theorem nearestBytes_cases {value : ℚ} (hvalue : 0 ≤ value) :
    (nearestBytes value = .error .tooLarge ↔ 2 ^ 34 - 1 / 2 ^ 20 ≤ value ∧ value < 2 ^ 1024 - 2 ^ 970) ∧
      (nearestBytes value = .error .notFinite ↔ 2 ^ 1024 - 2 ^ 970 ≤ value) ∧
      ((∃ bytes, nearestBytes value = .ok bytes) ↔ value < 2 ^ 34 - 1 / 2 ^ 20) := by
  have hinfinite := infinityField_le_nearest_iff hvalue
  have hlarge := byteLimit_le_iff hvalue
  rw [← not_le, ← not_le, ← hinfinite, ← hlarge]
  unfold nearestBytes
  -- what is no size would have no byte count either
  have hboth : infinityField ≤ nearest (value * unitsPerOne) →
      byteLimit ≤ unitsOf (nearest (value * unitsPerOne)) * gib / unitsPerOne := by
    intro hfield
    calc byteLimit ≤ unitsOf infinityField * gib / unitsPerOne := by decide +kernel
      _ ≤ unitsOf (nearest (value * unitsPerOne)) * gib / unitsPerOne :=
        Nat.div_le_div_right (Nat.mul_le_mul_right gib (unitsOf_strictMono.monotone hfield))
  generalize unitsOf (nearest (value * unitsPerOne)) * gib / unitsPerOne = count at hboth
  generalize nearest (value * unitsPerOne) = field at hboth
  by_cases hfield : infinityField ≤ field
  · have hcount := hboth hfield
    simp [hfield, hcount]
  · by_cases hcount : byteLimit ≤ count
    · simp [hfield, hcount]
    · simp [hfield, hcount]

/-- Texts of numbers that are not negative. The bytes that they denote keep the order of the numbers, and depend on the
number only. They are exact for every number of bytes below `2⁵³` and for every number of GiB below `2³⁴`. A number is too
large from the middle below `2³⁴` on, and no size at all from the middle below `2¹⁰²⁴` on. -/
theorem textBytes_denoted {text other : String} {value larger : ℚ} (h : Denotes text value) (hother : Denotes other larger)
    (hvalue : 0 ≤ value) :
    (value ≤ larger → ∀ bytes, textBytes other = .ok bytes → ∃ fewer, textBytes text = .ok fewer ∧ fewer ≤ bytes) ∧
      (value = larger → textBytes text = textBytes other) ∧
      (∀ bytes : Nat, bytes < 2 ^ 53 → value = bytes / 2 ^ 30 → textBytes text = .ok (UInt64.ofNat bytes)) ∧
      (∀ gibs : Nat, gibs < 2 ^ 34 → value = gibs → textBytes text = .ok (UInt64.ofNat (gibs * 2 ^ 30))) ∧
      (textBytes text = .error .tooLarge ↔ 2 ^ 34 - 1 / 2 ^ 20 ≤ value ∧ value < 2 ^ 1024 - 2 ^ 970) ∧
      (textBytes text = .error .notFinite ↔ 2 ^ 1024 - 2 ^ 970 ≤ value) ∧
      ((∃ bytes, textBytes text = .ok bytes) ↔ value < 2 ^ 34 - 1 / 2 ^ 20) := by
  rw [textBytes_eq h hvalue]
  refine ⟨?_, ?_, ?_, ?_, nearestBytes_cases hvalue⟩
  · intro hle bytes hbytes
    rw [textBytes_eq hother (hvalue.trans hle)] at hbytes
    exact nearestBytes_mono hvalue hle hbytes
  · rintro rfl
    rw [textBytes_eq hother hvalue]
  · rintro bytes hlt rfl
    exact nearestBytes_of_bytes hlt
  · rintro gibs hlt rfl
    exact nearestBytes_of_gibs hlt

/-- One half in two spellings. -/
theorem textBytes_denoted_half :
    Denotes " .5\n" (1 / 2) ∧ Denotes "+50.0E-2" (1 / 2) ∧ (0 : ℚ) ≤ 1 / 2 ∧ textBytes " .5\n" = .ok 536870912 ∧
      textBytes " .5\n" = textBytes "+50.0E-2" := by
  have hpoint : Denotes " .5\n" (1 / 2) := by
    refine ⟨{ sign := .none, whole := [], fraction := some [5], exponent := none, digits_ne_nil := by decide },
      ⟨[' '], ['\n'], by decide, List.forall_mem_singleton.mpr (by decide), List.forall_mem_singleton.mpr (by decide)⟩,
      by decide, ?_⟩
    have hdigits : Digits.value [5] = 5 := rfl
    norm_num [Numeral.value_eq, Numeral.digits, Numeral.fractionDigits, Numeral.power, hdigits, Sign.factor]
  have hpower : Denotes "+50.0E-2" (1 / 2) := by
    refine ⟨{
      sign := .plus
      whole := [5, 0]
      fraction := some [0]
      exponent := some { capital := true, sign := .minus, digits := [2], digits_ne_nil := by decide }
      digits_ne_nil := by decide },
      ⟨[], [], by decide, List.forall_mem_nil _, List.forall_mem_nil _⟩, by decide, ?_⟩
    have hdigits : Digits.value [5, 0, 0] = 500 := rfl
    have hexponent : Digits.value [2] = 2 := rfl
    norm_num [Numeral.value_eq, Numeral.digits, Numeral.fractionDigits, Numeral.power, Exponent.value, hdigits, hexponent,
      Sign.factor]
  have hpos : (0 : ℚ) ≤ 1 / 2 := by norm_num
  obtain ⟨-, hsame, hbytes, -⟩ := textBytes_denoted hpoint hpower hpos
  exact ⟨hpoint, hpower, hpos, hbytes 536870912 (by norm_num) (by norm_num), hsame rfl⟩

end NoiseFile
