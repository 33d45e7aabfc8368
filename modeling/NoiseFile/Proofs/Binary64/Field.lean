import Mathlib.Order.Monotone.Basic
import Mathlib.Tactic.Ring
import NoiseFile.Binary64.Rounding

/-!
# Fields and the magnitudes they stand for

* `unitsOf_binade` : in the binade `k` the field `k · 2⁵² + r` stands for `r · 2ᵏ` units;
* `unitsOf_strictMono` : so greater fields stand for greater magnitudes, each a step of its binade above the last;
* `exists_unitsOf` : whatever has at most 53 binary digits, and zeros behind them, is the magnitude of a field;
* `field_ofField`, `negative_ofField` : a word read as its sign and its field.
-/

namespace NoiseFile.Binary64

/-! ## Binades -/

theorem leadingOne_eq : leadingOne = 2 ^ 52 := rfl

/-- A field lies in a binade, at a magnitude with a leading one unless the binade is the first. -/
theorem exists_binade (field : Nat) :
    ∃ k r, field = k * leadingOne + r ∧ (leadingOne ≤ r ∨ k = 0) ∧ r < 2 * leadingOne := by
  have hone : leadingOne = 4503599627370496 := rfl
  rcases Nat.lt_or_ge field (2 * leadingOne) with hlow | hhigh
  · exact ⟨0, field, by omega, .inr rfl, hlow⟩
  · refine ⟨field / leadingOne - 1, field % leadingOne + leadingOne, ?_, .inl (by omega), ?_⟩
    all_goals
      rw [hone] at hhigh ⊢
      omega

theorem unitsOf_normal (k fraction : Nat) (h : fraction < leadingOne) :
    unitsOf (fraction + (k + 1) * leadingOne) = (leadingOne + fraction) * 2 ^ k := by
  have hpos : 0 < leadingOne := by decide
  have hge : ¬fraction + (k + 1) * leadingOne < leadingOne := by
    rw [Nat.add_mul]
    omega
  rw [unitsOf, if_neg hge, Nat.add_mul_mod_self_right, Nat.mod_eq_of_lt h, Nat.add_mul_div_right _ _ hpos,
    Nat.div_eq_of_lt h, Nat.zero_add, Nat.add_sub_cancel]
  rfl

theorem unitsOf_binade {k r : Nat} (hlow : leadingOne ≤ r ∨ k = 0) (hhigh : r ≤ 2 * leadingOne) :
    unitsOf (k * leadingOne + r) = r * 2 ^ k := by
  rcases Nat.lt_or_ge r leadingOne with hsub | hge
  · obtain rfl : k = 0 := by omega
    rw [Nat.zero_mul, Nat.zero_add, unitsOf, if_pos hsub, Nat.pow_zero, Nat.mul_one]
  rcases Nat.lt_or_eq_of_le hhigh with hlt | rfl
  · have hnormal := unitsOf_normal k (r - leadingOne) (by omega)
    rw [Nat.add_sub_of_le hge] at hnormal
    rw [← hnormal, Nat.add_mul]
    exact congrArg unitsOf (by omega)
  · -- the end of a binade is the beginning of the next one
    have hnormal := unitsOf_normal (k + 1) 0 (by decide)
    rw [show 2 * leadingOne * 2 ^ k = (leadingOne + 0) * 2 ^ (k + 1) by ring, ← hnormal]
    exact congrArg unitsOf (by ring)

/-! ## Order -/

theorem unitsOf_lt_succ (field : Nat) : unitsOf field < unitsOf (field + 1) := by
  obtain ⟨k, r, rfl, hlow, hhigh⟩ := exists_binade field
  rw [Nat.add_assoc, unitsOf_binade hlow (by omega), unitsOf_binade (by omega) (by omega)]
  exact Nat.mul_lt_mul_of_pos_right (Nat.lt_succ_self r) (Nat.two_pow_pos k)

theorem unitsOf_strictMono : StrictMono unitsOf := strictMono_nat_of_lt_succ unitsOf_lt_succ

theorem unitsOf_zero : unitsOf 0 = 0 := rfl

/-! ## Magnitudes of fields -/

theorem exists_unitsOf {n : Nat} (k : Nat) (h : n ≤ 2 * leadingOne) : ∃ field, unitsOf field = n * 2 ^ k := by
  induction k generalizing n with
  | zero => exact ⟨0 * leadingOne + n, unitsOf_binade (.inr rfl) h⟩
  | succ k ih =>
      rcases Nat.lt_or_ge n leadingOne with hlt | hge
      · -- a digit can be taken from the zeros
        obtain ⟨field, hfield⟩ := ih (n := 2 * n) (by omega)
        refine ⟨field, hfield.trans ?_⟩
        ring
      · exact ⟨(k + 1) * leadingOne + n, unitsOf_binade (.inl hge) h⟩

theorem exists_unitsOf_mul (field k : Nat) : ∃ larger, unitsOf larger = unitsOf field * 2 ^ k := by
  obtain ⟨j, r, rfl, hlow, hhigh⟩ := exists_binade field
  rw [unitsOf_binade hlow (Nat.le_of_lt hhigh), Nat.mul_assoc, ← Nat.pow_add]
  exact exists_unitsOf _ (Nat.le_of_lt hhigh)

/-! ## Sign and field -/

section Word
variable {negative : Bool} {n : Nat}

theorem toNat_bits_ofField (h : n < signBit) :
    (ofField negative n).bits.toNat = if negative then signBit + n else n := by
  have hsign : signBit = 9223372036854775808 := rfl
  rw [ofField, UInt64.toNat_ofNat']
  apply Nat.mod_eq_of_lt
  split <;> omega

theorem field_ofField (h : n < signBit) : (ofField negative n).field = n := by
  rw [field, toNat_bits_ofField h]
  split
  · rw [Nat.add_mod_left, Nat.mod_eq_of_lt h]
  · exact Nat.mod_eq_of_lt h

theorem negative_ofField (h : n < signBit) : (ofField negative n).negative = negative := by
  rw [Binary64.negative, toNat_bits_ofField h]
  cases negative <;> simp [h]

end Word

theorem field_lt (x : Binary64) : x.field < signBit := Nat.mod_lt _ (by decide)

theorem ofField_eta (x : Binary64) : ofField x.negative x.field = x := by
  have hlt : x.bits.toNat < 2 * signBit := UInt64.toNat_lt x.bits
  have hword : (ofField x.negative x.field).bits.toNat = x.bits.toNat := by
    rw [toNat_bits_ofField x.field_lt, Binary64.negative, field]
    by_cases h : signBit ≤ x.bits.toNat
    · rw [decide_eq_true h, if_pos rfl, Nat.mod_eq_sub_mod h, Nat.mod_eq_of_lt (by omega)]
      omega
    · rw [decide_eq_false h, if_neg Bool.false_ne_true, Nat.mod_eq_of_lt (by omega)]
  cases x
  exact congrArg Binary64.mk (UInt64.toNat_inj.mp hword)

end NoiseFile.Binary64
