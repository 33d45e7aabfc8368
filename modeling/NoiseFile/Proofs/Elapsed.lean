import Mathlib
import NoiseFile.Elapsed

/-!
# Elapsed time without loss

* `SplitsInto` : hours, minutes and seconds of one sign that make up a number of seconds; there is one such split
  (`SplitsInto.unique`), and dividing toward zero gives it (`splitsInto_tdiv`);
* `colonFields` : what stands between the colons of a text; a part of a split is read back from its field
  (`colonFields_hourText`, `toInt?_twoWide`);
* `hourText_without_loss` : so the text of a time tells the time.
-/

namespace NoiseFile

/-! ## The split -/

/-- Hours, minutes and seconds that make up a number of seconds, none of them of the other sign. -/
structure SplitsInto (total hours minutes seconds : Int) : Prop where
  total_eq : hours * 3600 + minutes * 60 + seconds = total
  minutes_lt : |minutes| < 60
  seconds_lt : |seconds| < 60
  one_sign : (0 ≤ hours ∧ 0 ≤ minutes ∧ 0 ≤ seconds) ∨ (hours ≤ 0 ∧ minutes ≤ 0 ∧ seconds ≤ 0)

namespace SplitsInto
variable {total hours minutes seconds hours' minutes' seconds' : Int}

theorem unique (h : SplitsInto total hours minutes seconds) (h' : SplitsInto total hours' minutes' seconds') :
    hours' = hours ∧ minutes' = minutes ∧ seconds' = seconds := by
  obtain ⟨hsum, hminutes, hseconds, hsign⟩ := h
  obtain ⟨hsum', hminutes', hseconds', hsign'⟩ := h'
  rw [abs_lt] at hminutes hseconds hminutes' hseconds'
  omega

theorem neg (h : SplitsInto total hours minutes seconds) : SplitsInto (-total) (-hours) (-minutes) (-seconds) where
  total_eq := by
    have hsum := h.total_eq
    omega
  minutes_lt := by
    rw [abs_neg]
    exact h.minutes_lt
  seconds_lt := by
    rw [abs_neg]
    exact h.seconds_lt
  one_sign := by
    have hsign := h.one_sign
    omega

end SplitsInto

/-- A time before the start is split as the time after it, with all signs changed. -/
theorem splitsInto_tdiv (total : Int) :
    SplitsInto total (total.tdiv 3600) ((total.tmod 3600).tdiv 60) (total.tmod 60) := by
  -- of natural numbers, rounding toward zero is rounding down
  have hnat (n : Nat) : SplitsInto n ((n : Int).tdiv 3600) (((n : Int).tmod 3600).tdiv 60) ((n : Int).tmod 60) := by
    rw [Int.tdiv_eq_ediv_of_nonneg (by omega), Int.tmod_eq_emod_of_nonneg (by omega),
      Int.tmod_eq_emod_of_nonneg (by omega), Int.tdiv_eq_ediv_of_nonneg (by omega)]
    refine ⟨by omega, ?_, ?_, .inl (by omega)⟩
    all_goals
      rw [abs_lt]
      omega
  obtain ⟨n, rfl | rfl⟩ := total.eq_nat_or_neg
  · exact hnat n
  · rw [Int.neg_tdiv, Int.neg_tmod, Int.neg_tdiv, Int.neg_tmod]
    exact (hnat n).neg

namespace HourSplit

def parts (split : HourSplit) : List Int := [split.hours.toInt, split.minutes.toInt, split.seconds.toInt]

/-- No operation on the way leaves the words, not even for the least number. -/
theorem toInt_ofSeconds (total : Int64) :
    (ofSeconds total).hours.toInt = total.toInt.tdiv 3600 ∧ (total % 3600).toInt = total.toInt.tmod 3600 ∧
      (ofSeconds total).minutes.toInt = (total.toInt.tmod 3600).tdiv 60 ∧
      (ofSeconds total).seconds.toInt = total.toInt.tmod 60 := by
  have hmod : (total % 3600).toInt = total.toInt.tmod 3600 := Int64.toInt_mod total 3600
  refine ⟨Int64.toInt_div_of_ne_right total 3600 (by decide), hmod, ?_, Int64.toInt_mod total 60⟩
  rw [← hmod]
  exact Int64.toInt_div_of_ne_right (total % 3600) 60 (by decide)

theorem splitsInto (total : Int64) : SplitsInto total.toInt (ofSeconds total).hours.toInt
    (ofSeconds total).minutes.toInt (ofSeconds total).seconds.toInt := by
  obtain ⟨hhours, -, hminutes, hseconds⟩ := toInt_ofSeconds total
  rw [hhours, hminutes, hseconds]
  exact splitsInto_tdiv total.toInt

theorem splitsInto_iff {total : Int64} {hours minutes seconds : Int} :
    SplitsInto total.toInt hours minutes seconds ↔ (ofSeconds total).parts = [hours, minutes, seconds] := by
  constructor
  · intro h
    obtain ⟨rfl, rfl, rfl⟩ := (splitsInto total).unique h
    rfl
  · intro h
    obtain ⟨rfl, rfl, rfl⟩ : _ ∧ _ ∧ _ := by simpa [parts] using h
    exact splitsInto total

end HourSplit

/-! ## One field -/

theorem isDigit_of_mem_repr {k : Nat} {c : Char} (hc : c ∈ k.repr.toList) : c.isDigit = true := by
  rw [Nat.toList_repr] at hc
  exact Nat.isDigit_of_mem_toDigits (by omega) (by omega) hc

theorem isDigit_of_mem_zero_append {k : Nat} {c : Char} (hc : c ∈ ("0" ++ k.repr).toList) : c.isDigit = true := by
  rw [String.toList_append, List.mem_append] at hc
  rcases hc with hc | hc
  · obtain rfl : c = '0' := by simpa using hc
    rfl
  · exact isDigit_of_mem_repr hc

theorem toNat?_zero_append (k : Nat) : ("0" ++ k.repr).toNat? = some k := by
  have hnat : ("0" ++ k.repr).isNat = true := String.isNat_of_isDigit (by simp) fun _ => isDigit_of_mem_zero_append
  have hline : '_' ∉ ("0" ++ k.repr).toList := fun hc => absurd (isDigit_of_mem_zero_append hc) (by decide)
  rw [String.toNat?_eq_some_ofDigitChars hnat, List.filter_bne_eq_self_of_not_mem hline, String.toList_append,
    Nat.toList_repr]
  exact congrArg some Nat.ofDigitChars_ten_toDigits

/-- A field is a digit behind a zero, a longer number, or a number behind a sign. -/
theorem twoWide_cases (n : Int) :
    (∃ k : Nat, n = k ∧ k < 10 ∧ twoWide n = "0" ++ k.repr) ∨ (∃ k : Nat, n = k ∧ 10 ≤ k ∧ twoWide n = k.repr) ∨
      ∃ k : Nat, n = -k ∧ 0 < k ∧ twoWide n = "-" ++ k.repr := by
  have hrepr : toString n = n.repr := rfl
  rw [twoWide, hrepr, Int.repr_eq_if]
  rcases lt_or_ge n 0 with hneg | hpos
  · refine .inr (.inr ⟨(-n).toNat, by omega, by omega, ?_⟩)
    rw [if_neg (by omega), if_neg (by omega)]
  · rcases lt_or_ge n 10 with hlt | hge
    · refine .inl ⟨n.toNat, by omega, by omega, ?_⟩
      rw [if_pos ⟨hpos, hlt⟩, if_pos hpos]
    · refine .inr (.inl ⟨n.toNat, by omega, by omega, ?_⟩)
      rw [if_neg (by omega), if_pos hpos]

theorem toInt?_twoWide (n : Int) : (twoWide n).toInt? = some n := by
  obtain ⟨k, rfl, -, hshown⟩ | ⟨k, rfl, -, hshown⟩ | ⟨k, rfl, -, hshown⟩ := twoWide_cases n
  · rw [hshown]
    exact String.toInt?_eq_some_of_toNat?_eq_some (toNat?_zero_append k)
  · rw [hshown]
    exact Nat.toInt?_repr k
  · rw [hshown, String.toInt?_minus_append, Nat.toNat?_repr]
    rfl

theorem colon_notMem_twoWide (n : Int) : ':' ∉ (twoWide n).toList := by
  have hdigit : ':'.isDigit ≠ true := by decide
  obtain ⟨k, -, -, hshown⟩ | ⟨k, -, -, hshown⟩ | ⟨k, -, -, hshown⟩ := twoWide_cases n
  · rw [hshown]
    exact mt isDigit_of_mem_zero_append hdigit
  · rw [hshown]
    exact mt isDigit_of_mem_repr hdigit
  · rw [hshown, String.toList_append, List.mem_append]
    exact not_or.mpr ⟨by decide, mt isDigit_of_mem_repr hdigit⟩

section Unsigned
variable {n : Int} (h : 0 ≤ n)
include h

theorem isDigit_of_mem_twoWide : ∀ c ∈ (twoWide n).toList, c.isDigit = true := by
  obtain ⟨k, -, -, hshown⟩ | ⟨k, -, -, hshown⟩ | ⟨k, hk, hneg, -⟩ := twoWide_cases n
  · rw [hshown]
    exact fun _ => isDigit_of_mem_zero_append
  · rw [hshown]
    exact fun _ => isDigit_of_mem_repr
  · omega

theorem length_twoWide : 2 ≤ (twoWide n).length ∧ (n < 100 → (twoWide n).length = 2) := by
  have hlength (k : Nat) : k.repr.length = (Nat.toDigits 10 k).length := by
    rw [← String.length_toList, Nat.toList_repr]
  obtain ⟨k, -, hlt, hshown⟩ | ⟨k, hk, hge, hshown⟩ | ⟨k, hk, hneg, -⟩ := twoWide_cases n
  · have hpos : 0 < (Nat.toDigits 10 k).length := Nat.length_toDigits_pos
    have hone : (Nat.toDigits 10 k).length ≤ 1 := (Nat.length_toDigits_le_iff (by decide) (by decide)).mpr (by omega)
    have htwo : (twoWide n).length = 1 + k.repr.length := by
      rw [hshown, String.length_append]
      rfl
    rw [htwo, hlength]
    omega
  · have hmore : ¬ (Nat.toDigits 10 k).length ≤ 1 := fun hone =>
      absurd ((Nat.length_toDigits_le_iff (by decide) (by decide)).mp hone) (by omega)
    have htwo : k < 10 ^ 2 → (Nat.toDigits 10 k).length ≤ 2 :=
      (Nat.length_toDigits_le_iff (by decide) (by decide)).mpr
    rw [hshown, hlength]
    omega
  · omega

end Unsigned

/-! ## The text -/

/-- What stands between the colons of a text. -/
def colonFields (text : String) : List String := (text.split ':').toList.map (·.copy)

section Text
variable (total : Int64)

theorem hourText_eq_intercalate :
    hourText total = (String.singleton ':').intercalate ((HourSplit.ofSeconds total).parts.map twoWide) := by
  have hcolon : ":" = String.singleton ':' := rfl
  rw [hourText, hcolon]
  simp [HourSplit.parts, String.append_assoc]

theorem colonFields_hourText : colonFields (hourText total) = (HourSplit.ofSeconds total).parts.map twoWide := by
  rw [hourText_eq_intercalate, colonFields, String.toList_split_intercalate, if_neg (by simp [HourSplit.parts])]
  intro field hfield
  obtain ⟨n, -, rfl⟩ := List.mem_map.mp hfield
  exact colon_notMem_twoWide n

theorem count_colon_hourText : (hourText total).toList.count ':' = 2 := by
  have hfield (n : Int) : (twoWide n).toList.count ':' = 0 := List.count_eq_zero.mpr (colon_notMem_twoWide n)
  simp [hourText, hfield]

theorem toInt?_colonFields_hourText :
    (colonFields (hourText total)).map String.toInt? = (HourSplit.ofSeconds total).parts.map some := by
  rw [colonFields_hourText, List.map_map]
  exact List.map_congr_left fun n _ => toInt?_twoWide n

end Text

theorem hourText_injective : Function.Injective hourText := by
  intro total total' heq
  have hparts : (HourSplit.ofSeconds total).parts = (HourSplit.ofSeconds total').parts := by
    refine List.map_injective_iff.mpr (Option.some_injective Int) ?_
    rw [← toInt?_colonFields_hourText, ← toInt?_colonFields_hourText, heq]
  have hsplit := HourSplit.splitsInto_iff.mpr hparts
  have htotal := hsplit.total_eq.symm.trans (HourSplit.splitsInto total').total_eq
  exact Int64.toInt_inj.mp htotal

/-- A time that is not negative is shown with digits alone. -/
theorem colonFields_of_nonneg {total : Int64} (h : 0 ≤ total) :
    ∃ hours minutes seconds, colonFields (hourText total) = [hours, minutes, seconds] ∧
      (∀ field ∈ [hours, minutes, seconds], ∀ c ∈ field.toList, c.isDigit = true) ∧
      2 ≤ hours.length ∧ minutes.length = 2 ∧ seconds.length = 2 := by
  have htotal : 0 ≤ total.toInt := Int64.le_iff_toInt_le.mp h
  obtain ⟨hsum, hminutes, hseconds, hsign⟩ := HourSplit.splitsInto total
  rw [abs_lt] at hminutes hseconds
  have hpos : ∀ n ∈ (HourSplit.ofSeconds total).parts, 0 ≤ n := by
    simp only [HourSplit.parts, List.forall_mem_cons]
    exact ⟨by omega, by omega, by omega, by simp⟩
  refine ⟨_, _, _, colonFields_hourText total, ?_, (length_twoWide (by omega)).1,
    (length_twoWide (by omega)).2 (by omega), (length_twoWide (by omega)).2 (by omega)⟩
  intro field hfield
  have hmem : field ∈ (HourSplit.ofSeconds total).parts.map twoWide := hfield
  obtain ⟨n, hn, rfl⟩ := List.mem_map.mp hmem
  exact isDigit_of_mem_twoWide (hpos n hn)

/-- For every number of seconds, the least and the greatest too, and without an overflow on the way. -/
theorem hourText_without_loss (total : Int64) :
    let split := HourSplit.ofSeconds total
    (∀ hours minutes seconds : Int,
      SplitsInto total.toInt hours minutes seconds ↔ split.parts = [hours, minutes, seconds]) ∧
    (split.hours.toInt = total.toInt.tdiv 3600 ∧ (total % 3600).toInt = total.toInt.tmod 3600 ∧
      split.minutes.toInt = (total.toInt.tmod 3600).tdiv 60 ∧ split.seconds.toInt = total.toInt.tmod 60) ∧
    (hourText total).toList.count ':' = 2 ∧
    (colonFields (hourText total)).map String.toInt? = split.parts.map some ∧
    (∀ total', hourText total' = hourText total → total' = total) ∧
    (0 ≤ total → ∃ hours minutes seconds, colonFields (hourText total) = [hours, minutes, seconds] ∧
      (∀ field ∈ [hours, minutes, seconds], ∀ c ∈ field.toList, c.isDigit = true) ∧
      2 ≤ hours.length ∧ minutes.length = 2 ∧ seconds.length = 2) :=
  ⟨fun _ _ _ => HourSplit.splitsInto_iff, HourSplit.toInt_ofSeconds total, count_colon_hourText total,
    toInt?_colonFields_hourText total, fun _ => @hourText_injective _ _, colonFields_of_nonneg⟩

theorem hourText_past_a_day :
    hourText 93605 = "26:00:05" ∧ ∃ hours minutes seconds, colonFields (hourText 93605) = [hours, minutes, seconds] ∧
      (∀ field ∈ [hours, minutes, seconds], ∀ c ∈ field.toList, c.isDigit = true) ∧
      2 ≤ hours.length ∧ minutes.length = 2 ∧ seconds.length = 2 := by
  obtain ⟨-, -, -, -, -, hdigits⟩ := hourText_without_loss 93605
  exact ⟨by decide, hdigits (by decide)⟩

example : hourText (-3723) = "-1:-2:-3" := by decide

example : hourText Int64.minValue = "-2562047788015215:-30:-8" := by decide

end NoiseFile
