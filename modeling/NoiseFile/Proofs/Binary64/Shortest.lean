import NoiseFile.Binary64.Shortest
import NoiseFile.Proofs.Decimal.Denotation
import NoiseFile.Proofs.Size.ByteCount

/-!
# The text of a number reads back

* `fieldOfPoint_shortestFrom` : whatever grid the search stops at, its point is nearest to the field;
* `exists_numeral_plain` : digits with a point among or behind them are a numeral, of the value of the grid point;
* `exists_numeral_text` : so the text of a finite number shows a numeral to which that number is nearest;
* `parse?_text` : reading the text of a number gives the number.
-/

namespace NoiseFile.Binary64

/-! ## The search -/

theorem neighbour?_reads {reads : Nat → Bool} {low n : Nat} {lowIsNearer : Bool}
    (h : neighbour? reads low lowIsNearer = some n) : reads n = true := by
  unfold neighbour? at h
  cases hlow : reads low <;> cases hhigh : reads (low + 1) <;> cases lowIsNearer <;> simp_all

theorem firstFrom_spec {point? : Nat → Option Nat} {finest : Nat} {P : Nat → Nat → Prop}
    (hpoint : ∀ p n, point? p = some n → P n p) (hfinest : P finest 0) (p : Nat) :
    P (firstFrom point? finest p).1 (firstFrom point? finest p).2 := by
  induction p with
  | zero => exact hfinest
  | succ p ih =>
      rw [firstFrom]
      cases hp : point? (p + 1) with
      | none => exact ih
      | some n => exact hpoint _ _ hp

theorem fieldOfPoint_pointOn {field p n : Nat} (h : pointOn? field p = some n) : fieldOfPoint n p = field := by
  have hneighbour : neighbour? (readsBack field p) (decimalUnits field / Nat.pow 10 p)
    (decide (2 * (decimalUnits field % Nat.pow 10 p) < Nat.pow 10 p)) = some n := h
  have hreads : readsBack field p n = true := neighbour?_reads hneighbour
  exact of_decide_eq_true hreads

theorem fieldOfPoint_eq (n p : Nat) : fieldOfPoint n p = nearest (n * 10 ^ p / 5 ^ places) := by
  rw [fieldOfPoint, Nat.pow_eq, Nat.pow_eq, nearestField_eq_nearest (Nat.pow_pos (by decide)), Nat.cast_mul, Nat.cast_pow,
    Nat.cast_pow, Nat.cast_ofNat, Nat.cast_ofNat]

theorem decimalUnits_eq (field : Nat) : decimalUnits field = unitsOf field * 5 ^ places := by
  rw [decimalUnits, Nat.pow_eq]

/-- The magnitude of a field is a point of the finest grid. -/
theorem fieldOfPoint_decimalUnits {field : Nat} (h : field < infinityField) :
    fieldOfPoint (decimalUnits field) 0 = field := by
  rw [fieldOfPoint_eq, decimalUnits_eq]
  generalize places = digits
  have hfive : (5 : ℚ) ^ digits ≠ 0 := pow_ne_zero _ (by norm_num)
  rw [Nat.cast_mul, Nat.cast_pow, pow_zero, mul_one, Nat.cast_ofNat, mul_div_cancel_right₀ _ hfive, nearest_unitsOf,
    Nat.min_eq_left h.le]

theorem fieldOfPoint_shortestFrom {field : Nat} (h : field < infinityField) (p : Nat) :
    fieldOfPoint (shortestFrom field p).1 (shortestFrom field p).2 = field :=
  firstFrom_spec (P := fun n q => fieldOfPoint n q = field) (fun _ _ => fieldOfPoint_pointOn)
    (fieldOfPoint_decimalUnits h) p

theorem exists_plain {field : Nat} (h : field < infinityField) :
    ∃ n p, magnitudeText field = plain n p ∧ fieldOfPoint n p = field := by
  by_cases hzero : field = 0
  · refine ⟨0, places, ?_, ?_⟩
    · rw [magnitudeText, if_pos hzero, plain, if_pos (Nat.le_refl _), Nat.sub_self]
      rfl
    · rw [fieldOfPoint_eq, Nat.cast_zero, zero_mul, zero_div, nearest_zero, hzero]
  · exact ⟨_, _, if_neg hzero, fieldOfPoint_shortestFrom h topPower⟩

/-! ## The text of a point -/

theorem exists_numeral (sign : Sign) (point : Bool) (whole fraction : List Char) (hne : whole ++ fraction ≠ [])
    (hwhole : ∀ c ∈ whole, c.isDigit = true) (hfraction : ∀ c ∈ fraction, c.isDigit = true)
    (hpoint : point = false → fraction = []) :
    ∃ numeral : Numeral, numeral.sign = sign ∧ numeral.power = 0 ∧
      numeral.spelling = sign.spelling ++ (whole ++ if point then '.' :: fraction else []) ∧
      Digits.value numeral.digits = Literal.digitsValue (whole ++ fraction) ∧
      numeral.fractionDigits.length = fraction.length := by
  obtain ⟨front, rfl⟩ := Digits.exists_spelling hwhole
  obtain ⟨back, rfl⟩ := Digits.exists_spelling hfraction
  rw [← Digits.spelling_append] at hne ⊢
  have hdigits : front ++ back ≠ [] := fun hnil => hne ((Digits.spelling_eq_nil_iff _).mpr hnil)
  rw [Digits.digitsValue_spelling]
  cases point with
  | true =>
      refine ⟨{ sign, whole := front, fraction := some back, exponent := none, digits_ne_nil := hdigits }, rfl, rfl, ?_,
        rfl, ?_⟩
      · simp [Numeral.spelling, Numeral.fractionSpelling, Numeral.exponentSpelling]
      · simp [Numeral.fractionDigits, Digits.spelling]
  | false =>
      obtain rfl := (Digits.spelling_eq_nil_iff back).mp (hpoint rfl)
      rw [List.append_nil] at hdigits ⊢
      refine ⟨{ sign, whole := front, fraction := none, exponent := none, digits_ne_nil := by simpa using hdigits }, rfl,
        rfl, ?_, ?_, rfl⟩
      · simp [Numeral.spelling, Numeral.fractionSpelling, Numeral.exponentSpelling]
      · simp [Numeral.digits, Numeral.fractionDigits]

theorem digitsValue_eq (cs : List Char) : Literal.digitsValue cs = Nat.ofDigitChars 10 cs 0 := rfl

theorem isDigit_toDigits (n : Nat) : ∀ c ∈ Nat.toDigits 10 n, c.isDigit = true := fun _ =>
  Nat.isDigit_of_mem_toDigits (by decide) (by decide)

theorem isDigit_zeros (n : Nat) : ∀ c ∈ List.replicate n '0', c.isDigit = true := by
  intro c hc
  rw [List.eq_of_mem_replicate hc]
  rfl

theorem digitsValue_zeros_append (zeros n : Nat) :
    Literal.digitsValue (List.replicate zeros '0' ++ Nat.toDigits 10 n) = n := by
  rw [digitsValue_eq, Nat.ofDigitChars_append, Nat.ofDigitChars_replicate_zero, Nat.mul_zero,
    Nat.ofDigitChars_ten_toDigits]

theorem digitsValue_append_zeros (n zeros : Nat) :
    Literal.digitsValue (Nat.toDigits 10 n ++ List.replicate zeros '0') = n * 10 ^ zeros := by
  rw [digitsValue_eq, Nat.ofDigitChars_append, Nat.ofDigitChars_ten_toDigits, Nat.ofDigitChars_replicate_zero, Nat.mul_comm]

theorem exists_numeral_behind (sign : Sign) {digits : List Char} {behind : Nat} (hlength : behind < digits.length)
    (hdigit : ∀ c ∈ digits, c.isDigit = true) :
    ∃ numeral : Numeral, numeral.sign = sign ∧ numeral.power = 0 ∧
      numeral.spelling =
        sign.spelling ++ (digits.take (digits.length - behind) ++ '.' :: digits.drop (digits.length - behind)) ∧
      |numeral.value| * 10 ^ behind = Literal.digitsValue digits := by
  have hrow : digits.take (digits.length - behind) ++ digits.drop (digits.length - behind) = digits :=
    List.take_append_drop ..
  obtain ⟨numeral, hsign, hpower, hspelling, hvalue, hfraction⟩ :=
    exists_numeral sign true (digits.take (digits.length - behind)) (digits.drop (digits.length - behind))
      (by rw [hrow]; exact List.ne_nil_of_length_pos (by omega)) (fun c hc => hdigit c (List.mem_of_mem_take hc))
      (fun c hc => hdigit c (List.mem_of_mem_drop hc)) (fun h => nomatch h)
  refine ⟨numeral, hsign, hpower, hspelling, ?_⟩
  rw [hrow] at hvalue
  rw [List.length_drop, Nat.sub_sub_self hlength.le] at hfraction
  rw [abs_value, hvalue, hpower, hfraction, zero_sub, zpow_neg, zpow_natCast]
  exact inv_mul_cancel_right₀ (pow_ne_zero _ (by norm_num)) _

/-- Digits with zeros for the places that they do not reach. -/
theorem exists_numeral_whole (sign : Sign) (n zeros : Nat) :
    ∃ numeral : Numeral, numeral.sign = sign ∧ numeral.power = 0 ∧
      numeral.spelling = sign.spelling ++ (Nat.toDigits 10 n ++ List.replicate zeros '0') ∧
      |numeral.value| = n * 10 ^ zeros := by
  have hdigits : Nat.toDigits 10 n ≠ [] := Nat.toDigits_ne_nil
  have hdigit : ∀ c ∈ Nat.toDigits 10 n ++ List.replicate zeros '0', c.isDigit = true := fun c hc =>
    (List.mem_append.mp hc).elim (isDigit_toDigits n c) (isDigit_zeros _ c)
  obtain ⟨numeral, hsign, hpower, hspelling, hvalue, hfraction⟩ :=
    exists_numeral sign false (Nat.toDigits 10 n ++ List.replicate zeros '0') [] (by simp [hdigits]) hdigit
      (fun c hc => nomatch hc) (fun _ => rfl)
  refine ⟨numeral, hsign, hpower, by simpa using hspelling, ?_⟩
  rw [List.append_nil, digitsValue_append_zeros] at hvalue
  rw [abs_value, hvalue, hpower, hfraction, List.length_nil, Nat.cast_zero, sub_zero, zpow_zero, mul_one]
  push_cast
  rfl

/-- The text of a point is a numeral of the value of the point. -/
theorem exists_numeral_plain (sign : Sign) (n p : Nat) :
    ∃ numeral : Numeral, numeral.sign = sign ∧ numeral.power = 0 ∧ numeral.spelling = sign.spelling ++ plain n p ∧
      |numeral.value| * 10 ^ places = n * 10 ^ p := by
  unfold plain
  generalize places = places
  rcases Nat.lt_or_ge p places with hlt | hge
  · rw [if_neg (Nat.not_le.mpr hlt)]
    generalize hbehind : places - p = behind
    generalize hpadded : List.replicate (behind + 1 - (Nat.toDigits 10 n).length) '0' ++ Nat.toDigits 10 n = padded
    have hlength : behind < padded.length := by
      rw [← hpadded, List.length_append, List.length_replicate]
      omega
    have hdigit : ∀ c ∈ padded, c.isDigit = true := by
      intro c hc
      rw [← hpadded, List.mem_append] at hc
      exact hc.elim (isDigit_zeros _ c) (isDigit_toDigits n c)
    obtain ⟨numeral, hsign, hpower, hspelling, hvalue⟩ := exists_numeral_behind sign hlength hdigit
    refine ⟨numeral, hsign, hpower, by subst hpadded; exact hspelling, ?_⟩
    rw [← hpadded, digitsValue_zeros_append] at hvalue
    rw [← Nat.sub_add_cancel hlt.le, hbehind, pow_add, ← mul_assoc, hvalue]
  · rw [if_pos hge]
    obtain ⟨numeral, hsign, hpower, hspelling, hvalue⟩ := exists_numeral_whole sign n (p - places)
    refine ⟨numeral, hsign, hpower, hspelling, ?_⟩
    rw [hvalue, mul_assoc, ← pow_add, Nat.sub_add_cancel hge]

/-! ## The text of a number -/

theorem ten_pow_places : 10 ^ places = unitsPerOne * 5 ^ places := by decide +kernel

/-- The text of a finite number is a numeral to which the number is nearest. -/
theorem exists_numeral_text {x : Binary64} (h : x.isFinite = true) :
    ∃ numeral : Numeral, numeral.sign.isMinus = x.negative ∧ numeral.power = 0 ∧ x.text.toList = numeral.spelling ∧
      nearest (|numeral.value| * unitsPerOne) = x.field := by
  have hfinite : x.field < infinityField := of_decide_eq_true h
  have hnan : x.isNaN = false := decide_eq_false (Nat.not_lt.mpr hfinite.le)
  obtain ⟨n, p, hplain, hpoint⟩ := exists_plain hfinite
  obtain ⟨numeral, hsign, hpower, hspelling, hvalue⟩ := exists_numeral_plain (if x.negative then .minus else .none) n p
  have hminus : numeral.sign.isMinus = x.negative := by
    rw [hsign]
    cases x.negative <;> rfl
  refine ⟨numeral, hminus, hpower, ?_, ?_⟩
  · rw [hspelling, ← hplain]
    unfold text
    rw [hnan, h, if_neg Bool.false_ne_true, if_pos rfl, String.toList_ofList]
    cases x.negative <;> rfl
  · have hten : (10 : ℚ) ^ places = unitsPerOne * 5 ^ places := by exact_mod_cast ten_pow_places
    rw [hten, ← mul_assoc] at hvalue
    rw [← hpoint, fieldOfPoint_eq, eq_div_of_mul_eq (pow_ne_zero _ (by norm_num)) hvalue]

/-- Reading the text of a number gives the number; the text of every NaN is that of the quiet one. -/
theorem parse?_text (x : Binary64) :
    ∃ literal, Literal.parse? (Text.trimChars x.text.toList) = some literal ∧
      literal.toBinary64 = if x.isNaN then nan else x := by
  by_cases hnan : x.isNaN = true
  · refine ⟨.nan, ?_, (if_pos hnan).symm⟩
    rw [text, if_pos hnan]
    rfl
  rw [if_neg hnan]
  by_cases hfinite : x.isFinite = true
  · obtain ⟨numeral, hsign, hpower, htext, hfield⟩ := exists_numeral_text hfinite
    have hshows : Shows x.text numeral :=
      ⟨[], [], by simpa using htext, List.forall_mem_nil _, List.forall_mem_nil _⟩
    obtain ⟨literal, hparse, hliteral⟩ := parse?_shown hshows (by rw [hpower]; decide)
    rw [hsign, hfield, ofField_eta] at hliteral
    exact ⟨literal, hparse, hliteral⟩
  · have hfield : x.field = infinityField :=
      Nat.le_antisymm (Nat.not_lt.mp fun h => hnan (decide_eq_true h)) (Nat.not_lt.mp fun h => hfinite (decide_eq_true h))
    refine ⟨.infinity x.negative, ?_, ?_⟩
    · rw [text, if_neg hnan, if_neg hfinite, String.toList_ofList]
      cases x.negative <;> rfl
    · rw [Literal.toBinary64, infinity, ← hfield, ofField_eta]

end NoiseFile.Binary64
