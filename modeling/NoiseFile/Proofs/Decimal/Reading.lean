import NoiseFile.Proofs.Decimal.Numeral
import NoiseFile.Proofs.Text

/-!
# Reading numerals

* `splitSign_spelling`, `splitFraction_spelling`, `exponent?_spelling` : each part of a numeral is told from the next;
* `parse?_spelling` : so reading the text of a numeral gives its digits and the power of ten of the last one.
-/

namespace NoiseFile

/-! ## Parts -/

section Parts
variable {rest : List Char}

/-- A text that does not go on with a digit. -/
def EndsDigits (rest : List Char) : Prop := ∀ c ∈ rest.head?, c.isDigit = false

theorem takeWhile_digits (digits : List (Fin 10)) (h : EndsDigits rest) :
    (Digits.spelling digits ++ rest).takeWhile Char.isDigit = Digits.spelling digits :=
  takeWhile_stretch (fun _ => Digits.isDigit_of_mem_spelling) h

theorem dropWhile_digits (digits : List (Fin 10)) (h : EndsDigits rest) :
    (Digits.spelling digits ++ rest).dropWhile Char.isDigit = rest :=
  dropWhile_stretch (fun _ => Digits.isDigit_of_mem_spelling) h

theorem exponentValue_eq {cs : List Char} (h : Literal.digitsValue cs < 65536) :
    Literal.exponentValue cs = Literal.digitsValue cs := by
  have hgrows : ∀ (ds : List Char) (n : Nat), n ≤ ds.foldl (fun n d => 10 * n + Literal.digitValue d) n := by
    intro ds
    induction ds with
    | nil => exact fun _ => Nat.le_refl _
    | cons d ds ih =>
        intro n
        rw [List.foldl_cons]
        exact Nat.le_trans (by omega) (ih _)
  have hsame : ∀ (ds : List Char) (n : Nat), ds.foldl (fun n d => 10 * n + Literal.digitValue d) n < 65536 →
      ds.foldl (fun n d => if n < 65536 then 10 * n + Literal.digitValue d else n) n =
        ds.foldl (fun n d => 10 * n + Literal.digitValue d) n := by
    intro ds
    induction ds with
    | nil => exact fun _ _ => rfl
    | cons d ds ih =>
        intro n hsmall
        have hn : n < 65536 := Nat.lt_of_le_of_lt (hgrows (d :: ds) n) hsmall
        rw [List.foldl_cons, List.foldl_cons, if_pos hn]
        exact ih _ hsmall
  exact hsame cs 0 h

/-- A sign is told from what follows if that begins with no sign of its own. -/
theorem splitSign_spelling (sign : Sign) (h : ∀ c ∈ rest.head?, c ≠ '-' ∧ c ≠ '+') :
    Literal.splitSign (sign.spelling ++ rest) = (sign.isMinus, rest) := by
  cases sign with
  | none =>
      cases rest with
      | nil => rfl
      | cons c cs =>
          obtain ⟨hminus, hplus⟩ := h c rfl
          show Literal.splitSign (c :: cs) = (false, c :: cs)
          unfold Literal.splitSign
          split
          · next heq => exact absurd (List.cons.inj heq).1 hminus
          · next heq => exact absurd (List.cons.inj heq).1 hplus
          · rfl
  | plus => rfl
  | minus => rfl

theorem ne_sign_of_isDigit {c : Char} (h : c.isDigit = true) : c ≠ '-' ∧ c ≠ '+' := by
  obtain ⟨digit, rfl⟩ := Digits.exists_digitChar h
  revert digit
  decide

theorem ne_sign_digits (digits : List (Fin 10)) : ∀ c ∈ (Digits.spelling digits).head?, c ≠ '-' ∧ c ≠ '+' :=
  fun _ hc => ne_sign_of_isDigit (Digits.isDigit_of_mem_spelling (List.mem_of_mem_head? hc))

theorem toLower_ne_of_isDigit {c : Char} (h : c.isDigit = true) : c.toLower ≠ 'i' ∧ c.toLower ≠ 'n' := by
  obtain ⟨digit, rfl⟩ := Digits.exists_digitChar h
  revert digit
  decide

def Exponent.counted (exponent : Exponent) : Int :=
  let magnitude := Literal.exponentValue (Digits.spelling exponent.digits)
  if exponent.sign.isMinus then -magnitude else magnitude

theorem Exponent.counted_eq {exponent : Exponent} (h : exponent.value.natAbs < 65536) :
    exponent.counted = exponent.value := by
  have hsmall : Literal.digitsValue (Digits.spelling exponent.digits) < 65536 := by
    rw [Digits.digitsValue_spelling]
    have hfactor : exponent.value.natAbs = Digits.value exponent.digits := by
      rw [Exponent.value]
      cases exponent.sign <;> simp [Sign.factor]
    omega
  rw [counted, exponentValue_eq hsmall, Digits.digitsValue_spelling, Exponent.value]
  cases exponent.sign <;> simp [Sign.isMinus, Sign.factor]

theorem exponent?_spelling (exponent : Exponent) : Literal.exponent? exponent.spelling = some exponent.counted := by
  have hsign : Literal.splitSign (exponent.sign.spelling ++ Digits.spelling exponent.digits) =
      (exponent.sign.isMinus, Digits.spelling exponent.digits) :=
    splitSign_spelling exponent.sign (ne_sign_digits exponent.digits)
  have hletter : (if exponent.capital then 'E' else 'e').toLower = 'e' := by
    cases exponent.capital <;> rfl
  have hdigits : Digits.spelling exponent.digits ≠ [] := fun hnil =>
    exponent.digits_ne_nil ((Digits.spelling_eq_nil_iff _).mp hnil)
  have hall : (Digits.spelling exponent.digits).all Char.isDigit = true :=
    List.all_eq_true.mpr fun _ => Digits.isDigit_of_mem_spelling
  rw [Exponent.spelling, Literal.exponent?]
  simp only [hsign]
  rw [if_pos ⟨hletter, hdigits, hall⟩, Exponent.counted]

end Parts

namespace Numeral

theorem endsDigits_exponentSpelling (numeral : Numeral) : EndsDigits numeral.exponentSpelling := by
  unfold EndsDigits exponentSpelling
  cases numeral.exponent with
  | none => simp
  | some exponent => cases hcapital : exponent.capital <;> simp [Exponent.spelling, hcapital]

theorem endsDigits_fractionSpelling (numeral : Numeral) :
    EndsDigits (numeral.fractionSpelling ++ numeral.exponentSpelling) := by
  unfold fractionSpelling
  cases numeral.fraction with
  | none => exact numeral.endsDigits_exponentSpelling
  | some digits => simp [EndsDigits]

theorem splitFraction_spelling (numeral : Numeral) :
    Literal.splitFraction (numeral.fractionSpelling ++ numeral.exponentSpelling) =
      (Digits.spelling numeral.fractionDigits, numeral.exponentSpelling) := by
  have hends := numeral.endsDigits_exponentSpelling
  unfold fractionSpelling fractionDigits
  cases numeral.fraction with
  | none =>
      show Literal.splitFraction numeral.exponentSpelling = ([], numeral.exponentSpelling)
      unfold exponentSpelling
      cases numeral.exponent with
      | none => rfl
      | some exponent => cases hcapital : exponent.capital <;> simp [Exponent.spelling, Literal.splitFraction, hcapital]
  | some digits =>
      show Literal.splitFraction ('.' :: (Digits.spelling digits ++ numeral.exponentSpelling)) = _
      rw [Literal.splitFraction, takeWhile_digits digits hends, dropWhile_digits digits hends]
      rfl

/-- What follows the sign of a numeral begins with a digit or with the point. -/
theorem head_unsigned (numeral : Numeral) :
    ∃ c cs, Digits.spelling numeral.whole ++ (numeral.fractionSpelling ++ numeral.exponentSpelling) = c :: cs ∧
      (c.isDigit = true ∨ c = '.') := by
  have hdigits := numeral.digits_ne_nil
  cases hwhole : numeral.whole with
  | cons digit digits =>
      refine ⟨_, _, rfl, .inl ?_⟩
      rw [Nat.isDigit_digitChar]
      exact decide_eq_true digit.isLt
  | nil =>
      rw [hwhole] at hdigits
      unfold fractionSpelling
      cases hfraction : numeral.fraction with
      | none => simp [hfraction] at hdigits
      | some digits => exact ⟨_, _, rfl, .inr rfl⟩

theorem ne_sign_unsigned (numeral : Numeral) :
    ∀ c ∈ (Digits.spelling numeral.whole ++ (numeral.fractionSpelling ++ numeral.exponentSpelling)).head?,
      c ≠ '-' ∧ c ≠ '+' := by
  intro c hc
  obtain ⟨d, cs, hhead, hd⟩ := numeral.head_unsigned
  rw [hhead] at hc
  obtain rfl := Option.some.inj hc
  rcases hd with hdigit | rfl
  · exact ne_sign_of_isDigit hdigit
  · decide

def countedPower (numeral : Numeral) : Int := numeral.exponent.elim 0 Exponent.counted

theorem countedPower_eq {numeral : Numeral} (h : numeral.power.natAbs < 65536) : numeral.countedPower = numeral.power := by
  unfold countedPower power at *
  cases hexponent : numeral.exponent with
  | none => rfl
  | some exponent =>
      rw [hexponent] at h
      exact Exponent.counted_eq h

theorem exponent?_exponentSpelling (numeral : Numeral) :
    Literal.exponent? numeral.exponentSpelling = some numeral.countedPower := by
  unfold exponentSpelling countedPower
  cases numeral.exponent with
  | none => rfl
  | some exponent => exact exponent?_spelling exponent

theorem parse?_spelling (numeral : Numeral) :
    Literal.parse? numeral.spelling = some (.decimal numeral.sign.isMinus (Digits.value numeral.digits)
      (numeral.countedPower - numeral.fractionDigits.length)) := by
  obtain ⟨c, cs, hhead, hc⟩ := numeral.head_unsigned
  have hsign : Literal.splitSign numeral.spelling = (numeral.sign.isMinus,
      Digits.spelling numeral.whole ++ (numeral.fractionSpelling ++ numeral.exponentSpelling)) :=
    splitSign_spelling numeral.sign numeral.ne_sign_unsigned
  have hletter : c.toLower ≠ 'i' ∧ c.toLower ≠ 'n' := by
    rcases hc with hdigit | rfl
    · exact toLower_ne_of_isDigit hdigit
    · decide
  have hends := numeral.endsDigits_fractionSpelling
  have hdigits : Digits.spelling numeral.whole ++ Digits.spelling numeral.fractionDigits = Digits.spelling numeral.digits :=
    (Digits.spelling_append _ _).symm
  have hne : Digits.spelling numeral.digits ≠ [] := fun hnil =>
    numeral.digits_ne_nil ((Digits.spelling_eq_nil_iff _).mp hnil)
  unfold Literal.parse?
  simp only [hsign]
  rw [if_neg (by simp [hhead, hletter]), if_neg (by simp [hhead, hletter]), Literal.decimal?]
  simp only [takeWhile_digits _ hends, dropWhile_digits _ hends, splitFraction_spelling]
  rw [hdigits, if_neg hne, exponent?_exponentSpelling, Digits.digitsValue_spelling, Digits.spelling, List.length_map]
  rfl

end Numeral

end NoiseFile
