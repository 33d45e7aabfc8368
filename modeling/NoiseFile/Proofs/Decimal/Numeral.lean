import Mathlib.Data.Nat.Digits.Defs
import Mathlib.Tactic.FieldSimp
import Mathlib.Tactic.Linarith
import NoiseFile.Binary64.Literal

/-!
# Decimal numerals

* `Numeral` : a decimal number as it is written: a sign, digits with a point or without, an exponent or none;
  `Numeral.spelling` is its text and `Numeral.value` what it stands for, by the places of its digits;
* `value_eq` : the value counted by the last digit;
* `Digits.exists_spelling` : every row of digit characters is the text of a row of digits.
-/

namespace NoiseFile

/-! ## Rows of digits -/

namespace Digits

def spelling (digits : List (Fin 10)) : List Char := digits.map fun digit : Fin 10 => Nat.digitChar digit.val

/-- What a row of digits stands for, the last digit counting ones. -/
def value (digits : List (Fin 10)) : Nat := Nat.ofDigits 10 (digits.reverse.map Fin.val)

theorem spelling_append (digits more : List (Fin 10)) : spelling (digits ++ more) = spelling digits ++ spelling more :=
  List.map_append

theorem value_append (digits more : List (Fin 10)) :
    value (digits ++ more) = value digits * 10 ^ more.length + value more := by
  rw [value, List.reverse_append, List.map_append, Nat.ofDigits_append, List.length_map, List.length_reverse]
  unfold value
  ring

theorem isDigit_of_mem_spelling {digits : List (Fin 10)} {c : Char} (h : c ∈ spelling digits) : c.isDigit = true := by
  obtain ⟨digit, -, rfl⟩ := List.mem_map.mp h
  rw [Nat.isDigit_digitChar]
  exact decide_eq_true digit.isLt

theorem spelling_eq_nil_iff (digits : List (Fin 10)) : spelling digits = [] ↔ digits = [] := List.map_eq_nil_iff

theorem digitValue_digitChar (digit : Fin 10) : Literal.digitValue (Nat.digitChar digit.val) = digit.val := by
  revert digit
  decide

theorem digitsValue_spelling (digits : List (Fin 10)) : Literal.digitsValue (spelling digits) = value digits := by
  unfold Literal.digitsValue spelling value
  rw [List.foldl_map, Nat.ofDigits_eq_foldr, List.map_reverse, List.foldr_reverse, List.foldl_map]
  simp only [digitValue_digitChar, Nat.cast_id, Nat.add_comm]

theorem exists_digitChar {c : Char} (h : c.isDigit = true) : ∃ digit : Fin 10, Nat.digitChar digit.val = c := by
  have hrange := Char.isDigit_iff_toNat.mp h
  have hlow : 48 ≤ c.toNat := hrange.1
  have hhigh : c.toNat ≤ 57 := hrange.2
  have hchar : ∀ digit : Fin 10, Nat.digitChar digit.val = Char.ofNat (digit.val + 48) := by decide
  refine ⟨⟨c.toNat - 48, by omega⟩, ?_⟩
  rw [hchar, Nat.sub_add_cancel hlow, Char.ofNat_toNat]

theorem exists_spelling {cs : List Char} (h : ∀ c ∈ cs, c.isDigit = true) : ∃ digits, spelling digits = cs := by
  induction cs with
  | nil => exact ⟨[], rfl⟩
  | cons c cs ih =>
      obtain ⟨digits, rfl⟩ := ih fun d hd => h d (List.mem_cons_of_mem c hd)
      obtain ⟨digit, rfl⟩ := exists_digitChar (h c (List.mem_cons_self ..))
      exact ⟨digit :: digits, rfl⟩

end Digits

/-! ## Numerals -/

inductive Sign
  | none
  | plus
  | minus
  deriving DecidableEq

namespace Sign

def spelling : Sign → List Char
  | .none => []
  | .plus => ['+']
  | .minus => ['-']

def factor : Sign → Int
  | .minus => -1
  | _ => 1

def isMinus (sign : Sign) : Bool := decide (sign = .minus)

end Sign

structure Exponent where
  /-- Whether its letter is a capital. -/
  capital : Bool
  sign : Sign
  digits : List (Fin 10)
  digits_ne_nil : digits ≠ []

namespace Exponent

def spelling (exponent : Exponent) : List Char :=
  (if exponent.capital then 'E' else 'e') :: (exponent.sign.spelling ++ Digits.spelling exponent.digits)

def value (exponent : Exponent) : Int := exponent.sign.factor * Digits.value exponent.digits

end Exponent

structure Numeral where
  sign : Sign
  whole : List (Fin 10)
  /-- The digits behind the point, if there is a point. -/
  fraction : Option (List (Fin 10))
  exponent : Option Exponent
  digits_ne_nil : whole ++ fraction.getD [] ≠ []

namespace Numeral

/-- The point and the digits behind it. -/
def fractionSpelling (numeral : Numeral) : List Char :=
  numeral.fraction.elim [] fun digits => '.' :: Digits.spelling digits

def exponentSpelling (numeral : Numeral) : List Char := numeral.exponent.elim [] Exponent.spelling

def spelling (numeral : Numeral) : List Char :=
  numeral.sign.spelling ++ (Digits.spelling numeral.whole ++ (numeral.fractionSpelling ++ numeral.exponentSpelling))

def fractionDigits (numeral : Numeral) : List (Fin 10) := numeral.fraction.getD []

/-- All digits, those behind the point included. -/
def digits (numeral : Numeral) : List (Fin 10) := numeral.whole ++ numeral.fractionDigits

/-- The exponent, which is zero if none is written. -/
def power (numeral : Numeral) : Int := numeral.exponent.elim 0 Exponent.value

def value (numeral : Numeral) : ℚ :=
  numeral.sign.factor * (Digits.value numeral.whole +
    Digits.value numeral.fractionDigits / 10 ^ numeral.fractionDigits.length) * 10 ^ numeral.power

/-- The value counted by the last digit. -/
theorem value_eq (numeral : Numeral) :
    numeral.value = numeral.sign.factor * Digits.value numeral.digits *
      10 ^ (numeral.power - numeral.fractionDigits.length) := by
  rw [digits, Digits.value_append, value, zpow_sub₀ (by norm_num), zpow_natCast]
  push_cast
  field_simp

end Numeral

end NoiseFile
