import NoiseFile.Proofs.Binary64.Shortest
import NoiseFile.Proofs.Size.ByteCount
import NoiseFile.Request

/-!
# A size and its own text

* `parseSize_text` : the text of a size is read as that size, and refused if the size is, for the same reason;
* `checkSize_cases` : which sizes are refused, and why;
* `sizeText_reads_back` : so a request without a text of its own shows a text that stands for its size alone.
-/

namespace NoiseFile

open Binary64

theorem parseSize_text (size : Binary64) : parseSize size.text = (checkSize size).map fun _ => size := by
  obtain ⟨literal, hparse, hliteral⟩ := parse?_text size
  simp only [parseSize, hparse, hliteral]
  by_cases hnan : size.isNaN = true
  · -- every NaN reads as the quiet one, and both are refused
    have hfinite : size.isFinite = false := decide_eq_false (Nat.not_lt.mpr (of_decide_eq_true hnan).le)
    have hquiet : checkSize nan = .error .notFinite := by decide
    rw [if_pos hnan, hquiet, checkSize, hfinite]
    rfl
  · rw [if_neg hnan]

/-- No two numbers have one text, NaN aside. -/
theorem eq_of_text {x y : Binary64} (hx : x.isNaN = false) (hy : y.isNaN = false) (h : x.text = y.text) : x = y := by
  obtain ⟨literal, hparse, hliteral⟩ := parse?_text x
  obtain ⟨other, hother, hvalue⟩ := parse?_text y
  rw [h, hother] at hparse
  rw [hx, if_neg Bool.false_ne_true] at hliteral
  rw [hy, if_neg Bool.false_ne_true] at hvalue
  rw [← hliteral, ← hvalue, Option.some.inj hparse]

/-! ## Refused sizes -/

theorem signedUnits_neg_iff (x : Binary64) : x.signedUnits < 0 ↔ x.negative = true ∧ 0 < x.field := by
  have hpos : 0 < x.units ↔ 0 < x.field := by
    rw [units, ← unitsOf_strictMono.lt_iff_lt (b := x.field), unitsOf_zero]
  unfold signedUnits
  split
  · next hnegative =>
    rw [← hpos]
    simp [hnegative]
  · next hnegative => simp [hnegative]

theorem isFinite_eq_false_iff (x : Binary64) :
    x.isFinite = false ↔ x.isNaN = true ∨ x = infinity false ∨ x = infinity true := by
  have hinfinity : infinityField < signBit := by decide
  unfold isFinite isNaN
  rw [decide_eq_false_iff_not, decide_eq_true_iff, Nat.not_lt, Nat.le_iff_lt_or_eq]
  refine or_congr_right ⟨fun hfield => ?_, ?_⟩
  · rw [infinity, infinity, hfield, ← Bool.exists_bool (p := fun negative => x = ofField negative x.field)]
    exact ⟨_, (ofField_eta x).symm⟩
  · rintro (rfl | rfl) <;> exact (field_ofField hinfinity).symm

theorem checkSize_cases (size : Binary64) :
    (checkSize size = .ok () ↔ size.isFinite = true ∧ 0 ≤ size.signedUnits) ∧
      (checkSize size = .error .notFinite ↔ size.isNaN = true ∨ size = infinity false ∨ size = infinity true) ∧
      (checkSize size = .error .negative ↔ size.isFinite = true ∧ size.signedUnits < 0) := by
  rw [← isFinite_eq_false_iff, ← not_lt, signedUnits_neg_iff]
  unfold checkSize isBelowZero
  cases hfinite : size.isFinite with
  | false => simp
  | true =>
      have hnan : size.isNaN = false := decide_eq_false (Nat.not_lt.mpr (of_decide_eq_true hfinite).le)
      by_cases hbelow : size.negative = true ∧ 0 < size.field
      · simp [hnan, hbelow]
      · simp [hnan, hbelow]

theorem checkSize_fault {size : Binary64} {fault : SizeFault} (h : checkSize size = .error fault) :
    fault = .notFinite ∨ fault = .negative := by
  unfold checkSize at h
  split at h
  · cases h
    exact .inl rfl
  · split at h
    · cases h
      exact .inr rfl
    · cases h

/-- The text that a request shows for its size reads back as that size, bit for bit, if the size is accepted; else it is
refused as the size is: NaN and the infinities as not finite, what is below zero as negative. And two requests for
numbers show the same text only if the numbers are the same. -/
theorem sizeText_reads_back (outFile otherFile : String) (size other : Binary64) :
    (checkSize size = .ok () → parseSize (Request.new outFile size).sizeText = .ok size) ∧
      (∀ fault, checkSize size = .error fault → parseSize (Request.new outFile size).sizeText = .error fault) ∧
      (checkSize size = .ok () ↔ size.isFinite = true ∧ 0 ≤ size.signedUnits) ∧
      (checkSize size = .error .notFinite ↔ size.isNaN = true ∨ size = infinity false ∨ size = infinity true) ∧
      (checkSize size = .error .negative ↔ size.isFinite = true ∧ size.signedUnits < 0) ∧
      (size.isNaN = false → other.isNaN = false →
        (Request.new outFile size).sizeText = (Request.new otherFile other).sizeText → size.bits = other.bits) := by
  have hread : parseSize (Request.new outFile size).sizeText = (checkSize size).map fun _ => size := parseSize_text size
  obtain ⟨hok, hinfinite, hnegative⟩ := checkSize_cases size
  refine ⟨?_, ?_, hok, hinfinite, hnegative, ?_⟩
  · intro haccepted
    rw [hread, haccepted]
    rfl
  · intro fault hrefused
    rw [hread, hrefused]
    rfl
  · intro hsize hother htext
    rw [eq_of_text hsize hother htext]

/-- The negative zero, the smallest number above zero, and the negative of that number. -/
theorem sizeText_reads_back_about_zero :
    parseSize (Request.new "a" ⟨0x8000000000000000⟩).sizeText = .ok ⟨0x8000000000000000⟩ ∧
      parseSize (Request.new "a" ⟨1⟩).sizeText = .ok ⟨1⟩ ∧
      parseSize (Request.new "a" ⟨0x8000000000000001⟩).sizeText = .error .negative ∧
      (Request.new "a" ⟨0x8000000000000000⟩).sizeText ≠ (Request.new "b" ⟨0⟩).sizeText := by
  obtain ⟨hzero, -, -, -, -, hdiffer⟩ := sizeText_reads_back "a" "b" ⟨0x8000000000000000⟩ ⟨0⟩
  obtain ⟨htiny, -⟩ := sizeText_reads_back "a" "b" ⟨1⟩ ⟨0⟩
  obtain ⟨-, hbelow, -⟩ := sizeText_reads_back "a" "b" ⟨0x8000000000000001⟩ ⟨0⟩
  exact ⟨hzero (by decide), htiny (by decide), hbelow _ (by decide),
    fun htext => absurd (hdiffer (by decide) (by decide) htext) (by decide)⟩

end NoiseFile
