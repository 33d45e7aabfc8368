import Mathlib.Data.List.DropRight

/-!
# Texts and their characters

* `exists_stretch`, `takeWhile_stretch`, `dropWhile_stretch` : a row is cut where a stretch of characters of one kind
  ends;
* `splitLast` : a row is cut at the last of some character (`splitLast_append`);
* `not_mem_toList`, `toList_append_four` : the characters of texts that are written out, without decoding them.
-/

namespace NoiseFile

/-! ## Stretches -/

/-- Every row begins with a stretch of one kind, empty perhaps. -/
theorem exists_stretch {α : Type} (p : α → Bool) (row : List α) :
    ∃ stretch rest, row = stretch ++ rest ∧ (∀ a ∈ stretch, p a = true) ∧ ∀ a ∈ rest.head?, p a = false := by
  induction row with
  | nil => exact ⟨[], [], rfl, by simp, by simp⟩
  | cons a row ih =>
      cases ha : p a with
      | false => exact ⟨[], a :: row, rfl, by simp, by simp [ha]⟩
      | true =>
          obtain ⟨stretch, rest, rfl, hstretch, hrest⟩ := ih
          exact ⟨a :: stretch, rest, rfl, List.forall_mem_cons.mpr ⟨ha, hstretch⟩, hrest⟩

section Stretches
variable {α : Type} {p : α → Bool} {stretch rest : List α} (hstretch : ∀ a ∈ stretch, p a = true)
  (hrest : ∀ a ∈ rest.head?, p a = false)
include hstretch hrest

/-- A stretch of one kind is taken up to where something else begins. -/
theorem takeWhile_stretch : (stretch ++ rest).takeWhile p = stretch := by
  rw [List.takeWhile_append_of_pos hstretch]
  cases rest with
  | nil => simp
  | cons a as => simp [hrest a rfl]

theorem dropWhile_stretch : (stretch ++ rest).dropWhile p = rest := by
  rw [List.dropWhile_append_of_pos hstretch]
  cases rest with
  | nil => rfl
  | cons a as => simp [hrest a rfl]

end Stretches

/-- What stands before the last such character of a row, and what stands behind it. -/
def splitLast (c : Char) (cs : List Char) : List Char × List Char :=
  ((cs.rdropWhile (· != c)).dropLast, cs.rtakeWhile (· != c))

theorem splitLast_append {c : Char} (before : List Char) {behind : List Char} (h : c ∉ behind) :
    splitLast c (before ++ c :: behind) = (before, behind) := by
  have hreverse : before ++ c :: behind = (behind.reverse ++ c :: before.reverse).reverse := by simp
  have hbehind : ∀ d ∈ behind.reverse, (d != c) = true := fun d hd =>
    bne_iff_ne.mpr (ne_of_mem_of_not_mem (List.mem_reverse.mp hd) h)
  have hfront : ∀ d ∈ (c :: before.reverse).head?, (d != c) = false := by simp
  rw [splitLast, hreverse, List.rtakeWhile_reverse, List.rdropWhile_reverse, takeWhile_stretch hbehind hfront,
    dropWhile_stretch hbehind hfront]
  simp

/-! ## Literals -/

/-- The kernel reads a literal as its characters, so that nothing needs to be decoded for this. -/
theorem not_mem_toList {c : Char} {cs : List Char} (h : c ∉ cs) : c ∉ (String.ofList cs).toList := by
  rwa [String.toList_ofList]

/-- With literals in the place of the texts, rewriting would decode them. -/
theorem toList_append_four (a b c d : String) :
    (a ++ b ++ c ++ d).toList = a.toList ++ (b.toList ++ (c ++ d).toList) := by
  simp only [String.toList_append, List.append_assoc]

end NoiseFile
