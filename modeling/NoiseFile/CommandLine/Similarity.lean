import NoiseFile.Binary64.Rounding

/-!
# Similarity of words

How close two words are, from zero to one, with every step rounded to binary64.

* `matching` : pairs the characters of one word, in order, with equal ones of the other that stand near;
* `agreement` : the mean of three shares, of each word that is matched and of the matches that are in order;
* `closeness` : the same with a bonus for a common beginning.
-/

namespace NoiseFile.CommandLine.Similarity

open Binary64

/-- The matches found so far: how many, how many of them lie before an earlier one, the greatest index matched, and
the indices used. -/
structure Matching where
  count : Nat := 0
  crossed : Nat := 0
  furthest : Nat := 0
  used : List Nat := []

/-- The first index from `low` to before `high` that holds the character and is not used. -/
def firstFree? (word : List Char) (used : List Nat) (c : Char) (low high : Nat) : Option Nat :=
  (List.range high).find? fun j => decide (low ≤ j) && word[j]? == some c && !used.contains j

/-- Matches one character, at index `i`, with one of the other word within `reach`. -/
def Matching.step (other : List Char) (reach : Nat) (found : Matching) (i : Nat) (c : Char) : Matching :=
  match firstFree? other found.used c (i - reach) (min other.length (i + reach + 1)) with
  | none => found
  | some j => {
      count := found.count + 1
      crossed := if j < found.furthest then found.crossed + 1 else found.crossed
      furthest := j
      used := j :: found.used }

def matchFrom (other : List Char) (reach : Nat) : Nat → Matching → List Char → Matching
  | _, found, [] => found
  | i, found, c :: cs => matchFrom other reach (i + 1) (found.step other reach i c) cs

def matching (word other : List Char) : Matching :=
  matchFrom other (max word.length other.length / 2 - 1) 0 {} word

def share (part whole : Nat) : Binary64 := (ofNat part).div (ofNat whole)

def agreement (word other : List Char) : Binary64 :=
  if word = [] ∧ other = [] then ofNat 1
  else if word = [] ∨ other = [] then ofNat 0
  else if word.length = 1 ∧ other.length = 1 then ofNat (if word = other then 1 else 0)
  else
    let found := matching word other
    if found.count = 0 then ofNat 0
    else
      (share 1 3).mul (((share found.count word.length).add (share found.count other.length)).add
        (((ofNat found.count).sub (ofNat found.crossed)).div (ofNat found.count)))

def commonStart : List Char → List Char → Nat
  | a :: as, b :: bs => if a = b then commonStart as bs + 1 else 0
  | _, _ => 0

def closeness (word other : List Char) : Binary64 :=
  let near := agreement word other
  let score := near.add (((share 1 10).mul (ofNat (commonStart word other))).mul ((ofNat 1).sub near))
  if score.isLess (ofNat 1) then score else ofNat 1

end NoiseFile.CommandLine.Similarity
