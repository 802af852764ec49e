import ContractLens.Text.Blank
import ContractLens.Text.Case
import ContractLens.Text.Scan
import Mathlib.Algebra.Ring.Nat
/-!
# Lengths of scanned texts

Scanning makes nothing longer: what a reading leaves is no longer than what it was given, a text has
no more readings than characters, and its lines with their ends are together as long as the text.
Only lower-casing can make a text longer, since one letter has a small form of two characters.
-/

namespace ContractLens.Text

/-! ## What is left of a text -/

theorem length_dropStart? {part cs rest : List Char} (h : dropStart? part cs = some rest) :
    rest.length ≤ cs.length := by
  induction part generalizing cs with
  | nil =>
    cases h
    exact Nat.le_refl _
  | cons p part ih =>
    cases cs with
    | nil => cases h
    | cons c cs =>
      rw [dropStart?] at h
      split at h
      · exact Nat.le_succ_of_le (ih h)
      · cases h

theorem length_dropWhile (p : Char → Bool) (cs : List Char) :
    (cs.dropWhile p).length ≤ cs.length :=
  (List.dropWhile_sublist p).length_le

theorem length_trimBy (p : Char → Bool) (cs : List Char) : (trimBy p cs).length ≤ cs.length := by
  rw [trimBy, List.length_reverse]
  refine Nat.le_trans (length_dropWhile p _) ?_
  rw [List.length_reverse]
  exact length_dropWhile p cs

/-! ## Readings and lines -/

theorem length_findAllFrom {α : Type} (read : Recogniser α) (afterWord : Bool) (skip : Nat)
    (cs : List Char) : (findAllFrom read afterWord skip cs).length ≤ cs.length := by
  induction cs generalizing afterWord skip with
  | nil => exact Nat.le_refl _
  | cons c cs ih =>
    cases skip with
    | succ skip => exact Nat.le_succ_of_le (ih _ _)
    | zero =>
      rw [findAllFrom]
      split
      · exact Nat.succ_le_succ (ih _ _)
      · exact Nat.le_succ_of_le (ih _ _)

/-- **A text has no more readings than characters.** -/
theorem length_findAll {α : Type} (read : Recogniser α) (cs : List Char) :
    (findAll read cs).length ≤ cs.length :=
  length_findAllFrom read false 0 cs

/-- How long some lines are together, each with its end. -/
def linesLength (lines : List (List Char)) : Nat := (lines.map fun line => line.length + 1).sum

theorem linesLength_cons (line : List Char) (lines : List (List Char)) :
    linesLength (line :: lines) = line.length + 1 + linesLength lines := by
  rw [linesLength, List.map_cons, List.sum_cons, ← linesLength]

theorem length_le_linesLength (lines : List (List Char)) : lines.length ≤ linesLength lines := by
  induction lines with
  | nil => exact Nat.le_refl _
  | cons line lines ih =>
    rw [linesLength_cons, List.length_cons]
    omega

/-- The parts of a text are together as long as the text. -/
theorem linesLength_splitAt (mark : Char) (cs : List Char) :
    linesLength (splitAt mark cs) = cs.length + 1 := by
  induction cs with
  | nil => rfl
  | cons c cs ih =>
    rw [splitAt]
    split
    · rw [linesLength_cons, ih, List.length_nil, List.length_cons]
      omega
    · split
      · rename_i hnil
        rw [hnil] at ih
        cases ih
      · rename_i part parts hparts
        rw [hparts, linesLength_cons] at ih
        rw [linesLength_cons, List.length_cons, List.length_cons]
        omega

theorem linesLength_map_trim (lines : List (List Char)) :
    linesLength (lines.map trim) ≤ linesLength lines := by
  induction lines with
  | nil => exact Nat.le_refl _
  | cons line lines ih =>
    have hline := length_trimBy isBlank line
    rw [List.map_cons, linesLength_cons, linesLength_cons, trim]
    omega

theorem length_flatMap_findAll {α : Type} (read : Recogniser α) (lines : List (List Char)) :
    (lines.flatMap (findAll read)).length ≤ linesLength lines := by
  induction lines with
  | nil => exact Nat.le_refl _
  | cons line lines ih =>
    have hline := length_findAll read line
    rw [List.flatMap_cons, List.length_append, linesLength_cons]
    omega

/-! ## Lower case -/

theorem length_lowerFrom (cased : Bool) (cs : List Char) :
    (lowerFrom cased cs).length ≤ 2 * cs.length := by
  induction cs generalizing cased with
  | nil => exact Nat.le_refl _
  | cons c cs ih =>
    rw [lowerFrom, List.length_cons]
    split
    · rw [List.length_cons]
      exact Nat.le_trans (Nat.succ_le_succ (ih _)) (by omega)
    split
    · rw [List.length_cons, List.length_cons]
      exact Nat.succ_le_succ (Nat.succ_le_succ (ih _))
    · rw [List.length_cons]
      exact Nat.le_trans (Nat.succ_le_succ (ih _)) (by omega)

theorem length_lower (cs : List Char) : (lower cs).length ≤ 2 * cs.length :=
  length_lowerFrom false cs

end ContractLens.Text
