import ContractLens.Proofs.Text.Keyword
import ContractLens.Source.Scan
import Mathlib.Algebra.Order.BigOperators.Group.List
import Mathlib.Algebra.Order.Group.Nat
import Mathlib.Algebra.Ring.Nat
/-!
# The bodies of the contracts of a file

What is read of a declaration ends before its opening brace (`opened_headOf?`), so the first
line of a body is what that line holds after the brace. The other lines of a body hold no
declaration, and stand between the declaration and the next one (`extent_prefix_leading`). Hence no
line is in two bodies, and whatever is weighed line by line weighs in the bodies together no more
than in the file (`bodyWeight_scanLines_le`).
-/

namespace ContractLens

open Text

/-! ## The opening brace -/

/-- What is left of a text is the end of it from an opening brace on. -/
def Opened (cs left : List Char) : Prop :=
  ∃ before body, cs = before ++ '\x7b' :: body ∧ left = '\x7b' :: body

theorem Opened.of_suffix {whole cs left : List Char} (hsuffix : cs <:+ whole)
    (h : Opened cs left) : Opened whole left := by
  obtain ⟨start, rfl⟩ := hsuffix
  obtain ⟨before, body, rfl, rfl⟩ := h
  exact ⟨start ++ before, body, (List.append_assoc _ _ _).symm, rfl⟩

theorem Opened.length_le {cs left : List Char} (h : Opened cs left) : left.length ≤ cs.length := by
  obtain ⟨before, body, rfl, rfl⟩ := h
  exact (List.suffix_append _ _).length_le

/-- A text that is not used up by what is no brace goes on with one. -/
theorem opened_dropWhile {cs : List Char} (h : (cs.dropWhile (· != '\x7b')).isEmpty = false) :
    Opened cs (cs.dropWhile (· != '\x7b')) := by
  have hsplit : cs = cs.takeWhile (· != '\x7b') ++ cs.dropWhile (· != '\x7b') :=
    List.takeWhile_append_dropWhile.symm
  have hhead := head?_dropWhile_eq_false (· != '\x7b') cs
  cases hleft : cs.dropWhile (· != '\x7b') with
  | nil =>
    rw [hleft] at h
    cases h
  | cons c body =>
    rw [hleft] at hhead hsplit
    have hbrace : c = '\x7b' := by simpa using hhead c rfl
    rw [hbrace] at hsplit ⊢
    exact ⟨_, body, hsplit, rfl⟩

theorem Declaration.opened_readBases? {cs bases left : List Char}
    (h : readBases? cs = some (bases, left)) : Opened cs left := by
  simp only [readBases?, Option.bind_eq_bind, Option.bind_eq_some_iff] at h
  obtain ⟨first, hblanks, second, his, h⟩ := h
  split at h
  · cases h
  · rename_i hopen
    rw [Bool.or_eq_true, not_or, Bool.not_eq_true, Bool.not_eq_true] at hopen
    obtain ⟨blanks, rfl, -⟩ := dropBlanks?_eq_some_iff.mp hblanks
    obtain rfl := dropStart?_eq_some_iff.mp his
    have hwhole : Opened (blanks ++ (['i', 's'] ++ second))
        ((second.dropWhile isBlank).dropWhile (· != '\x7b')) :=
      (opened_dropWhile hopen.2).of_suffix ((List.dropWhile_suffix _).trans
        ((List.suffix_append _ _).trans (List.suffix_append _ _)))
    split at h
    · cases h
      exact hwhole
    split at h
    · obtain ⟨last, -, hfound⟩ := Option.map_eq_some_iff.mp h
      cases hfound
      exact hwhole
    · cases h

/-- What is read of a declaration ends before its opening brace. -/
theorem Declaration.opened_head {afterWord : Bool} {cs left : List Char} {found : Head}
    (h : head afterWord cs = some (found, left)) : Opened cs left := by
  simp only [head, Option.bind_eq_bind, Option.bind_eq_some_iff] at h
  obtain ⟨⟨⟨⟩, first⟩, hword, second, hblanks, ⟨name, third⟩, hname, h⟩ := h
  obtain ⟨-, rfl⟩ := keyword_eq_some_iff.mp hword
  obtain ⟨blanks, rfl, -⟩ := dropBlanks?_eq_some_iff.mp hblanks
  obtain ⟨rfl, -⟩ := takeWord?_eq_some_iff.mp hname
  have hthird : third <:+ "contract".toList ++ (blanks ++ (name ++ third)) :=
    (List.suffix_append _ _).trans ((List.suffix_append _ _).trans (List.suffix_append _ _))
  dsimp only at h
  split at h
  · rename_i bases after hbases
    cases h
    exact (opened_readBases? hbases).of_suffix hthird
  split at h
  · rename_i after hopen
    cases h
    refine Opened.of_suffix hthird ⟨third.takeWhile isBlank, after, ?_, rfl⟩
    rw [← hopen, List.takeWhile_append_dropWhile]
  · cases h

theorem opened_findFirstFrom? {α : Type} {read : Recogniser α}
    (hread : ∀ afterWord cs a left, read afterWord cs = some (a, left) → Opened cs left)
    {afterWord : Bool} {cs : List Char} {found : Found α}
    (h : findFirstFrom? read afterWord cs = some found) : Opened cs found.after := by
  induction cs generalizing afterWord found with
  | nil => cases h
  | cons c cs ih =>
    rw [findFirstFrom?] at h
    split at h
    · rename_i a left hfound
      cases h
      exact hread _ _ _ _ hfound
    · obtain ⟨inner, hinner, hfound⟩ := Option.map_eq_some_iff.mp h
      have hopened := ih hinner
      cases hfound
      exact hopened.of_suffix (List.suffix_cons c cs)

namespace Source

/-- **What follows a declaration starts with its opening brace.** -/
theorem opened_headOf? {line : List Char} {found : Found Declaration.Head}
    (h : headOf? line = some found) : Opened line found.after :=
  opened_findFirstFrom? (fun _ _ _ _ => Declaration.opened_head) h

/-! ## Lines of bodies -/

/-- The lines before the first declaration. -/
def leading (lines : List (List Char)) : List (List Char) :=
  lines.takeWhile fun line => (headOf? line).isNone

theorem leading_cons_of_some {line : List Char} {found : Found Declaration.Head}
    (h : headOf? line = some found) (lines : List (List Char)) : leading (line :: lines) = [] := by
  rw [leading, List.takeWhile_cons_of_neg (by rw [h]; simp)]

theorem leading_cons_of_none {line : List Char} (h : headOf? line = none)
    (lines : List (List Char)) : leading (line :: lines) = line :: leading lines := by
  rw [leading, List.takeWhile_cons_of_pos (by rw [h]; rfl), leading]

/-- **An extent ends before the next declaration.** -/
theorem extent_prefix_leading (depth : Int) (lines : List (List Char)) :
    extent depth lines <+: leading lines := by
  induction lines generalizing depth with
  | nil => exact List.nil_prefix
  | cons line lines ih =>
    rw [extent]
    split
    · exact List.nil_prefix
    split
    · exact List.nil_prefix
    · rename_i hhead
      rw [leading_cons_of_none (by simpa using hhead)]
      exact List.cons_prefix_cons.mpr ⟨rfl, ih _⟩

/-- What the bodies of some contracts weigh, line by line. -/
def bodyWeight (weight : List Char → Nat) (scanned : List ScannedContract) : Nat :=
  (scanned.map fun entry => (entry.body.map weight).sum).sum

theorem bodyWeight_cons (weight : List Char → Nat) (entry : ScannedContract)
    (scanned : List ScannedContract) :
    bodyWeight weight (entry :: scanned) =
      (entry.body.map weight).sum + bodyWeight weight scanned := by
  rw [bodyWeight, List.map_cons, List.sum_cons, ← bodyWeight]

section Weight

variable {weight : List Char → Nat}

theorem sum_extent_le (weight : List Char → Nat) (depth : Int) (lines : List (List Char)) :
    ((extent depth lines).map weight).sum ≤ ((leading lines).map weight).sum :=
  ((extent_prefix_leading depth lines).map weight).sublist.sum_le_sum fun _ _ => Nat.zero_le _

/-- The lines before the first declaration are in no body, so their weight comes on top. -/
theorem bodyWeight_add_leading_le
    (hbody : ∀ line found, headOf? line = some found → weight (found.after.drop 1) ≤ weight line)
    (path : String) (start : Nat) (lines : List (List Char)) :
    bodyWeight weight (scanLines path start lines) + ((leading lines).map weight).sum ≤
      (lines.map weight).sum := by
  induction lines generalizing start with
  | nil => exact Nat.le_refl _
  | cons line lines ih =>
    specialize ih (start + 1)
    rw [scanLines, List.map_cons, List.sum_cons]
    split
    · rename_i found hfound
      have hfirst := hbody line found hfound
      have hextent := sum_extent_le weight (braceBalance found.after) lines
      rw [leading_cons_of_some hfound, bodyWeight_cons, contractOf, List.map_cons, List.sum_cons,
        List.map_nil, List.sum_nil]
      omega
    · rename_i hnone
      rw [leading_cons_of_none hnone, List.map_cons, List.sum_cons]
      omega

/-- **The bodies weigh together no more than the lines.** -/
theorem bodyWeight_scanLines_le
    (hbody : ∀ line found, headOf? line = some found → weight (found.after.drop 1) ≤ weight line)
    (path : String) (start : Nat) (lines : List (List Char)) :
    bodyWeight weight (scanLines path start lines) ≤ (lines.map weight).sum :=
  Nat.le_trans (Nat.le_add_right _ _) (bodyWeight_add_leading_le hbody path start lines)

end Weight

end Source

end ContractLens
