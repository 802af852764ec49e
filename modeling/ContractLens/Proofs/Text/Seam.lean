import ContractLens.Proofs.Text.Place
/-!
# Searches of two texts put together

When two texts are put together, a search may find what it finds in neither: a reading of the first
may go on into the second. Where none does (`Apart`), the search finds in the whole just what it
finds in the two (`findAll_append`).

Otherwise two things can be said. A search of the whole starts with what a search of the first text
finds, if a reading that goes on into the second can only be the last (`findAllFrom_prefix_append`).
And it goes on with what a search of the second text finds, from its start or from where the one
reading ends that crosses over to it (`continues_findAllFrom`).
-/

namespace ContractLens.Text

variable {α : Type} {read : Recogniser α}

/-! ## One step of a search -/

theorem findAllFrom_of_none {afterWord : Bool} {c : Char} {cs : List Char}
    (h : read afterWord (c :: cs) = none) :
    findAllFrom read afterWord 0 (c :: cs) = findAllFrom read (isWordChar c) 0 cs := by
  rw [findAllFrom, h]

theorem findAllFrom_of_some {afterWord : Bool} {c : Char} {cs left : List Char} {a : α}
    (h : read afterWord (c :: cs) = some (a, left)) :
    findAllFrom read afterWord 0 (c :: cs) =
      a :: findAllFrom read (isWordChar c) (cs.length - left.length) cs := by
  rw [findAllFrom, h]

theorem findAllFrom_length_add (afterWord : Bool) (cs : List Char) (skip : Nat)
    (rest : List Char) : findAllFrom read afterWord (cs.length + skip) (cs ++ rest) =
      findAllFrom read (wordBefore afterWord cs) skip rest := by
  induction cs generalizing afterWord with
  | nil => rw [List.length_nil, Nat.zero_add, List.nil_append, wordBefore]
  | cons c cs ih =>
    rw [List.length_cons, Nat.add_right_comm, List.cons_append, findAllFrom, ih, wordBefore]

/-- After a reading a search goes on behind what was taken. -/
theorem findAllFrom_of_taken {afterWord : Bool} {taken left : List Char} {a : α}
    (hne : taken ≠ []) (h : read afterWord (taken ++ left) = some (a, left)) :
    findAllFrom read afterWord 0 (taken ++ left) =
      a :: findAllFrom read (wordBefore afterWord taken) 0 left := by
  obtain ⟨c, cs, rfl⟩ := List.exists_cons_of_ne_nil hne
  rw [List.cons_append] at h ⊢
  rw [findAllFrom_of_some h, List.length_append, Nat.add_sub_cancel]
  exact congrArg (a :: ·) (findAllFrom_length_add _ cs 0 left)

theorem length_append_sub (cs left rest : List Char) :
    (cs ++ rest).length - (left ++ rest).length = cs.length - left.length := by
  rw [List.length_append, List.length_append, Nat.add_sub_add_right]

/-! ## Readings that keep apart -/

/-- What follows a text does not matter to the readings that start in it. -/
def Apart (read : Recogniser α) (afterWord : Bool) (cs rest : List Char) : Prop :=
  ∀ before inner, cs = before ++ inner → inner ≠ [] →
    read (wordBefore afterWord before) (inner ++ rest) =
      (read (wordBefore afterWord before) inner).map fun found => (found.1, found.2 ++ rest)

theorem Apart.tail {afterWord : Bool} {c : Char} {cs rest : List Char}
    (h : Apart read afterWord (c :: cs) rest) : Apart read (isWordChar c) cs rest := by
  rintro before inner rfl hne
  exact h (c :: before) inner rfl hne

/-- **A search of two parts that are apart finds what it finds in each.** -/
theorem findAllFrom_append {cs rest : List Char} {skip : Nat} {afterWord : Bool}
    (h : Apart read afterWord cs rest) (hskip : skip ≤ cs.length) :
    findAllFrom read afterWord skip (cs ++ rest) =
      findAllFrom read afterWord skip cs ++
        findAllFrom read (wordBefore afterWord cs) 0 rest := by
  induction cs generalizing afterWord skip with
  | nil =>
    rw [Nat.le_zero.mp hskip]
    rfl
  | cons c cs ih =>
    cases skip with
    | succ skip => exact ih h.tail (Nat.le_of_succ_le_succ hskip)
    | zero =>
      have hwhole := h [] (c :: cs) rfl (List.cons_ne_nil _ _)
      rw [wordBefore, List.cons_append] at hwhole
      rw [List.cons_append, wordBefore]
      cases hread : read afterWord (c :: cs) with
      | none =>
        rw [hread] at hwhole
        rw [findAllFrom_of_none hread, findAllFrom_of_none hwhole]
        exact ih h.tail (Nat.zero_le _)
      | some found =>
        rw [hread] at hwhole
        rw [findAllFrom_of_some hread, findAllFrom_of_some hwhole, length_append_sub,
          ih h.tail (Nat.sub_le _ _), List.cons_append]

theorem findAll_append {cs rest : List Char} (h : Apart read false cs rest)
    (hends : wordBefore false cs = false) :
    findAll read (cs ++ rest) = findAll read cs ++ findAll read rest := by
  rw [findAll, findAllFrom_append h (Nat.zero_le _), hends, findAll, findAll]

/-! ## Readings that may reach across -/

/-- A recogniser that tells where a text goes on, once it has found something behind. -/
structure Growing (read : Recogniser α) (rest : List Char) : Prop where
  /-- A reading is the same when the text goes on. -/
  stays : ∀ {afterWord cs a left}, read afterWord cs = some (a, left) →
    read afterWord (cs ++ rest) = some (a, left ++ rest)
  /-- What is read only because the text goes on starts behind the last reading. -/
  last : ∀ {afterWord c cs}, read afterWord (c :: cs) = none →
    (read afterWord (c :: (cs ++ rest))).isSome = true →
      findAllFrom read (isWordChar c) 0 cs = []

/-- **A search of a text that goes on starts with what a search of the text finds.** -/
theorem findAllFrom_prefix_append {rest : List Char} (h : Growing read rest) {cs : List Char}
    {skip : Nat} (hskip : skip ≤ cs.length) (afterWord : Bool) :
    findAllFrom read afterWord skip cs <+: findAllFrom read afterWord skip (cs ++ rest) := by
  induction cs generalizing afterWord skip with
  | nil => exact List.nil_prefix
  | cons c cs ih =>
    cases skip with
    | succ skip => exact ih (Nat.le_of_succ_le_succ hskip) _
    | zero =>
      cases hread : read afterWord (c :: cs) with
      | some found =>
        have hwhole : read afterWord (c :: (cs ++ rest)) = some (found.1, found.2 ++ rest) :=
          h.stays hread
        rw [List.cons_append, findAllFrom_of_some hread, findAllFrom_of_some hwhole,
          length_append_sub]
        exact List.cons_prefix_cons.mpr ⟨rfl, ih (Nat.sub_le _ _) _⟩
      | none =>
        rw [List.cons_append, findAllFrom_of_none hread]
        cases hwhole : read afterWord (c :: (cs ++ rest)) with
        | none =>
          rw [findAllFrom_of_none hwhole]
          exact ih (Nat.zero_le _) _
        | some found =>
          rw [h.last hread (by rw [hwhole]; rfl)]
          exact List.nil_prefix

/-- A reading that starts in the first of two texts and ends in the second. -/
def Crosses (read : Recogniser α) (afterWord : Bool) (cs rest : List Char) (taken : α)
    (left : List Char) : Prop :=
  ∃ start inner, cs = start ++ inner ∧ inner ≠ [] ∧
    read (wordBefore afterWord start) (inner ++ rest) = some (taken, left) ∧
    left.length < rest.length

/-- What a search finds in two texts goes on with what it finds in the second from its start, or
from where a reading that crosses over to it ends. -/
def Continues (read : Recogniser α) (afterWord : Bool) (cs rest : List Char) (found : List α) :
    Prop :=
  (∃ before, found = before ++ findAllFrom read (wordBefore afterWord cs) 0 rest) ∨
    ∃ taken left, Crosses read afterWord cs rest taken left ∧ ∃ before, found = before ++
      taken :: findAllFrom read (wordBefore afterWord cs) (rest.length - left.length) rest

theorem Continues.cons {c : Char} {cs rest : List Char} {found : List α} (before : List α)
    (afterWord : Bool) (h : Continues read (isWordChar c) cs rest found) :
    Continues read afterWord (c :: cs) rest (before ++ found) := by
  rcases h with ⟨between, rfl⟩ | ⟨taken, left, ⟨start, inner, rfl, hcross⟩, between, rfl⟩
  · exact .inl ⟨before ++ between, (List.append_assoc _ _ _).symm⟩
  · exact .inr ⟨taken, left, ⟨c :: start, inner, rfl, hcross⟩, before ++ between,
      (List.append_assoc _ _ _).symm⟩

/-- **A search goes into the second of two texts at its start, or behind one reading.** -/
theorem continues_findAllFrom {cs : List Char} {skip : Nat} (hskip : skip ≤ cs.length)
    (afterWord : Bool) (rest : List Char) :
    Continues read afterWord cs rest (findAllFrom read afterWord skip (cs ++ rest)) := by
  induction cs generalizing afterWord skip with
  | nil =>
    rw [Nat.le_zero.mp hskip]
    exact .inl ⟨[], rfl⟩
  | cons c cs ih =>
    cases skip with
    | succ skip => exact (ih (Nat.le_of_succ_le_succ hskip) _).cons [] afterWord
    | zero =>
      rw [List.cons_append]
      cases hread : read afterWord (c :: (cs ++ rest)) with
      | none =>
        rw [findAllFrom_of_none hread]
        exact (ih (Nat.zero_le _) _).cons [] afterWord
      | some found =>
        rw [findAllFrom_of_some hread]
        rcases Nat.lt_or_ge found.2.length rest.length with hacross | hbefore
        · have hskip' : (cs ++ rest).length - found.2.length =
              cs.length + (rest.length - found.2.length) := by
            rw [List.length_append, Nat.add_sub_assoc (Nat.le_of_lt hacross)]
          rw [hskip', findAllFrom_length_add]
          exact .inr ⟨found.1, found.2, ⟨[], c :: cs, rfl, List.cons_ne_nil _ _, hread, hacross⟩,
            [], rfl⟩
        · refine (ih ?_ _).cons [found.1] afterWord
          rw [List.length_append]
          omega

/-- **A search that starts later finds the same, or it misses a first reading.** -/
theorem findAllFrom_zero_cases
    (hshrinks : ∀ {afterWord cs a left}, read afterWord cs = some (a, left) →
      left.length < cs.length) {cs : List Char} {skip : Nat} (hskip : skip ≤ cs.length)
    (afterWord : Bool) :
    findAllFrom read afterWord 0 cs = findAllFrom read afterWord skip cs ∨
      ∃ before inner a left, cs = before ++ inner ∧ before.length < skip ∧
        read (wordBefore afterWord before) inner = some (a, left) ∧
        findAllFrom read afterWord 0 cs =
          a :: findAllFrom read afterWord (cs.length - left.length) cs := by
  induction cs generalizing afterWord skip with
  | nil => exact .inl (congrArg (findAllFrom read afterWord · []) (Nat.le_zero.mp hskip).symm)
  | cons c cs ih =>
    cases skip with
    | zero => exact .inl rfl
    | succ skip =>
      cases hread : read afterWord (c :: cs) with
      | none =>
        rw [findAllFrom_of_none hread]
        rcases ih (Nat.le_of_succ_le_succ hskip) (isWordChar c) with
          hsame | ⟨before, inner, a, left, rfl, hbefore, hfound, hrest⟩
        · exact .inl hsame
        · refine .inr ⟨c :: before, inner, a, left, rfl, Nat.succ_lt_succ hbefore, hfound, ?_⟩
          have hlength := hshrinks hfound
          rw [List.length_cons, Nat.succ_sub (by rw [List.length_append]; omega)]
          exact hrest
      | some found =>
        refine .inr ⟨[], c :: cs, found.1, found.2, rfl, Nat.succ_pos _, hread, ?_⟩
        have hlength := hshrinks hread
        rw [findAllFrom_of_some hread, List.length_cons, Nat.succ_sub (Nat.le_of_lt_succ hlength)]
        rfl

/-! ## Readings that do not start -/

/-- A search passes over a part in which no reading starts. -/
theorem findAllFrom_of_passed {part rest : List Char} {afterWord : Bool}
    (h : ∀ before inner, part = before ++ inner → inner ≠ [] →
      read (wordBefore afterWord before) (inner ++ rest) = none) :
    findAllFrom read afterWord 0 (part ++ rest) =
      findAllFrom read (wordBefore afterWord part) 0 rest := by
  induction part generalizing afterWord with
  | nil => rfl
  | cons c part ih =>
    have hnone : read afterWord (c :: (part ++ rest)) = none :=
      h [] (c :: part) rfl (List.cons_ne_nil _ _)
    rw [List.cons_append, findAllFrom_of_none hnone, wordBefore]
    exact ih fun before inner hpart => h (c :: before) inner (by rw [hpart, List.cons_append])

/-- No reading starts with one of some characters. -/
def Unread (read : Recogniser α) (marks : List Char) : Prop :=
  ∀ c ∈ marks, ∀ afterWord cs, read afterWord (c :: cs) = none

/-- A search passes over what starts no reading. -/
theorem findAllFrom_of_unread {marks : List Char} (h : Unread read marks) (afterWord : Bool)
    (rest : List Char) : findAllFrom read afterWord 0 (marks ++ rest) =
      findAllFrom read (wordBefore afterWord marks) 0 rest := by
  refine findAllFrom_of_passed fun before inner hmarks hne => ?_
  obtain ⟨c, inner, rfl⟩ := List.exists_cons_of_ne_nil hne
  exact h c (hmarks ▸ List.mem_append_right _ List.mem_cons_self) _ _

end ContractLens.Text
