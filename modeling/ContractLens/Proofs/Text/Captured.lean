import ContractLens.Proofs.Text.Keyword
import ContractLens.Proofs.Text.Seam
/-!
# The names behind a keyword

What a search for a keyword and a name comes upon, said without the search (`Captures`). A text is
gone through from left to right. Where the keyword stands and no word goes on there, with blanks and
a name behind it, the name is captured, and the text is gone through further behind the name. Every
other character is passed over. The search finds just these names
(`mem_findAll_iff_captures`).
-/

namespace ContractLens.Text

/-- The names that are captured behind a keyword in a text, which follows a word character or
not. -/
inductive Captures (word : List Char) : Bool → List Char → List (List Char) → Prop
  /-- The text is over. -/
  | nil {afterWord : Bool} : Captures word afterWord [] []
  /-- The keyword stands here, and what follows the name is gone through. -/
  | named {cs blanks name left : List Char} {names : List (List Char)} :
    NamedBy word cs blanks name left → Captures word true left names →
    Captures word false cs (name :: names)
  /-- The keyword does not stand here with a name, or a word goes on here. -/
  | passed {afterWord : Bool} {c : Char} {cs : List Char} {names : List (List Char)} :
    (afterWord = false → ∀ blanks name left, ¬ NamedBy word (c :: cs) blanks name left) →
    Captures word (isWordChar c) cs names → Captures word afterWord (c :: cs) names

variable {word : String} {afterWord : Bool} {cs blanks name left : List Char}
  {names : List (List Char)}

/-- Where nothing is named, nothing is read. -/
theorem keywordThenName_eq_none_iff :
    keywordThenName word afterWord cs = none ↔
      (afterWord = false → ∀ blanks name left, ¬ NamedBy word.toList cs blanks name left) := by
  rw [Option.eq_none_iff_forall_ne_some]
  constructor
  · intro hnone hafter blanks name left hnamed
    exact hnone _ (keywordThenName_eq_some_iff.mpr ⟨hafter, blanks, name, hnamed, rfl⟩)
  · rintro hnone ⟨value, left⟩ hread
    obtain ⟨hafter, blanks, name, hnamed, -⟩ := keywordThenName_eq_some_iff.mp hread
    exact hnone hafter blanks name left hnamed

/-- Where a name is captured, the search finds it first and goes on behind it. -/
theorem NamedBy.findAllFrom_eq (h : NamedBy word.toList cs blanks name left) :
    findAllFrom (keywordThenName word) false 0 cs =
      String.ofList name :: findAllFrom (keywordThenName word) true 0 left := by
  have hread : keywordThenName word false cs = some (String.ofList name, left) :=
    keywordThenName_eq_some_iff.mpr ⟨rfl, blanks, name, h, rfl⟩
  have htaken : cs = (word.toList ++ (blanks ++ name)) ++ left := by
    rw [h.text]
    simp only [List.append_assoc]
  have hne : word.toList ++ (blanks ++ name) ≠ [] := by simp [h.name_ne]
  -- what was taken ends with the name
  have hends : wordBefore false (word.toList ++ (blanks ++ name)) = true := by
    rw [wordBefore_append, wordBefore_append]
    exact wordBefore_of_forall h.name_ne h.isWord _
  rw [htaken] at hread ⊢
  rw [findAllFrom_of_taken hne hread, hends]

/-- What is captured is what the search finds. -/
theorem Captures.findAllFrom_eq (h : Captures word.toList afterWord cs names) :
    findAllFrom (keywordThenName word) afterWord 0 cs = names.map String.ofList := by
  induction h with
  | nil => rfl
  | named hnamed _ ih => rw [hnamed.findAllFrom_eq, ih, List.map_cons]
  | passed hnone _ ih => rw [findAllFrom_of_none (keywordThenName_eq_none_iff.mpr hnone), ih]

/-- In every text some names are captured, if only none. -/
theorem exists_captures (word : String) (afterWord : Bool) (cs : List Char) :
    ∃ names, Captures word.toList afterWord cs names := by
  induction hlength : cs.length using Nat.strongRecOn generalizing afterWord cs with
  | ind length ih =>
    cases cs with
    | nil => exact ⟨[], .nil⟩
    | cons c cs =>
      cases hread : keywordThenName word afterWord (c :: cs) with
      | none =>
        obtain ⟨names, hnames⟩ := ih cs.length (by simp [← hlength]) (isWordChar c) cs rfl
        exact ⟨names, .passed (keywordThenName_eq_none_iff.mp hread) hnames⟩
      | some found =>
        obtain ⟨value, left⟩ := found
        obtain ⟨rfl, blanks, name, hnamed, -⟩ := keywordThenName_eq_some_iff.mp hread
        have hshorter : left.length < length := by
          have hblanks := List.length_pos_iff.mpr hnamed.blanks_ne
          rw [← hlength, hnamed.text]
          simp only [List.length_append]
          omega
        obtain ⟨names, hnames⟩ := ih left.length hshorter true left rfl
        exact ⟨name :: names, .named hnamed hnames⟩

/-- **A name is found just when it is captured.** -/
theorem mem_findAll_iff_captures {value : String} :
    value ∈ findAll (keywordThenName word) cs ↔
      ∃ names, Captures word.toList false cs names ∧ value.toList ∈ names := by
  obtain ⟨captured, hcaptured⟩ := exists_captures word false cs
  constructor
  · intro hvalue
    rw [findAll, hcaptured.findAllFrom_eq] at hvalue
    obtain ⟨name, hname, rfl⟩ := List.mem_map.mp hvalue
    exact ⟨captured, hcaptured, by rwa [String.toList_ofList]⟩
  · rintro ⟨names, hnames, hvalue⟩
    rw [findAll, hnames.findAllFrom_eq]
    exact List.mem_map.mpr ⟨_, hvalue, String.ofList_toList⟩

end ContractLens.Text
