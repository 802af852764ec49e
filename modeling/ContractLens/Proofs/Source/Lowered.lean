import ContractLens.Proofs.Source.Parts
import ContractLens.Proofs.Text.Lowered
/-!
# The text of a set in small letters

The text of a set is lowered file by file (`lower_combine_append`), and that of a file in three
parts: a line that is the same for all files up to a colon, the path with the rest of its line, and
the content (`lower_combine_cons`).
-/

namespace ContractLens

open Text

namespace SourceFile

variable {files : List SourceFile}

theorem parting_blank : ∀ c ∈ [' ', '\n'], Parting c := forall_mem_of_all (by decide)

/-! ## The parts of a file -/

/-- The path of a file in small letters, with what stands around it on its line. -/
def label (path : String) : List Char := ' ' :: (lower path.toList ++ " =====\n".toList)

/-- A text made of a line with a path, and a content, is lowered part by part. -/
theorem lower_announced (bare bare' : List Char) {start front path stop content rest : List Char}
    (hstart : start = bare ++ [' ']) (hbare : lower bare = front ++ [':'])
    (hstop : stop = bare' ++ ['\n']) (hbare' : lower bare' = bare')
    (hparting : ∀ c ∈ bare'.head?, Parting c) :
    lower ((start ++ (path ++ (stop ++ (content ++ ['\n', '\n'])))) ++ rest) =
      front ++ (':' :: ((' ' :: (lower path ++ stop)) ++
        (lower content ++ (['\n', '\n'] ++ lower rest)))) := by
  have hhead : ∀ {c} {cs : List Char}, c ∈ [' ', '\n'] → ∀ d ∈ (c :: cs).head?, Parting d := by
    intro c cs hc
    exact forall_head?_cons (parting_blank c hc) cs
  have hcons : ∀ {c} (cs : List Char), c ∈ [' ', '\n'] → lower (c :: cs) = c :: lower cs := by
    intro c cs hc
    have hsame : ∀ c ∈ [' ', '\n'], lowerChar c = c := forall_mem_of_all (by decide)
    rw [lower_cons (parting_blank c hc).1, hsame c hc]
  have hblank : ' ' ∈ [' ', '\n'] := List.mem_cons_self
  have hline : '\n' ∈ [' ', '\n'] := List.mem_cons_of_mem _ List.mem_cons_self
  have hparting' : ∀ {cs : List Char}, ∀ c ∈ (bare' ++ '\n' :: cs).head?, Parting c := by
    intro cs
    cases bare' with
    | nil => exact hhead hline
    | cons d bare' => exact hparting
  have htext : (start ++ (path ++ (stop ++ (content ++ ['\n', '\n'])))) ++ rest =
      bare ++ (' ' :: (path ++ (bare' ++ ('\n' :: (content ++ ('\n' :: '\n' :: rest)))))) := by
    rw [hstart, hstop]
    simp only [List.append_assoc, List.cons_append, List.nil_append]
  rw [htext, lower_append (hhead hblank), hcons _ hblank, lower_append hparting',
    lower_append (hhead hline), hcons _ hline, lower_append (hhead hline), hcons _ hline,
    hcons _ hline, hbare, hbare', hstop]
  simp only [List.append_assoc, List.cons_append, List.nil_append]

/-- **The text of a set in small letters, part by part.** -/
theorem lower_combine_cons (file : SourceFile) (files : List SourceFile) :
    lower (combine (file :: files)) = "\n// ===== file".toList ++ (':' :: (label file.path ++
      (lower file.content.toList ++ (['\n', '\n'] ++ lower (combine files))))) := by
  rw [combine, List.flatMap_cons, ← combine]
  exact lower_announced "\n// ===== FILE:".toList " =====".toList (by decide)
    (by decide) (by decide) (by decide)
    (forall_head?_cons (parting_blank ' ' List.mem_cons_self) _)

/-! ## The whole text -/

/-- The text of a set is followed by nothing, or by the end of a line. -/
theorem parting_combine (files : List SourceFile) : ∀ c ∈ (combine files).head?, Parting c := by
  cases files with
  | nil => exact nofun
  | cons file files =>
    have hbreak : Parting '\n' := by decide
    exact forall_head?_cons hbreak _

/-- **The texts of two sets are lowered one by one.** -/
theorem lower_combine_append (left right : List SourceFile) :
    lower (combine (left ++ right)) = lower (combine left) ++ lower (combine right) := by
  rw [combine, List.flatMap_append, ← combine, ← combine, lower_append (parting_combine right)]

theorem break_lower_combine (hne : files ≠ []) : Break (lower (combine files)) := by
  obtain ⟨file, files, rfl⟩ := List.exists_cons_of_ne_nil hne
  have htext : combine (file :: files) = '\n' :: '/' :: (combine (file :: files)).drop 2 := rfl
  have hline : isCased '\n' = false := by decide
  have hslash : isCased '/' = false := by decide
  rw [htext, lower_cons hline, lower_cons hslash]
  exact ⟨['\n'], _, rfl, List.cons_ne_nil _ _, forall_mem_of_all (by decide),
    forall_head?_cons ⟨by decide, .inl rfl⟩ _⟩

/-- After a content there is a break, in small letters as well. -/
theorem break_after_lower_content (files : List SourceFile) :
    Break (['\n', '\n'] ++ lower (combine files)) := by
  have hblank : ∀ c ∈ ['\n', '\n'], isBlank c = true := forall_mem_of_all (by decide)
  cases files with
  | nil => exact ⟨['\n', '\n'], [], rfl, List.cons_ne_nil _ _, hblank, nofun⟩
  | cons file files => exact (break_lower_combine (List.cons_ne_nil _ _)).append hblank

/-- No word goes on after the text of a set. -/
theorem wordBefore_lower_combine (files : List SourceFile) :
    wordBefore false (lower (combine files)) = false := by
  induction files with
  | nil => rfl
  | cons file files ih =>
    have hline : ∀ afterWord, wordBefore afterWord ['\n', '\n'] = false := by decide
    rw [lower_combine_cons, wordBefore_append, wordBefore, wordBefore_append, wordBefore_append,
      wordBefore_append, hline, ih]

end SourceFile

end ContractLens
