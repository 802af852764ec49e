import ContractLens.Files.Tree
import ContractLens.Proofs.Text.Utf8
/-!
# Files that are written

A file that is written at a path is the one that the path leads to afterwards (`open?_of_write`):
the directories that the path leads through still are directories, and the file is none of them.
-/

namespace ContractLens.Tree

variable {tree : Tree} {place : Path}

/-- The tree with a file at a place. -/
def put (tree : Tree) (place : Path) (bytes : List UInt8) : Tree :=
  { tree with files := tree.files.filter (·.1 != place) ++ [(place, bytes)] }

theorem bytes?_put_self (tree : Tree) (place : Path) (bytes : List UInt8) :
    (tree.put place bytes).bytes? place = some bytes := by
  have hothers : (tree.files.filter (·.1 != place)).find? (·.1 == place) = none := by
    simp [List.find?_eq_none]
  rw [bytes?, put, List.find?_append, hothers, Option.none_or]
  simp

theorem bytes?_put_of_ne {other : Path} (h : other ≠ place) (bytes : List UInt8) :
    (tree.put place bytes).bytes? other = tree.bytes? other := by
  have hothers : (tree.files.filter (·.1 != place)).find? (·.1 == other) =
      tree.files.find? (·.1 == other) := by
    rw [List.find?_filter]
    congr 1
    funext file
    by_cases hfile : file.1 = other
    · simp [hfile, h]
    · simp [hfile]
  have hlast : [(place, bytes)].find? (·.1 == other) = none := by
    simp [Ne.symm h]
  rw [bytes?, put, List.find?_append, hothers, hlast, Option.or_none, bytes?]

/-- What was a directory still is one. -/
theorem isDirectory_put {other : Path} (h : tree.isDirectory other = true) (bytes : List UInt8) :
    (tree.put place bytes).isDirectory other = true := by
  simp only [isDirectory, Bool.or_eq_true, List.any_eq_true, Prod.exists] at h ⊢
  rcases h with h | ⟨file, old, hmem, hbelow⟩
  · exact .inl h
  · by_cases hfile : file = place
    · exact .inr ⟨file, bytes, by simp [put, hfile], hbelow⟩
    · exact .inr ⟨file, old, by simp [put, hmem, hfile], hbelow⟩

/-- Names lead to the same place once there is a file. -/
theorem follow_put {start : Path} {parts : List String} (h : tree.follow start parts = .ok place)
    (hfile : tree.isDirectory place = false) (bytes : List UInt8) :
    (tree.put place bytes).follow start parts = .ok place := by
  induction parts generalizing start with
  | nil => exact h
  | cons part parts ih =>
    simp only [follow] at h ⊢
    split at h
    · cases h
    rename_i hbytes
    split at h
    · cases h
    rename_i hstart
    split at h
    · cases h
    rename_i hname
    have hdirectory : tree.isDirectory start = true := by simpa using hstart
    have hne : start ≠ place := fun heq => by
      rw [heq, hfile] at hdirectory
      cases hdirectory
    rw [bytes?_put_of_ne hne, if_neg hbytes, isDirectory_put hdirectory, if_neg (by decide),
      if_neg hname]
    exact ih h

/-- A file can be written at a path. -/
def Writable (tree : Tree) (path : Path) : Prop :=
  hasNull path = false ∧ ∃ place, tree.place? path = .ok place ∧ tree.isDirectory place = false

/-- **A file that was written is the one that its path leads to.** -/
theorem open?_of_write {path : Path} (h : tree.Writable path) (bytes : List UInt8) :
    ∃ written, tree.write path bytes = .ok written ∧ written.open? path = .ok bytes := by
  obtain ⟨hnull, place, hplace, hfile⟩ := h
  have hafter : (tree.put place bytes).place? path = .ok place := by
    unfold place? at hplace ⊢
    split at hplace
    · cases hplace
    · rw [if_neg ‹_›]
      exact follow_put hplace hfile bytes
  refine ⟨tree.put place bytes, ?_, ?_⟩
  · simp only [write, hnull, hplace, hfile, Bool.false_eq_true, if_false]
    rfl
  · simp only [open?, hnull, hafter, bytes?_put_self, Bool.false_eq_true, if_false]

/-- **Text that was written to a file is read from it.** -/
theorem text?_of_write {path : Path} (h : tree.Writable path) {s : String}
    (hs : Utf8.Safe s.toList) :
    ∃ written, tree.write path s.toUTF8.toList = .ok written ∧ written.text? path = .ok s := by
  obtain ⟨written, hwritten, hopen⟩ := open?_of_write h s.toUTF8.toList
  refine ⟨written, hwritten, ?_⟩
  simp only [text?, hopen, bind, Except.bind, Utf8.decode_toUTF8 hs, Utf8.unifyLines_of_safe hs,
    String.ofList_toList]
  rfl

end ContractLens.Tree
