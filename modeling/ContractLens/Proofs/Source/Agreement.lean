import ContractLens.Proofs.Source.Size
import ContractLens.Proofs.Text.Readings
import ContractLens.Source.Features
/-!
# Contracts and features of one set

Contracts are read line by line, features off all files run together. What the two count is not
the same: a word at the end of one line and a name on the next are a function to the features and
none to the contracts, and what stands in no body is counted by the features alone. But the features
never count less (`total_members_le`). Bodies share no line, so what the contracts hold is read off
lines of the files; and the lines have together no more readings than the text they make up, since
readings of a keyword and a name are orderly.
-/

namespace ContractLens

open Text Source SourceFile

/-! ## From bodies to files -/

/-- A contract is made from a declaration on one of the lines. -/
theorem exists_contractOf_of_mem {path : String} {start : Nat} {lines : List (List Char)}
    {entry : ScannedContract} (h : entry ∈ scanLines path start lines) :
    ∃ line ∈ lines, ∃ number found following, headOf? line = some found ∧
      entry = contractOf path number found following := by
  induction lines generalizing start with
  | nil => cases h
  | cons line lines ih =>
    have hlater : entry ∈ scanLines path (start + 1) lines → ∃ other ∈ line :: lines,
        ∃ number found following, headOf? other = some found ∧
          entry = contractOf path number found following := fun h =>
      let ⟨other, hother, hentry⟩ := ih h
      ⟨other, List.mem_cons_of_mem _ hother, hentry⟩
    rw [scanLines] at h
    split at h
    · rename_i found hfound
      rcases List.mem_cons.mp h with rfl | h
      · exact ⟨line, List.mem_cons_self, start, found, lines, hfound, rfl⟩
      · exact hlater h
    · exact hlater h

section Reading

variable {read : Recogniser String}

/-- What follows an opening brace has no more readings than its line. -/
theorem count_body_le (hread : Orderly read) {line : List Char} {found : Found Declaration.Head}
    (h : headOf? line = some found) : count read (found.after.drop 1) ≤ count read line := by
  obtain ⟨before, body, hline, hafter⟩ := opened_headOf? h
  rw [hline, hafter]
  exact count_after_le hread (by decide) before body

theorem sum_count_trim_le (hread : Orderly read) (lines : List (List Char)) :
    ((lines.map trim).map (count read)).sum ≤ (lines.map (count read)).sum := by
  rw [List.map_map]
  exact List.sum_le_sum fun line _ => count_trim_le hread line

/-- **The bodies of a file have together no more readings than the file.** -/
theorem bodyWeight_scanFile_le (hread : Orderly read) (path content : String) :
    bodyWeight (count read) (scanFile path content) ≤ count read content.toList :=
  calc bodyWeight (count read) (scanFile path content)
      ≤ (((splitLines content.toList).map trim).map (count read)).sum :=
        bodyWeight_scanLines_le (fun _ _ => count_body_le hread) path 0 _
    _ ≤ ((splitLines content.toList).map (count read)).sum := sum_count_trim_le hread _
    _ ≤ count read (List.intercalate ['\n'] (splitLines content.toList)) :=
        sum_count_le_intercalate hread (by decide) _
    _ = count read content.toList := by rw [splitLines, intercalate_splitAt]

/-! ## From files to the set -/

theorem append_ended {start path stop bare content rest : List Char} (h : stop = bare ++ ['\n']) :
    (start ++ (path ++ (stop ++ (content ++ ['\n', '\n'])))) ++ rest =
      (start ++ (path ++ bare)) ++ '\n' :: (content ++ '\n' :: '\n' :: rest) := by
  rw [h]
  simp only [List.append_assoc, List.cons_append, List.nil_append]

/-- In the text of a set a file's content stands between the ends of lines. -/
theorem exists_combine_cons (file : SourceFile) (files : List SourceFile) :
    ∃ banner, combine (file :: files) =
      banner ++ '\n' :: (file.content.toList ++ '\n' :: '\n' :: combine files) := by
  have hstop : " =====\n".toList = " =====".toList ++ ['\n'] := by decide
  exact ⟨"\n// ===== FILE: ".toList ++ (file.path.toList ++ " =====".toList), append_ended hstop⟩

theorem count_combine_cons_le (hread : Orderly read) (file : SourceFile)
    (files : List SourceFile) :
    count read file.content.toList + count read (combine files) ≤
      count read (combine (file :: files)) := by
  have hmark : isWordChar '\n' = false := by decide
  have hlast : count read (combine files) ≤ count read ('\n' :: combine files) :=
    count_after_le hread hmark [] (combine files)
  have hcontent := count_separated hread hmark file.content.toList ('\n' :: combine files)
  obtain ⟨banner, hcombine⟩ := exists_combine_cons file files
  calc count read file.content.toList + count read (combine files)
      ≤ count read file.content.toList + count read ('\n' :: combine files) :=
        Nat.add_le_add_left hlast _
    _ ≤ count read (file.content.toList ++ '\n' :: '\n' :: combine files) := hcontent
    _ ≤ count read (combine (file :: files)) := hcombine ▸ count_after_le hread hmark banner _

theorem bodyWeight_append (weight : List Char → Nat) (scanned others : List ScannedContract) :
    bodyWeight weight (scanned ++ others) =
      bodyWeight weight scanned + bodyWeight weight others := by
  rw [bodyWeight, List.map_append, List.sum_append, ← bodyWeight, ← bodyWeight]

/-- The bodies of a set have together no more readings than its text. -/
theorem bodyWeight_scanFiles_le (hread : Orderly read) (files : List SourceFile) :
    bodyWeight (count read) (ParsedSources.scanFiles files) ≤ count read (combine files) := by
  induction files with
  | nil => exact Nat.le_refl _
  | cons file files ih =>
    have hfile := bodyWeight_scanFile_le hread file.path file.content
    rw [ParsedSources.scanFiles, List.flatMap_cons, bodyWeight_append, ← ParsedSources.scanFiles]
    exact Nat.le_trans (Nat.add_le_add hfile ih) (count_combine_cons_le hread file files)

/-- Names that a contract has from the lines of its body, reading after reading. -/
def Collected (members : Contract → List String) (read : Recogniser String) : Prop :=
  ∀ path start found following, members (contractOf path start found following).contract =
    (contractOf path start found following).body.flatMap (findAll read)

theorem total_members_eq {members : Contract → List String} (h : Collected members read)
    (files : List SourceFile) :
    ParsedSources.total (fun contract => (members contract).length)
        (ParsedSources.ofFiles files).contracts =
      bodyWeight (count read) (ParsedSources.scanFiles files) := by
  rw [ParsedSources.total_eq_sum, ParsedSources.ofFiles, List.map_map, bodyWeight]
  refine congrArg List.sum (List.map_congr_left fun entry hentry => ?_)
  obtain ⟨file, -, hscanned⟩ := List.mem_flatMap.mp hentry
  obtain ⟨-, -, start, found, following, -, rfl⟩ := exists_contractOf_of_mem hscanned
  rw [Function.comp_apply, h, List.length_flatMap]
  rfl

/-- **What the contracts of a set hold is read at least as often in the text of the set.** -/
theorem total_members_le {members : Contract → List String} (hread : Orderly read)
    (h : Collected members read) (files : List SourceFile) :
    ParsedSources.total (fun contract => (members contract).length)
        (ParsedSources.ofFiles files).contracts ≤ count read (combine files) :=
  total_members_eq h files ▸ bodyWeight_scanFiles_le hread files

end Reading

/-- A keyword whose names some contract of a set has is in the text of the set. -/
theorem contains_of_member {word : String} {members : Contract → List String}
    (hread : Orderly (keywordThenName word)) (h : Collected members (keywordThenName word))
    {files : List SourceFile}
    (hmember : ∃ contract ∈ (ParsedSources.ofFiles files).contracts, members contract ≠ []) :
    contains word.toList (combine files) = true := by
  obtain ⟨contract, hcontract, hne⟩ := hmember
  have hmem : (members contract).length ∈
      (ParsedSources.ofFiles files).contracts.map fun contract => (members contract).length :=
    List.mem_map_of_mem hcontract
  have hpos : 0 < (members contract).length := List.length_pos_of_ne_nil hne
  have hle := total_members_le hread h files
  rw [ParsedSources.total_eq_sum] at hle
  have hone := List.single_le_sum (fun _ _ => Nat.zero_le _) _ hmem
  exact contains_of_count_pos (Nat.lt_of_lt_of_le hpos (Nat.le_trans hone hle))

/-! ## Lines of a set -/

/-- How many lines end inside the paths of a set. -/
def pathBreaks (files : List SourceFile) : Nat :=
  (files.map fun file => file.path.toList.count '\n').sum

theorem count_announced (file : SourceFile) :
    (announced file).count '\n' =
      file.path.toList.count '\n' + file.content.toList.count '\n' + 4 := by
  have hparts : (announced file).count '\n' = "\n// ===== FILE: ".toList.count '\n' +
      (file.path.toList.count '\n' + (" =====\n".toList.count '\n' +
        (file.content.toList.count '\n' + ['\n', '\n'].count '\n'))) := by
    unfold announced
    simp only [List.count_append]
  have hstart : "\n// ===== FILE: ".toList.count '\n' = 1 := by decide
  have hstop : " =====\n".toList.count '\n' = 1 := by decide
  have hlast : ['\n', '\n'].count '\n' = 2 := by decide
  omega

theorem pathBreaks_cons (file : SourceFile) (files : List SourceFile) :
    pathBreaks (file :: files) = file.path.toList.count '\n' + pathBreaks files := by
  rw [pathBreaks, List.map_cons, List.sum_cons, ← pathBreaks]

theorem count_combine (files : List SourceFile) :
    (combine files).count '\n' =
      ParsedSources.total (·.lines.length) files + 3 * files.length + pathBreaks files := by
  induction files with
  | nil => rfl
  | cons file files ih =>
    have hlines : file.lines.length = file.content.toList.count '\n' + 1 :=
      length_splitAt '\n' file.content.toList
    rw [combine, List.flatMap_cons, List.count_append, count_announced, ← combine, ih,
      ParsedSources.total, pathBreaks_cons, hlines, List.length_cons]
    omega

/-! ## Agreement -/

/-- How the features of a set and what is found in it go together. -/
structure Features.Agree (files : List SourceFile) (parsed : ParsedSources) (features : Features) :
    Prop where
  /-- The contracts have together no more functions than are counted. -/
  functions : parsed.totalFunctions ≤ features.functionCount
  /-- If a contract has an event, events are mentioned. -/
  events : (∃ contract ∈ parsed.contracts, contract.events ≠ []) → features.hasEvents = true
  /-- If a contract has a modifier, modifiers are mentioned. -/
  modifiers : (∃ contract ∈ parsed.contracts, contract.modifiers ≠ []) →
    features.hasModifiers = true
  /-- The contracts are counted. -/
  contracts : features.contractCount = parsed.contracts.length
  /-- The files are counted. -/
  fileCount : features.fileCount = files.length
  /-- The lines are those of the files, three more for each file, one more for the text, and those
  that end inside a path. -/
  lines : features.lineCount =
    parsed.totalLines + 3 * features.fileCount + 1 + pathBreaks files

/-- **The features of a set agree with what is found in it.** -/
theorem Features.agree_ofFiles (files : List SourceFile) :
    Features.Agree files (ParsedSources.ofFiles files)
      (Features.ofFiles files (some (ParsedSources.ofFiles files))) := by
  constructor
  case functions =>
    have hread : Orderly Declaration.functionName :=
      orderly_keywordThenName (by decide) (by decide)
    have hmembers : Collected Contract.functions Declaration.functionName := fun _ _ _ _ => rfl
    exact Int.ofNat_le.mpr (total_members_le hread hmembers files)
  case events =>
    intro hevent
    have hread : Orderly Declaration.eventName := orderly_keywordThenName (by decide) (by decide)
    have hmembers : Collected Contract.events Declaration.eventName := fun _ _ _ _ => rfl
    exact contains_of_member hread hmembers hevent
  case modifiers =>
    intro hmodifier
    have hread : Orderly Declaration.modifierName :=
      orderly_keywordThenName (by decide) (by decide)
    have hmembers : Collected Contract.modifiers Declaration.modifierName := fun _ _ _ _ => rfl
    exact contains_of_member hread hmembers hmodifier
  case contracts => rfl
  case fileCount => rfl
  case lines =>
    have hlines : (splitLines (combine files)).length = (combine files).count '\n' + 1 :=
      length_splitAt '\n' (combine files)
    rw [count_combine] at hlines
    show ((splitLines (combine files)).length : Int) =
      (ParsedSources.total (·.lines.length) files : Nat) + 3 * (files.length : Int) + 1 +
        pathBreaks files
    omega

end ContractLens
