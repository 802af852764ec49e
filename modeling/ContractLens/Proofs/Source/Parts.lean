import ContractLens.Proofs.Source.Agreement
import ContractLens.Proofs.Text.Break
import Mathlib.Algebra.Ring.Int.Defs
/-!
# Features of the parts of a set

The features of a set are read off one text, in which a line of rules with its path stands before
each content. What is looked for never starts with a sign of such a line, and never reaches across
the break that comes after a path or a content (`Staying`). So a search of the whole finds what it
finds in every path and every content on its own (`findAll_combine`): each flag is raised where a
path or a content raises it, and the functions add up (`flag_ofFiles`, `functionCount_ofFiles`).

Hence the features of two sets put together are those of the two sets (`joins_ofFiles`), whatever
the files end or start with.
-/

namespace ContractLens

open Text

namespace SourceFile

/-! ## Paths and contents in the text of a set -/

/-- The signs that the lines between contents are made of. -/
def bannerSigns : List Char := "\n// ===== FILE: ".toList ++ " =====\n".toList

variable {α : Type} {read : Recogniser α}

/-- A recogniser whose readings stay inside the path or the content where they start. -/
structure Staying (read : Recogniser α) : Prop where
  /-- No reading starts with a sign of the lines between contents. -/
  unread : Unread read bannerSigns
  /-- No reading reaches across a break. -/
  apart : ∀ {rest}, Break rest → ∀ afterWord cs, Apart read afterWord cs rest

/-- The text of a set starts with the end of a line and a line of rules. -/
theorem break_combine {files : List SourceFile} (hne : files ≠ []) : Break (combine files) := by
  obtain ⟨file, files, rfl⟩ := List.exists_cons_of_ne_nil hne
  exact ⟨['\n'], (combine (file :: files)).drop 1, rfl, List.cons_ne_nil _ _,
    forall_mem_of_all (by decide), forall_head?_cons ⟨by decide, .inl rfl⟩ _⟩

/-- After a content there is a break. -/
theorem break_after_content (files : List SourceFile) : Break (['\n', '\n'] ++ combine files) := by
  have hblank : ∀ c ∈ ['\n', '\n'], isBlank c = true := forall_mem_of_all (by decide)
  cases files with
  | nil => exact ⟨['\n', '\n'], [], rfl, List.cons_ne_nil _ _, hblank, nofun⟩
  | cons file files => exact (break_combine (List.cons_ne_nil _ _)).append hblank

/-- After a path there is a break. -/
theorem break_after_path (rest : List Char) : Break (" =====\n".toList ++ rest) := by
  exact ⟨[' '], "=====\n".toList ++ rest, rfl, List.cons_ne_nil _ _,
    forall_mem_of_all (by decide), forall_head?_cons ⟨by decide, .inr rfl⟩ _⟩

/-- A search passes over signs that do not end with a word. -/
theorem findAllFrom_of_banner (h : Staying read) {signs : List Char} (hsigns : signs ⊆ bannerSigns)
    (hends : wordBefore true signs = false) (hne : signs ≠ []) (afterWord : Bool)
    (rest : List Char) : findAllFrom read afterWord 0 (signs ++ rest) = findAll read rest := by
  rw [findAllFrom_of_unread fun c hc => h.unread c (hsigns hc),
    wordBefore_of_ne_nil hne afterWord true, hends, findAll]

theorem append_parts (start path stop content last rest : List Char) :
    (start ++ (path ++ (stop ++ (content ++ last)))) ++ rest =
      start ++ (path ++ (stop ++ (content ++ (last ++ rest)))) := by
  simp only [List.append_assoc]

theorem findAll_announced (h : Staying read) (file : SourceFile) (files : List SourceFile) :
    findAll read (announced file ++ combine files) =
      findAll read file.path.toList ++ findAll read file.content.toList ++
        findAll read (combine files) := by
  have hstart : ∀ rest, findAll read ("\n// ===== FILE: ".toList ++ rest) = findAll read rest :=
    findAllFrom_of_banner h (List.subset_append_left _ _) (by decide) (by decide) false
  have hstop : ∀ afterWord rest,
      findAllFrom read afterWord 0 (" =====\n".toList ++ rest) = findAll read rest :=
    findAllFrom_of_banner h (List.subset_append_right "\n// ===== FILE: ".toList _)
      (by decide) (by decide)
  have hlast : ∀ afterWord rest,
      findAllFrom read afterWord 0 (['\n', '\n'] ++ rest) = findAll read rest :=
    findAllFrom_of_banner h (forall_mem_of_all (by decide)) (by decide) (by decide)
  have hpath : ∀ rest, findAll read (file.path.toList ++ (" =====\n".toList ++ rest)) =
      findAll read file.path.toList ++ findAll read rest := fun rest => by
    rw [findAll, findAllFrom_append (h.apart (break_after_path rest) _ _) (Nat.zero_le _), hstop,
      ← findAll]
  have hcontent : findAll read (file.content.toList ++ (['\n', '\n'] ++ combine files)) =
      findAll read file.content.toList ++ findAll read (combine files) := by
    rw [findAll, findAllFrom_append (h.apart (break_after_content files) _ _) (Nat.zero_le _),
      hlast, ← findAll]
  have hparts : announced file ++ combine files = "\n// ===== FILE: ".toList ++
      (file.path.toList ++ (" =====\n".toList ++
        (file.content.toList ++ (['\n', '\n'] ++ combine files)))) :=
    append_parts _ _ _ _ _ _
  rw [hparts, hstart, hpath, hcontent, List.append_assoc]

/-- **A search of the text of a set finds what it finds in every path and content.** -/
theorem findAll_combine (h : Staying read) (files : List SourceFile) :
    findAll read (combine files) = files.flatMap fun file =>
      findAll read file.path.toList ++ findAll read file.content.toList := by
  induction files with
  | nil => rfl
  | cons file files ih =>
    rw [List.flatMap_cons, ← ih, combine, List.flatMap_cons, ← combine, findAll_announced h]

/-- A property of texts that a set has just when a path or a content has it. -/
def Partwise (test : List Char → Bool) : Prop :=
  ∀ files, test (combine files) = files.any fun file =>
    test file.path.toList || test file.content.toList

theorem partwise_occurs (h : Staying read) : Partwise (occurs read) := by
  intro files
  rw [Bool.eq_iff_iff, occurs_iff, findAll_combine h, List.any_eq_true]
  simp only [List.mem_flatMap, List.mem_append, Bool.or_eq_true, occurs_iff]
  constructor
  · rintro ⟨a, file, hfile, ha⟩
    exact ⟨file, hfile, ha.imp (⟨a, ·⟩) (⟨a, ·⟩)⟩
  · rintro ⟨file, hfile, ⟨a, ha⟩ | ⟨a, ha⟩⟩
    · exact ⟨a, file, hfile, .inl ha⟩
    · exact ⟨a, file, hfile, .inr ha⟩

theorem Partwise.or {test other : List Char → Bool} (h : Partwise test) (h' : Partwise other) :
    Partwise fun cs => test cs || other cs := by
  intro files
  dsimp only
  rw [Bool.eq_iff_iff, h, h']
  simp only [Bool.or_eq_true, List.any_eq_true]
  constructor
  · rintro (⟨file, hfile, hpart⟩ | ⟨file, hfile, hpart⟩)
    · exact ⟨file, hfile, hpart.imp .inl .inl⟩
    · exact ⟨file, hfile, hpart.imp .inr .inr⟩
  · rintro ⟨file, hfile, (hpath | hpath) | (hcontent | hcontent)⟩
    · exact .inl ⟨file, hfile, .inl hpath⟩
    · exact .inr ⟨file, hfile, .inl hpath⟩
    · exact .inl ⟨file, hfile, .inr hcontent⟩
    · exact .inr ⟨file, hfile, .inr hcontent⟩

/-! ## What stays -/

/-- A text without blanks that starts with no sign of the lines between contents. -/
def Compact (part : List Char) : Prop :=
  (∃ c ∈ part.head?, c ∉ bannerSigns) ∧ ∀ c ∈ part, isBlank c = false

instance (part : List Char) : Decidable (Compact part) :=
  decidable_of_iff ((part.head?.any fun c => !bannerSigns.contains c) = true ∧
    (part.all fun c => !isBlank c) = true) (by simp [Compact, Option.any_eq_true])

variable {part : List Char}

theorem Compact.ne_nil (h : Compact part) : part ≠ [] := by
  rintro rfl
  obtain ⟨⟨c, hc, -⟩, -⟩ := h
  cases hc

theorem Compact.dropStart?_eq_none (h : Compact part) {c : Char} (hc : c ∈ bannerSigns)
    (cs : List Char) : dropStart? part (c :: cs) = none := by
  obtain ⟨⟨p, hp, hsign⟩, -⟩ := h
  cases part with
  | nil => cases hp
  | cons q part =>
    have hq : q ∉ bannerSigns := Option.mem_some_iff.mp hp ▸ hsign
    rw [dropStart?, if_neg (by simpa using fun he : q = c => hq (he ▸ hc))]

theorem staying_literal (h : Compact part) : Staying (literal part) where
  unread c hc _ cs := by rw [literal, h.dropStart?_eq_none hc]; rfl
  apart hbreak := apart_literal h.2 hbreak

theorem partwise_contains (h : Compact part) : Partwise (contains part) := by
  have hoccurs : contains part = occurs (literal part) := funext (contains_eq_occurs h.ne_nil)
  rw [hoccurs]
  exact partwise_occurs (staying_literal h)

theorem staying_keywordThenName {word : String} (h : Compact word.toList) :
    Staying (keywordThenName word) where
  unread c hc afterWord cs := by
    cases afterWord with
    | true => rfl
    | false => rw [keywordThenName_eq_bind, h.dropStart?_eq_none hc]; rfl
  apart hbreak := apart_keywordThenName h.2 hbreak

/-- Where two recognisers stay, the one that tries the second after the first does. -/
theorem Staying.or {other : Recogniser α} (h : Staying read) (h' : Staying other) :
    Staying fun afterWord cs => (read afterWord cs).or (other afterWord cs) where
  unread c hc afterWord cs := by
    dsimp only
    rw [h.unread c hc, h'.unread c hc, Option.or_none]
  apart hbreak afterWord cs before inner hcs hne := by
    dsimp only
    rw [h.apart hbreak afterWord cs before inner hcs hne,
      h'.apart hbreak afterWord cs before inner hcs hne, Option.map_or]

end SourceFile

namespace Features

open SourceFile

/-- A call of a member stays, since blanks and a bracket do not reach across a break. -/
theorem staying_memberCall {member : String} {openings : List Char}
    (h : Compact ('.' :: member.toList)) (hopenings : ∀ c ∈ openings, ¬ IsRule c) :
    Staying (memberCall member openings) where
  unread c hc _ cs := by rw [memberCall, h.dropStart?_eq_none hc]; rfl
  apart {rest} hbreak afterWord cs := by
    rintro before inner rfl -
    have hhead : ∀ d ∈ rest.head?, d ∉ '.' :: member.toList := by
      intro d hd hmem
      have hblank := hbreak.head d hd
      rw [h.2 d hmem] at hblank
      cases hblank
    rw [memberCall, memberCall, dropStart?_append hhead]
    cases dropStart? ('.' :: member.toList) inner with
    | none => rfl
    | some left =>
      simp only [Option.map_some, Option.bind_eq_bind, Option.bind_some]
      rcases dropWhile_append_break hbreak left with ⟨hne, hsome⟩ | ⟨hnone, hrule⟩
      · obtain ⟨d, after, hafter⟩ := List.exists_cons_of_ne_nil hne
        rw [hsome, hafter, List.cons_append]
        dsimp only
        split <;> rfl
      · rw [hnone]
        cases hafter : (left ++ rest).dropWhile isBlank with
        | nil => rfl
        | cons d after =>
          rw [hafter] at hrule
          have hclosed : openings.contains d = false :=
            Bool.eq_false_iff.mpr fun hopen =>
              hopenings d (List.contains_iff_mem.mp hopen) (hrule d rfl)
          dsimp only
          rw [hclosed]
          rfl

theorem staying_lowLevelCall : Staying lowLevelCall :=
  staying_memberCall (by decide) (forall_mem_of_all (by decide))

theorem staying_valueTransfer : Staying valueTransfer := by
  have htransfer : Staying (memberCall "transfer" ['(']) :=
    staying_memberCall (by decide) (forall_mem_of_all (by decide))
  have hsend : Staying (memberCall "send" ['(']) :=
    staying_memberCall (by decide) (forall_mem_of_all (by decide))
  have hor : valueTransfer = fun afterWord cs =>
      (memberCall "transfer" ['('] afterWord cs).or (memberCall "send" ['('] afterWord cs) := by
    funext afterWord cs
    rw [valueTransfer]
    cases memberCall "transfer" ['('] afterWord cs <;> rfl
  rw [hor]
  exact htransfer.or hsend

/-! ## Flags and functions -/

/-- The flags of features. -/
def flags : List (Features → Bool) := [
  hasModifiers, hasEvents, hasStructs, hasEnums, hasLibraries, hasInterfaces, hasDelegateCall,
  hasSelfDestruct, hasAssembly, hasUnchecked, hasLowLevelCall, hasTransfer, hasReentrancyGuard,
  hasOwnable, hasPausable]

theorem partwise_of_mem_flags (fileCount contractCount : Nat) :
    ∀ flag ∈ flags, Partwise fun code => flag (ofText fileCount contractCount code) := by
  simp only [flags, List.forall_mem_cons]
  refine ⟨partwise_contains ?_, partwise_contains ?_, partwise_contains ?_, partwise_contains ?_,
    partwise_contains ?_, partwise_contains ?_, partwise_contains ?_, partwise_contains ?_,
    partwise_contains ?_, partwise_contains ?_, partwise_occurs staying_lowLevelCall,
    partwise_occurs staying_valueTransfer, (partwise_contains ?_).or (partwise_contains ?_),
    (partwise_contains ?_).or (partwise_contains ?_),
    (partwise_contains ?_).or (partwise_contains ?_), nofun⟩
  all_goals decide

/-- The features of a single text. -/
def ofPiece (text : String) : Features := ofText 0 0 text.toList

/-- No flag hangs on the counts that come from elsewhere. -/
theorem flag_ofText (fileCount contractCount : Nat) (code : List Char) :
    ∀ flag ∈ flags, flag (ofText fileCount contractCount code) = flag (ofText 0 0 code) := by
  simp only [flags, List.forall_mem_cons]
  exact ⟨rfl, rfl, rfl, rfl, rfl, rfl, rfl, rfl, rfl, rfl, rfl, rfl, rfl, rfl, rfl, nofun⟩

/-- **A set raises a flag where a path or a content does.** -/
theorem flag_ofFiles {flag : Features → Bool} (hflag : flag ∈ flags) (files : List SourceFile)
    (parsed : Option ParsedSources) : flag (ofFiles files parsed) =
      files.any fun file => flag (ofPiece file.path) || flag (ofPiece file.content) := by
  rw [ofFiles, flag_ofText _ _ _ flag hflag]
  exact partwise_of_mem_flags 0 0 flag hflag files

/-- **The functions of a set are those of its paths and contents.** -/
theorem functionCount_ofFiles (files : List SourceFile) (parsed : Option ParsedSources) :
    (ofFiles files parsed).functionCount = (files.map fun file =>
      (ofPiece file.path).functionCount + (ofPiece file.content).functionCount).sum := by
  have hstaying : Staying Declaration.functionName := staying_keywordThenName (by decide)
  rw [ofFiles, ofText]
  dsimp only
  rw [findAll_combine hstaying]
  induction files with
  | nil => rfl
  | cons file files ih =>
    rw [List.flatMap_cons, List.length_append, List.length_append, List.map_cons, List.sum_cons,
      ← ih, Int.natCast_add, Int.natCast_add]
    rfl

/-! ## Two sets put together -/

/-- The features of two sets, and those of the set that they make together. -/
structure Joins (left right whole : Features) : Prop where
  /-- The files add up. -/
  files : whole.fileCount = left.fileCount + right.fileCount
  /-- The functions add up. -/
  functions : whole.functionCount = left.functionCount + right.functionCount
  /-- The lines add up, but the last line of the one is the first of the other. -/
  lines : whole.lineCount = left.lineCount + right.lineCount - 1
  /-- A flag is raised where one of the two raises it. -/
  raised : ∀ flag ∈ flags, flag whole = (flag left || flag right)

/-- **Features of two sets put together are those of the two sets.** No flag and no function comes
or goes where the last file of the one meets the first of the other. -/
theorem joins_ofFiles (left right : List SourceFile)
    (ofLeft ofRight ofWhole : Option ParsedSources) :
    Joins (ofFiles left ofLeft) (ofFiles right ofRight) (ofFiles (left ++ right) ofWhole) ∧
      findAll Declaration.functionName (combine (left ++ right)) =
        findAll Declaration.functionName (combine left) ++
          findAll Declaration.functionName (combine right) := by
  refine ⟨⟨?_, ?_, ?_, fun flag hflag => ?_⟩, ?_⟩
  · exact (congrArg Nat.cast List.length_append).trans (Int.natCast_add _ _)
  · rw [functionCount_ofFiles, functionCount_ofFiles, functionCount_ofFiles, List.map_append,
      List.sum_append]
  · have hwhole : combine (left ++ right) = combine left ++ combine right := List.flatMap_append
    have hlines : ∀ files (parsed : Option ParsedSources), (ofFiles files parsed).lineCount =
        ((combine files).count '\n' + 1 : Nat) :=
      fun files parsed => congrArg Nat.cast (length_splitAt '\n' (combine files))
    rw [hlines, hlines, hlines, hwhole, List.count_append]
    omega
  · rw [flag_ofFiles hflag, flag_ofFiles hflag, flag_ofFiles hflag, List.any_append]
  · have hstaying : Staying Declaration.functionName := staying_keywordThenName (by decide +kernel)
    rw [findAll_combine hstaying, findAll_combine hstaying, findAll_combine hstaying,
      List.flatMap_append]

end Features

end ContractLens
