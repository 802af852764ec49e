import ContractLens.Analysis.Analyze
import ContractLens.Proofs.Settings
import ContractLens.Proofs.Source.Place
import ContractLens.Proofs.Text.Ascii
/-!
# Signs and verdicts

The signs of upgradeability are looked for in the lowered text of a set. In ASCII every contract
that was parsed has a place there where its declaration starts (`exists_lowered`). Any of the signs
bars the record of the set from being kept (`barred_of_sign`), and no record that an analysis gives
is both of an upgradeable contract and to be kept (`cacheEligible_recordOf`).
-/

namespace ContractLens

open Text

/-! ## Texts in ASCII -/

namespace SourceFile

/-- The paths and contents of a set are in ASCII. -/
def Ascii (files : List SourceFile) : Prop :=
  ∀ file ∈ files, (∀ c ∈ file.path.toList, c.toNat < 128) ∧
    ∀ c ∈ file.content.toList, c.toNat < 128

instance (files : List SourceFile) : Decidable (Ascii files) :=
  decidable_of_iff ((files.all fun file => (file.path.toList.all fun c => decide (c.toNat < 128)) &&
    file.content.toList.all fun c => decide (c.toNat < 128)) = true) (by simp [Ascii])

variable {files : List SourceFile}

theorem toNat_lt_of_mem_combine (h : Ascii files) : ∀ c ∈ combine files, c.toNat < 128 := by
  intro c hc
  have hstart : ∀ c ∈ "\n// ===== FILE: ".toList, c.toNat < 128 :=
    forall_mem_of_all (by decide)
  have hstop : ∀ c ∈ " =====\n".toList, c.toNat < 128 :=
    forall_mem_of_all (by decide)
  have hlast : ∀ c ∈ ['\n', '\n'], c.toNat < 128 :=
    forall_mem_of_all (by decide)
  obtain ⟨file, hfile, hc⟩ := List.mem_flatMap.mp hc
  obtain ⟨hpath, hcontent⟩ := h file hfile
  rcases List.mem_append.mp hc with hc | hc
  · exact hstart c hc
  rcases List.mem_append.mp hc with hc | hc
  · exact hpath c hc
  rcases List.mem_append.mp hc with hc | hc
  · exact hstop c hc
  rcases List.mem_append.mp hc with hc | hc
  · exact hcontent c hc
  · exact hlast c hc

theorem lower_combine (h : Ascii files) :
    lower (combine files) = (combine files).map Char.toLower :=
  lower_of_ascii (toNat_lt_of_mem_combine h)

/-- The text of a set with a file is not blank, since it announces the file. -/
theorem all_isBlank_combine (hfiles : files ≠ []) : (combine files).all isBlank = false := by
  obtain ⟨file, h⟩ := List.exists_mem_of_ne_nil files hfiles
  have hslash : '/' ∈ combine files := by
    refine List.mem_flatMap.mpr ⟨file, h, ?_⟩
    exact List.mem_append_left _ (by decide)
  refine Bool.eq_false_iff.mpr fun hall => ?_
  have hblank := List.all_eq_true.mp hall '/' hslash
  exact absurd hblank (by decide)

end SourceFile

/-! ## Declarations in a lowered text -/

namespace Declaration

/-- A lowered declaration has lowered bases. -/
theorem BasedOn.map_toLower {cs before after bases left : List Char}
    (h : BasedOn cs before after bases left) :
    BasedOn (cs.map Char.toLower) (before.map Char.toLower) (after.map Char.toLower)
      (bases.map Char.toLower) (left.map Char.toLower) where
  text := by
    rw [h.text]
    simp only [List.map_append, List.map_cons]
    rfl
  before_ne := by simpa using h.before_ne
  before_blank := forall_isBlank_map_toLower h.before_blank
  after_ne := by simpa using h.after_ne
  after_blank := forall_isBlank_map_toLower h.after_blank
  no_brace := fun hbrace => h.no_brace ((mem_map_toLower_iff (by decide)).mp hbrace)
  starts := forall_head?_map_toLower isBlank_toLower h.starts

/-- A base is a part of the text that lists it. -/
theorem infix_of_mem_baseNames {bases : List Char} {base : String}
    (h : base ∈ baseNames bases) : base.toList <:+: bases := by
  obtain ⟨trimmed, htrimmed, hbase⟩ := List.mem_filterMap.mp h
  obtain ⟨part, hpart, rfl⟩ := List.mem_map.mp htrimmed
  obtain ⟨left, right, htrim, -⟩ := exists_trim part
  obtain ⟨before, after, hbases, -⟩ := exists_append_of_mem_splitAt hpart
  split at hbase
  · cases hbase
  · cases hbase
    rw [String.toList_ofList, hbases]
    exact List.IsInfix.trans ⟨left, right, by rw [List.append_assoc]; exact htrim.symm⟩
      ⟨before, after, List.append_assoc _ _ _⟩

/-- The declaration of a contract, at the start of a lowered text. -/
structure Lowered (contract : Contract) (cs blanks name tail : List Char) : Prop where
  /-- It has a name. -/
  named : NamedBy "contract".toList cs blanks name tail
  /-- That is the lowered name of the contract. -/
  name : lower contract.name.toList = name
  /-- The bases of the contract, lowered, are in the list that follows the name. -/
  bases : ∀ base ∈ contract.inherits, ∃ before after bases left,
    BasedOn tail before after bases left ∧ bases ≠ [] ∧ lower base.toList <:+: bases

theorem Lowered.ne {contract : Contract} {cs blanks name tail : List Char}
    (h : Lowered contract cs blanks name tail) : cs ≠ [] := by
  rw [h.named.text]
  exact List.append_ne_nil_of_left_ne_nil (by decide) _

/-- **Every contract of a set in ASCII has a place in its lowered text** where its declaration
starts. -/
theorem exists_lowered {files : List SourceFile} (hascii : SourceFile.Ascii files)
    {contract : Contract} (h : contract ∈ (ParsedSources.ofFiles files).contracts) :
    ∃ before rest, lower (SourceFile.combine files) = before ++ rest ∧
      wordBefore false before = false ∧
      ∃ blanks name tail, Lowered contract rest blanks name tail := by
  obtain ⟨before, rest, hcombine, hbefore, blanks, name, tail, hdeclares⟩ := exists_declares h
  have hlower : ∀ part, part <:+: rest → lower part = part.map Char.toLower := by
    intro part hpart
    refine lower_of_ascii fun c hc => SourceFile.toNat_lt_of_mem_combine hascii c ?_
    rw [hcombine]
    exact List.mem_append_right _ (hpart.subset hc)
  have hword : "contract".toList.map Char.toLower = "contract".toList := by decide
  refine ⟨before.map Char.toLower, rest.map Char.toLower, ?_, ?_, blanks.map Char.toLower,
    name.map Char.toLower, tail.map Char.toLower, ?_, ?_, ?_⟩
  · rw [SourceFile.lower_combine hascii, hcombine, List.map_append]
  · rw [wordBefore_map_toLower, hbefore]
  · exact hword ▸ hdeclares.named.map_toLower
  · rw [hdeclares.name, String.toList_ofList]
    refine hlower name ⟨"contract".toList ++ blanks, tail, ?_⟩
    rw [hdeclares.named.text]
    simp only [List.append_assoc]
  · intro base hbase
    obtain ⟨first, second, bases, left, hbased, hnames⟩ := hdeclares.bases base hbase
    have hinside := infix_of_mem_baseNames hnames
    refine ⟨_, _, _, _, hbased.map_toLower, ?_, ?_⟩
    · rw [Ne, List.map_eq_nil_iff]
      rintro rfl
      cases hnames
    · rw [hlower base.toList (hinside.trans ?_)]
      · exact hinside.map Char.toLower
      · refine ⟨"contract".toList ++ (blanks ++ (name ++ (first ++ (['i', 's'] ++ second)))),
          '\x7b' :: left, ?_⟩
        rw [hdeclares.named.text, hbased.text]
        simp only [List.append_assoc]

end Declaration

/-! ## Signs -/

namespace Upgradeable

/-- One of the signs that are words, names or paths in a lowered text. -/
def Signed (lowered : List Char) : Prop :=
  contains "delegatecall".toList lowered = true ∨ importsMarked lowered = true ∨
    inheritsMarked lowered = true ∨ declaresMarked lowered = true

/-- The empty text has no sign. -/
theorem not_signed_lower_nil : ¬ Signed (lower []) := by
  unfold Signed
  decide

/-- **The verdict on a set is that on the signs of its text.** -/
theorem inSource_combine_iff {files : List SourceFile} :
    inSource (SourceFile.combine files) = true ↔ Signed (lower (SourceFile.combine files)) ∨
      holdsAny functionMarks (lower (SourceFile.combine files)) = true := by
  by_cases hfiles : files = []
  · rw [hfiles]
    exact ⟨nofun, fun h => h.elim (fun h => absurd h not_signed_lower_nil) nofun⟩
  · rw [inSource, if_neg (by rw [SourceFile.all_isBlank_combine hfiles]; decide), Signed]
    simp only [Bool.or_eq_true]
    tauto

theorem holdsAny_iff {marks : List String} {cs : List Char} :
    holdsAny marks cs = true ↔ ∃ mark ∈ marks, mark.toList <:+: cs := by
  rw [holdsAny, List.any_eq_true]
  simp only [contains_iff]

end Upgradeable

/-! ## Verdicts -/

/-- A record of an upgradeable contract, which is not to be kept. -/
structure AnalysisRecord.Barred (record : AnalysisRecord) : Prop where
  /-- The contract is upgradeable. -/
  upgradeable : record.isUpgradeable = true
  /-- The record is not to be kept. -/
  not_kept : record.cacheEligible = false

namespace Workbench

/-- The record that an analysis gives. -/
def recordOf (bench : Workbench) (id : String) (trace : Trace) (input : AnalysisInput) :
    AnalysisRecord :=
  ((bench.analyze id input).run trace).1

/-- A workbench with the usual settings, without a network. -/
def offline : Workbench :=
  ⟨Settings.usual, fun _ _ => .error (.transport "ConnectError" ""), none, .epoch⟩

/-- Some files as the verified source of a contract without a name. -/
def sourceOf (files : List SourceFile) : VerifiedInput := ⟨"0x1", 1, "", "", files, []⟩

/-- The record of some files that is made on that workbench. -/
def offlineRecord (files : List SourceFile) : AnalysisRecord :=
  offline.recordOf "id" {} (.verified (sourceOf files))

variable (bench : Workbench) (id : String) (trace : Trace)

/-- The record of a set holds what was found in it. -/
theorem exists_recordOf_verified (input : VerifiedInput) : ∃ imports,
    bench.recordOf id trace (.verified input) =
      bench.verifiedRecord id input (ParsedSources.ofFiles input.files) imports :=
  ⟨_, rfl⟩

/-- A set that shows signs bars its record. -/
theorem barred_of_inSource {input : VerifiedInput}
    (h : Upgradeable.inSource (SourceFile.combine input.files) = true) :
    (bench.recordOf id trace (.verified input)).Barred := by
  obtain ⟨imports, hrecord⟩ := bench.exists_recordOf_verified id trace input
  rw [hrecord]
  refine ⟨h, ?_⟩
  rw [verifiedRecord, h]
  rfl

/-- **A sign in the text of a set bars its record.** -/
theorem barred_of_sign {input : VerifiedInput}
    (h : Upgradeable.Signed (lower (SourceFile.combine input.files))) :
    (bench.recordOf id trace (.verified input)).Barred :=
  bench.barred_of_inSource id trace (Upgradeable.inSource_combine_iff.mpr (.inl h))

/-- **A record is to be kept exactly when its contract is not upgradeable.** -/
theorem cacheEligible_recordOf (input : AnalysisInput) :
    (bench.recordOf id trace input).cacheEligible =
      !(bench.recordOf id trace input).isUpgradeable := by
  cases input with
  | verified input => rfl
  | bytecode input => rfl

end Workbench

end ContractLens
