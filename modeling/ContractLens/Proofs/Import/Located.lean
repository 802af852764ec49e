import ContractLens.Proofs.Import.Place
/-!
# Which file a relative import means

Three ways to look for the file follow each other, and a later one counts only where the earlier
ones find nothing: the places that the import means from the importing files, its own path, and the
end of a path. `Located` says so without searching, and `located_iff` that the search finds just
that. So the end of a path never stands against a file beside an importing one.

What is left of a path when its dot components are taken off may be nothing. Nothing is not looked
for, though every path that ends with a slash would end with it (`locate?_dot`).
-/

namespace ContractLens.Import

open Text

variable {files : List SourceFile} {importers : List String} {path : String}

/-! ## Dot components at the start -/

/-- A path, and what is left of it when the dot components at its start are taken off. -/
inductive Stripped : List Char → List Char → Prop
  /-- A path that starts with none is left as it is. -/
  | bare {cs : List Char} : ¬ ['.', '/'] <+: cs → ¬ ['.', '.', '/'] <+: cs → Stripped cs cs
  /-- The component of the directory itself is taken off. -/
  | here {cs tail : List Char} : Stripped cs tail → Stripped ('.' :: '/' :: cs) tail
  /-- The component of the directory above is taken off. -/
  | above {cs tail : List Char} : Stripped cs tail → Stripped ('.' :: '.' :: '/' :: cs) tail

theorem stripped_dropDots (fuel : Nat) {cs : List Char} (h : cs.length ≤ fuel) :
    Stripped cs (dropDots fuel cs) := by
  induction fuel, cs using dropDots.induct with
  | case1 fuel rest ih =>
    rw [List.length_cons, List.length_cons] at h
    exact .here (ih (by omega))
  | case2 fuel rest ih =>
    rw [List.length_cons, List.length_cons, List.length_cons] at h
    exact .above (ih (by omega))
  | case3 fuel cs hhere habove =>
    -- no fuel is left only where the whole path was taken off
    have hleft : cs = [] ∨ ∃ more, fuel = more + 1 := by
      cases fuel with
      | zero => exact .inl (List.length_eq_zero_iff.mp (Nat.le_zero.mp h))
      | succ more => exact .inr ⟨more, rfl⟩
    have hsame : dropDots fuel cs = cs := by
      rw [dropDots.eq_def]
      split
      · exact absurd rfl (hhere _ _ rfl)
      · exact absurd rfl (habove _ _ rfl)
      · rfl
    rw [hsame]
    rcases hleft with rfl | ⟨more, rfl⟩
    · exact .bare nofun nofun
    · refine .bare ?_ ?_
      · rintro ⟨rest, rfl⟩
        exact hhere more rest rfl rfl
      · rintro ⟨rest, rfl⟩
        exact habove more rest rfl rfl

theorem Stripped.unique {cs tail other : List Char} (h : Stripped cs tail)
    (hother : Stripped cs other) : tail = other := by
  induction h with
  | bare hhere habove =>
    cases hother with
    | bare => rfl
    | here => exact absurd (List.prefix_append ['.', '/'] _) hhere
    | above => exact absurd (List.prefix_append ['.', '.', '/'] _) habove
  | here _ ih =>
    cases hother with
    | bare hhere => exact absurd (List.prefix_append ['.', '/'] _) hhere
    | here hother => exact ih hother
  | above _ ih =>
    cases hother with
    | bare _ habove => exact absurd (List.prefix_append ['.', '.', '/'] _) habove
    | above hother => exact ih hother

theorem stripped_iff {tail : List Char} :
    Stripped path.toList tail ↔ dropDots path.length path.toList = tail := by
  have hdots : Stripped path.toList (dropDots path.length path.toList) :=
    stripped_dropDots _ (Nat.le_of_eq String.length_toList)
  exact ⟨hdots.unique, fun h => h ▸ hdots⟩

/-! ## Files by their paths -/

/-- Some file of a set has the path. -/
def Carried (files : List SourceFile) (path : String) : Prop := ∃ file ∈ files, file.path = path

/-- The last file of a set that has the path. -/
def LastAt (files : List SourceFile) (path : String) (file : SourceFile) : Prop :=
  file.path = path ∧ ∃ before after, files = before ++ file :: after ∧
    ∀ other ∈ after, other.path ≠ path

/-- A path that is a tail, or ends with a slash and the tail. -/
def EndsAt (tail : List Char) (path : String) : Prop :=
  path.toList = tail ∨ ∃ start, path.toList = start ++ '/' :: tail

theorem lastAt?_eq_none_iff : lastAt? files path = none ↔ ¬ Carried files path := by
  rw [lastAt?, List.find?_eq_none]
  simp [Carried]

theorem lastAt?_eq_some_iff {file : SourceFile} :
    lastAt? files path = some file ↔ LastAt files path file := by
  rw [lastAt?, List.find?_eq_some_iff_append, LastAt, beq_iff_eq]
  refine and_congr_right fun _ => ?_
  constructor
  · rintro ⟨after, before, hfiles, hafter⟩
    refine ⟨before.reverse, after.reverse, ?_, fun other hother => ?_⟩
    · rw [← List.reverse_reverse files, hfiles]
      simp
    · simpa using hafter other (List.mem_reverse.mp hother)
  · rintro ⟨before, after, rfl, hafter⟩
    refine ⟨after.reverse, before.reverse, by simp, fun other hother => ?_⟩
    simpa using hafter other (List.mem_reverse.mp hother)

theorem endsAt_iff {tail : List Char} : endsAt tail path.toList = true ↔ EndsAt tail path := by
  rw [endsAt, Bool.or_eq_true, beq_iff_eq, List.isSuffixOf_iff_suffix, EndsAt]
  refine or_congr_right ⟨?_, ?_⟩
  · rintro ⟨start, h⟩
    exact ⟨start, h.symm⟩
  · rintro ⟨start, h⟩
    exact ⟨start, h.symm⟩

/-! ## The file that is meant -/

/-- The place that an import means from a file, as a path. -/
def meantPath (importer path : String) : String :=
  String.ofList (Place.meant importer.toList path.toList).text

/-- What an import means in a set of files. -/
inductive Located (files : List SourceFile) (importers : List String) (path : String) :
    Option SourceFile → Prop
  /-- A file at the place meant from the first importing file from where there is one. -/
  | beside {before after : List String} {importer : String} {file : SourceFile}
      (himporters : importers = before ++ importer :: after)
      (hbefore : ∀ other ∈ before, ¬ Carried files (meantPath other path))
      (hfile : LastAt files (meantPath importer path) file) :
      Located files importers path (some file)
  /-- Else a file with the path itself. -/
  | named {file : SourceFile}
      (hbeside : ∀ importer ∈ importers, ¬ Carried files (meantPath importer path))
      (hfile : LastAt files path file) : Located files importers path (some file)
  /-- Else the first file that ends with what is left of the path without its dot components, if
  anything is left. -/
  | ending {tail : List Char} {before after : List SourceFile} {file : SourceFile}
      (hbeside : ∀ importer ∈ importers, ¬ Carried files (meantPath importer path))
      (hnamed : ¬ Carried files path) (htail : Stripped path.toList tail) (hleft : tail ≠ [])
      (hfiles : files = before ++ file :: after)
      (hbefore : ∀ other ∈ before, ¬ EndsAt tail other.path) (hends : EndsAt tail file.path) :
      Located files importers path (some file)
  /-- Nothing where there is none of these. -/
  | nowhere (hbeside : ∀ importer ∈ importers, ¬ Carried files (meantPath importer path))
      (hnamed : ¬ Carried files path)
      (hending : ∀ tail, Stripped path.toList tail → tail ≠ [] →
        ∀ file ∈ files, ¬ EndsAt tail file.path) : Located files importers path none

theorem findSome?_target_eq_none_iff (h : Provenance.ofPath path = .relative) :
    (importers.findSome? fun importer => lastAt? files (target importer path)) = none ↔
      ∀ importer ∈ importers, ¬ Carried files (meantPath importer path) := by
  rw [List.findSome?_eq_none_iff]
  simp only [lastAt?_eq_none_iff, target_eq h, meantPath]

theorem findSome?_target_eq_some_iff (h : Provenance.ofPath path = .relative)
    {file : SourceFile} :
    (importers.findSome? fun importer => lastAt? files (target importer path)) = some file ↔
      ∃ before importer after, importers = before ++ importer :: after ∧
        LastAt files (meantPath importer path) file ∧
          ∀ other ∈ before, ¬ Carried files (meantPath other path) := by
  rw [List.findSome?_eq_some_iff]
  simp only [lastAt?_eq_none_iff, lastAt?_eq_some_iff, target_eq h, meantPath]

theorem find?_endsAt_eq_none_iff {tail : List Char} :
    files.find? (fun file => endsAt tail file.path.toList) = none ↔
      ∀ file ∈ files, ¬ EndsAt tail file.path := by
  rw [List.find?_eq_none]
  simp only [endsAt_iff]

theorem find?_endsAt_eq_some_iff {tail : List Char} {file : SourceFile} :
    files.find? (fun file => endsAt tail file.path.toList) = some file ↔
      EndsAt tail file.path ∧ ∃ before after, files = before ++ file :: after ∧
        ∀ other ∈ before, ¬ EndsAt tail other.path := by
  rw [List.find?_eq_some_iff_append]
  simp only [endsAt_iff, Bool.not_eq_true', Bool.eq_false_iff, ne_eq]

/-- The search finds what an import means. -/
theorem located_locate? (h : Provenance.ofPath path = .relative) :
    Located files importers path (locate? path importers files) := by
  rw [locate?]
  split
  · rename_i file hbeside
    obtain ⟨before, importer, after, himporters, hfile, hbefore⟩ :=
      (findSome?_target_eq_some_iff h).mp hbeside
    exact .beside himporters hbefore hfile
  rename_i hbeside
  have hbeside := (findSome?_target_eq_none_iff h).mp hbeside
  split
  · rename_i file hnamed
    exact .named hbeside (lastAt?_eq_some_iff.mp hnamed)
  rename_i hnamed
  have hnamed := lastAt?_eq_none_iff.mp hnamed
  have htail : Stripped path.toList (dropDots path.length path.toList) := stripped_iff.mpr rfl
  dsimp only
  split
  · rename_i hempty
    refine .nowhere hbeside hnamed fun tail hstripped hleft => ?_
    exact absurd ((hstripped.unique htail).trans (List.isEmpty_iff.mp hempty)) hleft
  rename_i hleft
  have hleft : dropDots path.length path.toList ≠ [] := fun e => hleft (List.isEmpty_iff.mpr e)
  cases hfound : files.find? fun file =>
      endsAt (dropDots path.length path.toList) file.path.toList with
  | none =>
    refine .nowhere hbeside hnamed fun tail hstripped _ => ?_
    rw [hstripped.unique htail]
    exact find?_endsAt_eq_none_iff.mp hfound
  | some file =>
    obtain ⟨hends, before, after, hfiles, hbefore⟩ := find?_endsAt_eq_some_iff.mp hfound
    exact .ending hbeside hnamed htail hleft hfiles hbefore hends

/-- What an import means is what the search finds. -/
theorem locate?_eq_of_located (h : Provenance.ofPath path = .relative)
    {answer : Option SourceFile} (hmeant : Located files importers path answer) :
    locate? path importers files = answer := by
  cases hmeant with
  | beside himporters hbefore hfile =>
    rw [locate?, (findSome?_target_eq_some_iff h).mpr ⟨_, _, _, himporters, hfile, hbefore⟩]
  | named hbeside hfile =>
    rw [locate?, (findSome?_target_eq_none_iff h).mpr hbeside, lastAt?_eq_some_iff.mpr hfile]
  | ending hbeside hnamed htail hleft hfiles hbefore hends =>
    rw [locate?, (findSome?_target_eq_none_iff h).mpr hbeside, lastAt?_eq_none_iff.mpr hnamed,
      stripped_iff.mp htail]
    exact (if_neg fun hempty => hleft (List.isEmpty_iff.mp hempty)).trans
      (find?_endsAt_eq_some_iff.mpr ⟨hends, _, _, hfiles, hbefore⟩)
  | nowhere hbeside hnamed hending =>
    rw [locate?, (findSome?_target_eq_none_iff h).mpr hbeside, lastAt?_eq_none_iff.mpr hnamed]
    refine ite_eq_left_iff.mpr fun hleft => find?_endsAt_eq_none_iff.mpr ?_
    exact hending _ (stripped_iff.mpr rfl) fun hnil => hleft (List.isEmpty_iff.mpr hnil)

/-- **The search finds what a relative import means**: a file at the place meant from the first
importing file from where there is one, else a file with the path itself, else the first file that
ends with what is left of the path without its dot components, and nothing where there is none of
these. -/
theorem located_iff (files : List SourceFile) (importers : List String) {path : String}
    (h : Provenance.ofPath path = .relative) (answer : Option SourceFile) :
    Located files importers path answer ↔ locate? path importers files = answer :=
  ⟨locate?_eq_of_located h, fun hanswer => hanswer ▸ located_locate? h⟩

/-- Two files of one name, in the directory of the set and in that of a package. -/
def twoLibraries : List SourceFile :=
  [⟨"lib/Math.sol", "library Math \x7b\x7d"⟩, ⟨"src/lib/Math.sol", "library Math \x7b\x7d"⟩]

/-- The import from the package means the file there, though the other one comes first and ends with
what is left of the path. -/
theorem located_iff_package :
    Provenance.ofPath "../lib/Math.sol" = .relative ∧
      Located twoLibraries ["src/token/Vault.sol"] "../lib/Math.sol"
        (some ⟨"src/lib/Math.sol", "library Math \x7b\x7d"⟩) := by
  have hrelative : Provenance.ofPath "../lib/Math.sol" = .relative := by decide
  exact ⟨hrelative, (located_iff twoLibraries ["src/token/Vault.sol"] hrelative _).mpr
    (by decide +kernel)⟩

/-- A file that imports its own directory, and a path that ends with a slash. -/
def slashedFiles : List SourceFile :=
  [⟨"Main.sol", "import './';"⟩, ⟨"lib/", "library Lib \x7b\x7d"⟩]

/-- **Nothing is not looked for**: an import of which nothing is left means no file, though a path
that ends with a slash ends with a slash and nothing. -/
theorem locate?_dot :
    Provenance.ofPath "./" = .relative ∧ locate? "./" ["Main.sol"] slashedFiles = none ∧
      ∃ tail, Stripped "./".toList tail ∧ ∃ file ∈ slashedFiles, EndsAt tail file.path := by
  refine ⟨by decide, by decide +kernel, [], .here (.bare nofun nofun), ⟨"lib/", _⟩,
    List.mem_cons_of_mem _ List.mem_cons_self, .inr ⟨"lib".toList, by decide⟩⟩

end ContractLens.Import
