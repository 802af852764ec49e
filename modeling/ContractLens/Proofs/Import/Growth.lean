import ContractLens.Proofs.Import.Isolation
import ContractLens.Proofs.Import.Located
/-!
# More files

Further files can only help an import: there are more files that import it, more places where it may
be, and more paths that may end with it. So what is found in a set is found in a larger one
(`localContent?_eq_none_of_append`), though perhaps in another file, and an import that is missing
from the larger set was missing from the smaller one, for the same reason
(`resolveOne_eq_of_missing`).
-/

namespace ContractLens

/-- What a resolution for more files keeps of one for some of them. -/
structure Resolution.Grown (files : List SourceFile) (r more : Resolution) : Prop where
  /-- What was resolved still is, with the same provenance. -/
  resolved : ∀ record ∈ r.resolved, ∃ again ∈ more.resolved,
    again.path = record.path ∧ again.type = record.type
  /-- What the files import and is still missing was missing before, for the same reason. -/
  missing : ∀ record ∈ more.missing, record.path ∈ Import.appearances files → record ∈ r.missing

namespace Import

variable {files : List SourceFile} {importing : List String} {path : String}
  {lookup : String → Lookup}

/-! ## More importing files -/

/-- A table of importing files in which each path has at least the files it had, and first. -/
def Grows (table grown : Table (List String)) : Prop :=
  ∀ path importing, Table.get? table path = some importing →
    ∃ others, Table.get? grown path = some (importing ++ others)

theorem Grows.refl (table : Table (List String)) : Grows table table :=
  fun _ importing h => ⟨[], by rw [h, List.append_nil]⟩

theorem Grows.trans {table grown more : Table (List String)} (h : Grows table grown)
    (hmore : Grows grown more) : Grows table more := by
  intro path importing hpath
  obtain ⟨others, hothers⟩ := h path importing hpath
  obtain ⟨further, hfurther⟩ := hmore path _ hothers
  exact ⟨others ++ further, by rw [hfurther, List.append_assoc]⟩

theorem grows_insert (table : Table (List String)) (path file : String) :
    Grows table (table.insert path ((Table.get? table path).getD [] ++ [file])) := by
  intro other importing hother
  rw [Table.get?_insert]
  split
  · rename_i heq
    obtain rfl := beq_iff_eq.mp heq
    exact ⟨[file], by rw [hother, Option.getD_some]⟩
  · exact ⟨[], by rw [hother, List.append_nil]⟩

theorem grows_foldl {α : Type} {step : Table (List String) → α → Table (List String)}
    (h : ∀ table item, Grows table (step table item)) (items : List α)
    (table : Table (List String)) : Grows table (items.foldl step table) := by
  induction items generalizing table with
  | nil => exact .refl table
  | cons item items ih => exact (h table item).trans (ih _)

/-- **Further files import a path after those that do already.** -/
theorem grows_importers_append (files more : List SourceFile) :
    Grows (importers files) (importers (files ++ more)) := by
  have hfile : ∀ (table : Table (List String)) (file : SourceFile),
      Grows table ((extract file.content).foldl
        (fun all path => all.insert path ((all.get? path).getD [] ++ [file.path])) table) :=
    fun table file => grows_foldl (fun table path => grows_insert table path file.path) _ table
  rw [importers, importers, List.foldl_append]
  exact grows_foldl hfile more _

/-! ## One import -/

theorem located_none_of_append {others : List String} {more : List SourceFile}
    (h : Located (files ++ more) (importing ++ others) path none) :
    Located files importing path none := by
  cases h with
  | nowhere hbeside hnamed hending =>
    have hcarried : ∀ {path}, ¬ Carried (files ++ more) path → ¬ Carried files path :=
      fun h ⟨file, hfile, hpath⟩ => h ⟨file, List.mem_append_left _ hfile, hpath⟩
    exact .nowhere
      (fun importer himporter => hcarried (hbeside importer (List.mem_append_left _ himporter)))
      (hcarried hnamed)
      (fun tail htail hleft file hfile =>
        hending tail htail hleft file (List.mem_append_left _ hfile))

/-- **What no file of a set has, none of some of them has.** -/
theorem localContent?_eq_none_of_append {others : List String} {more : List SourceFile}
    (h : localContent? (files ++ more) (importing ++ others) path = none) :
    localContent? files importing path = none := by
  rw [localContent?] at h ⊢
  cases htype : Provenance.ofPath path with
  | relative =>
    rw [htype] at h
    rw [Option.map_eq_none_iff] at h ⊢
    exact locate?_eq_of_located htype (located_none_of_append (h ▸ located_locate? htype))
  | npm =>
    rw [htype] at h
    rw [Option.map_eq_none_iff, List.find?_eq_none] at h ⊢
    exact fun file hfile => h file (List.mem_append_left _ hfile)
  | github => rfl
  | unknown => rfl

/-- **An import that more files leave missing was missing before**, for the same reason. -/
theorem resolveOne_eq_of_missing {others : List String} {more : List SourceFile}
    {record : MissingImport}
    (h : resolveOne (files ++ more) lookup path (importing ++ others) = .missing record) :
    resolveOne files lookup path importing = .missing record := by
  rw [resolveOne] at h ⊢
  cases hlocal : localContent? (files ++ more) (importing ++ others) path with
  | some content =>
    rw [hlocal] at h
    cases h
  | none =>
    rw [hlocal] at h
    rw [localContent?_eq_none_of_append hlocal]
    exact h

/-- The provenance that an outcome carries. -/
def Outcome.type : Outcome → Provenance
  | .resolved record _ => record.type
  | .missing record => record.type

/-- Whatever becomes of an import, its record carries the provenance of its path. -/
theorem type_resolveOne (files : List SourceFile) (lookup : String → Lookup) (path : String)
    (importers : List String) :
    (resolveOne files lookup path importers).type = .ofPath path := by
  rw [resolveOne]
  split
  · rfl
  split
  · rfl
  · rename_i htype
    rcases ofLookup_cases path (lookup path) with ⟨body, -, heq⟩ | ⟨-, error, heq, -⟩
    · rw [heq, htype]
      rfl
    · rw [heq]
      rfl
  · rfl
  · rfl

/-! ## All imports -/

theorem mem_outcomes_iff {outcome : Outcome} :
    outcome ∈ outcomes files lookup ↔ ∃ path importing,
      Table.get? (importers files) path = some importing ∧
        resolveOne files lookup path importing = outcome := by
  have hnodup : (Table.names (importers files)).Nodup := by
    rw [names_importers]
    exact (inOrder_distinct _).nodup
  rw [outcomes, List.mem_map]
  constructor
  · rintro ⟨⟨path, importing⟩, hmem, houtcome⟩
    exact ⟨path, importing, (Table.get?_eq_some_iff hnodup).mpr hmem, houtcome⟩
  · rintro ⟨path, importing, hpath, houtcome⟩
    exact ⟨(path, importing), Table.mem_of_get?_eq_some hpath, houtcome⟩

/-- A resolution for more files keeps what one for some of them has. -/
theorem grown_resolve (files more : List SourceFile) (lookup : String → Lookup) :
    (resolve files lookup).Grown files (resolve (files ++ more) lookup) := by
  constructor
  case resolved =>
    intro record hrecord
    obtain ⟨fetched, hmem⟩ := mem_resolved.mp hrecord
    obtain ⟨path, importing, hpath, houtcome⟩ := mem_outcomes_iff.mp hmem
    obtain ⟨others, hothers⟩ := grows_importers_append files more path importing hpath
    cases hagain : resolveOne (files ++ more) lookup path (importing ++ others) with
    | missing absent =>
      rw [resolveOne_eq_of_missing hagain] at houtcome
      cases houtcome
    | resolved again refetched =>
      refine ⟨again, mem_resolved.mpr ⟨refetched, mem_outcomes_iff.mpr
        ⟨path, _, hothers, hagain⟩⟩, ?_, ?_⟩
      · have hpaths := (path_resolveOne (files ++ more) lookup path (importing ++ others)).trans
          (path_resolveOne files lookup path importing).symm
        rwa [hagain, houtcome] at hpaths
      · have htypes := (type_resolveOne (files ++ more) lookup path (importing ++ others)).trans
          (type_resolveOne files lookup path importing).symm
        rwa [hagain, houtcome] at htypes
  case missing =>
    intro record hrecord hfiles
    obtain ⟨path, all, hall, houtcome⟩ := mem_outcomes_iff.mp (mem_missing.mp hrecord)
    obtain rfl : record.path = path := by
      have hpath := path_resolveOne (files ++ more) lookup path all
      rwa [houtcome] at hpath
    -- the files import the path, so the first importing files are known already
    rw [← mem_distinct, ← names_importers] at hfiles
    obtain ⟨importing, himporting⟩ := Option.ne_none_iff_exists'.mp
      (mt Table.get?_eq_none_iff.mp (not_not.mpr hfiles))
    obtain ⟨others, hothers⟩ := grows_importers_append files more record.path importing himporting
    obtain rfl := Option.some.inj (hothers.symm.trans hall)
    exact mem_missing.mpr (mem_outcomes_iff.mpr
      ⟨record.path, importing, himporting, resolveOne_eq_of_missing houtcome⟩)

/-- **More files never leave an import missing that fewer resolve.** What is resolved for some files
is resolved for these and others, with the same provenance, and what the files import and is missing
for all of them was missing for these, under any library whose answer depends on the path only. So
it is for services that ask such libraries, with the same patience and whatever happened before;
without a limit, if both resolutions return. -/
theorem resolve_grown (files more : List SourceFile) (lookup : String → Lookup) :
    (resolve files lookup).Grown files (resolve (files ++ more) lookup) ∧
      ∀ net library net' library', Library.Answers net library lookup →
        Library.Answers net' library' lookup → ∀ trace trace',
          (∀ patience, ((resolveWith net library patience files).run trace).1.Grown files
            ((resolveWith net' library' patience (files ++ more)).run trace').1) ∧
          ∀ r r', ((resolveWithoutLimit net library files).run trace).1 = some r →
            ((resolveWithoutLimit net' library' (files ++ more)).run trace').1 = some r' →
              r.Grown files r' := by
  refine ⟨grown_resolve files more lookup, ?_⟩
  intro net library net' library' hlibrary hlibrary' trace trace'
  refine ⟨fun patience => ?_, fun r r' hr hr' => ?_⟩
  · rw [resolveWith_of_answers hlibrary, resolveWith_of_answers hlibrary']
    exact grown_resolve files more (patience.through lookup)
  · rw [resolveWithoutLimit_of_answers hlibrary hr, resolveWithoutLimit_of_answers hlibrary' hr']
    exact grown_resolve files more lookup

end Import

end ContractLens
