import ContractLens.Import.Resolve
import ContractLens.Proofs.Table
/-!
# What becomes of the imports of a set

Each distinct path that the files of a set import has exactly one record, resolved or missing, and
both lists follow the order of first appearance. Every outcome names its own path and carries the
provenance of that path (`settled_resolveOne`), and sorting outcomes into their lists loses and
repeats none (`perm_collect`).

A library answers what it likes for each path, or fails, or does not answer in time. It is asked for
the package paths that no file of the set carries and for no others (`resolve_congr`). A failure
that is not made into a record ends the resolution, and without a time limit so does waiting for an
answer that never comes (`conclude_of_replies`, `exists_failed_of_reply`). A failure without words
and without a name leaves its record without a reason (`reasonless_of_nameless`).
-/

namespace ContractLens

/-- A failure without words whose kind has no name. -/
def Failure.Nameless (failure : Failure) : Prop := failure.message = "" ∧ failure.kind? = some ""

theorem append_ne_empty_left {s : String} (t : String) (h : s ≠ "") : s ++ t ≠ "" :=
  fun e => h (String.append_eq_empty_iff.mp e).1

theorem append_ne_empty_right (s : String) {t : String} (h : t ≠ "") : s ++ t ≠ "" :=
  fun e => h (String.append_eq_empty_iff.mp e).2

theorem intercalate_ne_empty (separator : String) {s : String} (rest : List String)
    (h : s ≠ "") : String.intercalate separator (s :: rest) ≠ "" := by
  cases rest with
  | nil => rwa [String.intercalate_singleton]
  | cons other rest =>
    rw [String.intercalate_cons_cons]
    exact append_ne_empty_left _ (append_ne_empty_left _ h)

theorem Failure.message_ne_empty {failure : Failure} (h : failure.kind? = none) :
    failure.message ≠ "" := by
  cases failure with
  | invalidAddress address => exact append_ne_empty_left _ (by decide)
  | unsupportedChain id => exact append_ne_empty_left _ (by decide)
  | unreadable reason =>
    cases reason with
    | malformed complaint line column index =>
      exact append_ne_empty_right _ (by decide)
    | hugeInteger digits => exact append_ne_empty_left _ (append_ne_empty_left _ (by decide))
    | tooDeep => decide
  | refused model problems =>
    refine intercalate_ne_empty _ _ (append_ne_empty_left _ (append_ne_empty_right _ ?_))
    decide
  | unreadableSetting name => exact append_ne_empty_right _ (by decide)
  | _ => cases h

/-- **A failure is described by nothing only if it is nameless.** -/
theorem Failure.nameless_of_describe {failure : Failure} (h : failure.describe = "") :
    failure.Nameless := by
  rw [Failure.describe] at h
  split at h
  · rename_i hempty
    have hmessage : failure.message = "" := by simpa using hempty
    cases hkind : failure.kind? with
    | none => exact absurd hmessage (Failure.message_ne_empty hkind)
    | some kind =>
      rw [hkind] at h
      exact ⟨hmessage, hkind.trans (congrArg some h)⟩
  · rename_i hfull
    exact absurd (by rw [h]; rfl) hfull

namespace Import

variable {files : List SourceFile} {lookup : String → Lookup}

/-! ## Paths once each -/

theorem mem_foldl_distinct {items all : List String} {path : String} :
    path ∈ items.foldl (fun all item => if all.contains item then all else all ++ [item]) all ↔
      path ∈ all ∨ path ∈ items := by
  induction items generalizing all with
  | nil => simp
  | cons item items ih =>
    rw [List.foldl_cons, ih, List.mem_cons]
    split
    · rename_i hold
      have hold : item ∈ all := by simpa using hold
      constructor
      · rintro (h | h)
        · exact .inl h
        · exact .inr (.inr h)
      · rintro (h | rfl | h)
        · exact .inl h
        · exact .inl hold
        · exact .inr h
    · rw [List.mem_append, List.mem_singleton, or_assoc]

theorem mem_distinct {items : List String} {path : String} :
    path ∈ distinct items ↔ path ∈ items := by
  rw [distinct, mem_foldl_distinct]
  simp

/-- Texts of which each first appears before the ones after it; no text is there twice. -/
def InOrder (items part : List String) : Prop :=
  part.Pairwise fun a b => items.idxOf a < items.idxOf b

theorem inOrder_foldl_distinct (rest : List String) {done all : List String}
    (hmem : ∀ path, path ∈ all ↔ path ∈ done) (h : InOrder (done ++ rest) all) :
    InOrder (done ++ rest)
      (rest.foldl (fun all item => if all.contains item then all else all ++ [item]) all) := by
  induction rest generalizing done all with
  | nil => exact h
  | cons item rest ih =>
    have hsplit : done ++ item :: rest = (done ++ [item]) ++ rest := by simp
    rw [List.foldl_cons, hsplit]
    rw [hsplit] at h
    apply ih
    · intro path
      split
      · rename_i hold
        have hold : item ∈ done := (hmem item).mp (by simpa using hold)
        rw [hmem, List.mem_append, List.mem_singleton]
        exact ⟨.inl, fun h => h.elim id fun e => e ▸ hold⟩
      · rw [List.mem_append, List.mem_append, hmem]
    · split
      · exact h
      · rename_i hnew
        have hnew : item ∉ done := fun hd => hnew (by simpa using (hmem item).mpr hd)
        refine List.pairwise_append.mpr ⟨h, List.pairwise_singleton _ _, fun a ha b hb => ?_⟩
        -- what is there already was met before the new item, which is met here for the first time
        have ha : a ∈ done := (hmem a).mp ha
        rw [List.mem_singleton.mp hb, ← hsplit, List.idxOf_append, List.idxOf_append, if_pos ha,
          if_neg hnew, List.idxOf_cons_self]
        exact Nat.lt_of_lt_of_le (List.idxOf_lt_length_of_mem ha) (Nat.le_add_left _ _)

theorem inOrder_distinct (items : List String) : InOrder items (distinct items) := by
  have h : InOrder ([] ++ items) [] := .nil
  exact inOrder_foldl_distinct items (fun _ => Iff.rfl) h

theorem InOrder.nodup {items part : List String} (h : InOrder items part) : part.Nodup :=
  List.Pairwise.imp (fun {a b} (hlt : items.idxOf a < items.idxOf b) (e : a = b) =>
    Nat.lt_irrefl _ (e ▸ hlt)) h

/-- All paths that a set imports, file by file. -/
def appearances (files : List SourceFile) : List String :=
  files.flatMap fun file => extract file.content

theorem names_insert (table : Table (List String)) (name : String) (value : List String) :
    (table.insert name value).names =
      if table.names.contains name then table.names else table.names ++ [name] := by
  by_cases h : name ∈ table.names
  · rw [Table.names_insert_of_mem value h, if_pos (by simpa using h)]
  · rw [Table.names_insert_of_not_mem value h, if_neg (by simpa using h)]

theorem names_foldl_insert {α : Type} (name : α → String)
    (value : Table (List String) → α → List String) (items : List α)
    (table : Table (List String)) :
    (items.foldl (fun table item => table.insert (name item) (value table item)) table).names =
      (items.map name).foldl (fun all item => if all.contains item then all else all ++ [item])
        table.names := by
  induction items generalizing table with
  | nil => rfl
  | cons item items ih => rw [List.foldl_cons, ih, names_insert, List.map_cons, List.foldl_cons]

/-- The table of importers has the distinct paths as its names. -/
theorem names_importers (files : List SourceFile) :
    (importers files).names = distinct (appearances files) := by
  -- the table grows from file to file, so the induction starts from any table
  suffices h : ∀ table : Table (List String),
      (files.foldl (fun all file =>
        (extract file.content).foldl (fun (all : Table (List String)) path =>
          all.insert path ((all.get? path).getD [] ++ [file.path])) all) table).names =
      (files.flatMap fun file => extract file.content).foldl
        (fun all item => if all.contains item then all else all ++ [item]) table.names from
    h []
  induction files with
  | nil => exact fun _ => rfl
  | cons file files ih =>
    intro table
    have hfile := names_foldl_insert id
      (fun all path => (all.get? path).getD [] ++ [file.path]) (extract file.content) table
    rw [List.map_id] at hfile
    rw [List.foldl_cons, ih, List.flatMap_cons, List.foldl_append, ← hfile]
    rfl

/-! ## Outcomes in their lists -/

/-- The path that an outcome is about. -/
def Outcome.path : Outcome → String
  | .resolved record _ => record.path
  | .missing record => record.path

/-- **Sorting outcomes into their lists loses none and repeats none.** -/
theorem perm_collect (outcomes : List Outcome) :
    ((collect outcomes).resolved.map (·.path) ++ (collect outcomes).missing.map (·.path)).Perm
      (outcomes.map Outcome.path) := by
  induction outcomes with
  | nil => exact .nil
  | cons outcome outcomes ih =>
    cases outcome with
    | resolved record fetched => exact ih.cons record.path
    | missing record => exact List.perm_middle.trans (ih.cons record.path)

theorem sublist_resolved (outcomes : List Outcome) :
    ((collect outcomes).resolved.map (·.path)).Sublist (outcomes.map Outcome.path) := by
  induction outcomes with
  | nil => exact .slnil
  | cons outcome outcomes ih =>
    cases outcome with
    | resolved record fetched => exact ih.cons_cons record.path
    | missing record => exact ih.cons record.path

theorem sublist_missing (outcomes : List Outcome) :
    ((collect outcomes).missing.map (·.path)).Sublist (outcomes.map Outcome.path) := by
  induction outcomes with
  | nil => exact .slnil
  | cons outcome outcomes ih =>
    cases outcome with
    | resolved record fetched => exact ih.cons record.path
    | missing record => exact ih.cons_cons record.path

theorem sublist_autoFetched (outcomes : List Outcome) :
    (collect outcomes).autoFetched.Sublist (collect outcomes).resolved := by
  induction outcomes with
  | nil => exact .slnil
  | cons outcome outcomes ih =>
    rcases outcome with ⟨record, fetched⟩ | record
    · cases fetched with
      | true => exact ih.cons_cons record
      | false => exact ih.cons record
    · exact ih

theorem mem_resolved {outcomes : List Outcome} {record : ResolvedImport} :
    record ∈ (collect outcomes).resolved ↔
      ∃ fetched, Outcome.resolved record fetched ∈ outcomes := by
  rw [collect, List.mem_filterMap]
  constructor
  · rintro ⟨outcome, hmem, h⟩
    cases outcome with
    | resolved record' fetched =>
      cases h
      exact ⟨fetched, hmem⟩
    | missing => cases h
  · rintro ⟨fetched, hmem⟩
    exact ⟨_, hmem, rfl⟩

theorem mem_missing {outcomes : List Outcome} {record : MissingImport} :
    record ∈ (collect outcomes).missing ↔ Outcome.missing record ∈ outcomes := by
  rw [collect, List.mem_filterMap]
  constructor
  · rintro ⟨outcome, hmem, h⟩
    cases outcome with
    | resolved => cases h
    | missing record' =>
      cases h
      exact hmem
  · exact fun hmem => ⟨_, hmem, rfl⟩

theorem mem_autoFetched {outcomes : List Outcome} {record : ResolvedImport} :
    record ∈ (collect outcomes).autoFetched ↔ Outcome.resolved record true ∈ outcomes := by
  rw [collect, List.mem_filterMap]
  constructor
  · rintro ⟨outcome, hmem, h⟩
    rcases outcome with ⟨record', fetched⟩ | record'
    · cases fetched with
      | true =>
        cases h
        exact hmem
      | false => cases h
    · cases h
  · exact fun hmem => ⟨_, hmem, rfl⟩

/-! ## One import -/

/-- What the library is asked for: package paths that no file of the set carries. -/
theorem needsLibrary_iff {path : String} :
    needsLibrary files path = true ↔
      Provenance.ofPath path = .npm ∧ ∀ file ∈ files, file.path ≠ path := by
  simp [needsLibrary]

/-- What a library's answer makes of an import: a text resolves it, anything else does not. -/
theorem ofLookup_cases (path : String) (outcome : Lookup) :
    (∃ body, outcome = .found (.text body) ∧
        ofLookup path outcome = .resolved ⟨path, .npm, body⟩ true) ∨
      (∀ body, outcome ≠ .found (.text body)) ∧
        ∃ error, ofLookup path outcome = miss path error ∧
          (error = "" → ∃ failure, outcome = .failed failure ∧ failure.Nameless) := by
  have htimeout : timeoutText path ≠ "" := append_ne_empty_left _ (by decide)
  cases outcome with
  | absent => exact .inr ⟨nofun, _, rfl, fun h => absurd h (by decide)⟩
  | unanswered => exact .inr ⟨nofun, _, rfl, fun h => absurd h htimeout⟩
  | failed failure =>
    refine .inr ⟨nofun, ?_⟩
    by_cases htime : ranOut (.failed failure) = true
    · exact ⟨_, if_pos htime, fun h => absurd h htimeout⟩
    · exact ⟨failure.describe, if_neg htime,
        fun h => ⟨failure, rfl, Failure.nameless_of_describe h⟩⟩
  | found body =>
    cases body with
    | text body => exact .inl ⟨body, rfl, rfl⟩
    -- a refusal is told in words
    | _ => exact .inr ⟨nofun, _, rfl, fun h => nomatch (Failure.nameless_of_describe h).2⟩

theorem mem_of_lastAt? {path : String} {file : SourceFile} (h : lastAt? files path = some file) :
    file ∈ files :=
  List.mem_reverse.mp (List.mem_of_find?_eq_some h)

/-- A relative import means a file of the set. -/
theorem mem_of_locate? {path : String} {importers : List String} {file : SourceFile}
    (h : locate? path importers files = some file) : file ∈ files := by
  rw [locate?] at h
  split at h
  · rename_i hfound
    cases h
    obtain ⟨_, _, hlast⟩ := List.exists_of_findSome?_eq_some hfound
    exact mem_of_lastAt? hlast
  split at h
  · rename_i hfound
    cases h
    exact mem_of_lastAt? hfound
  dsimp only at h
  split at h
  · cases h
  · exact List.mem_of_find?_eq_some h

/-- What may become of the import of a path. -/
inductive Settled (files : List SourceFile) (lookup : String → Lookup) (path : String) :
    Outcome → Prop
  /-- A relative import has the content of a file of the set. -/
  | relative {file : SourceFile} (htype : Provenance.ofPath path = .relative)
      (hfile : file ∈ files) :
      Settled files lookup path (.resolved ⟨path, .relative, file.content⟩ false)
  /-- A package import has the content of the first file with its path. -/
  | carried {file : SourceFile} (htype : Provenance.ofPath path = .npm)
      (hfile : files.find? (·.path == path) = some file) :
      Settled files lookup path (.resolved ⟨path, .npm, file.content⟩ false)
  /-- A package import that no file carries has the body that the library answers with. -/
  | fetched {body : String} (hneeds : needsLibrary files path = true)
      (hbody : lookup path = .found (.text body)) :
      Settled files lookup path (.resolved ⟨path, .npm, body⟩ true)
  /-- Any other import is missing, for a reason unless the library failed without one. -/
  | missing {error : String}
      (hlibrary : Provenance.ofPath path = .npm →
        needsLibrary files path = true ∧ ∀ body, lookup path ≠ .found (.text body))
      (herror : error = "" → needsLibrary files path = true ∧
        ∃ failure, lookup path = .failed failure ∧ failure.Nameless) :
      Settled files lookup path (miss path error)

theorem settled_resolveOne (files : List SourceFile) (lookup : String → Lookup) (path : String)
    (importers : List String) :
    Settled files lookup path (resolveOne files lookup path importers) := by
  rw [resolveOne, localContent?]
  cases htype : Provenance.ofPath path with
  | relative =>
    cases hfound : locate? path importers files with
    | some file => exact .relative htype (mem_of_locate? hfound)
    | none =>
      exact .missing (fun h => nomatch htype.symm.trans h) fun h => absurd h (by decide)
  | npm =>
    cases hfound : files.find? (·.path == path) with
    | some file => exact .carried htype hfound
    | none =>
      -- only here does the library's answer count
      have hneeds : needsLibrary files path = true :=
        needsLibrary_iff.mpr ⟨htype, fun file hfile => by
          simpa using List.find?_eq_none.mp hfound file hfile⟩
      rcases ofLookup_cases path (lookup path) with ⟨body, hbody, heq⟩ | ⟨hbody, error, heq, herror⟩
      · simp only [Option.map_none, heq]
        exact .fetched hneeds hbody
      · simp only [Option.map_none, heq]
        exact .missing (fun _ => ⟨hneeds, hbody⟩) fun h => ⟨hneeds, herror h⟩
  | github =>
    exact .missing (fun h => nomatch htype.symm.trans h) fun h => absurd h (by decide)
  | unknown =>
    exact .missing (fun h => nomatch htype.symm.trans h) fun h => absurd h (by decide)

/-- Whatever becomes of an import, its record is about its path. -/
theorem path_resolveOne (files : List SourceFile) (lookup : String → Lookup) (path : String)
    (importers : List String) : (resolveOne files lookup path importers).path = path := by
  rw [resolveOne]
  split
  · rfl
  split
  · rfl
  · rcases ofLookup_cases path (lookup path) with ⟨body, -, heq⟩ | ⟨-, error, heq, -⟩
    · rw [heq]
      rfl
    · rw [heq]
      rfl
  · rfl
  · rfl

/-! ## All imports of a set -/

/-- What becomes of each import, in order of first appearance. -/
def outcomes (files : List SourceFile) (lookup : String → Lookup) : List Outcome :=
  (importers files).map fun (path, importers) => resolveOne files lookup path importers

theorem exists_settled_of_mem {outcome : Outcome}
    (h : outcome ∈ outcomes files lookup) :
    ∃ path ∈ appearances files, Settled files lookup path outcome := by
  obtain ⟨⟨path, importing⟩, hmem, rfl⟩ := List.mem_map.mp h
  have hname : path ∈ (importers files).names := List.mem_map_of_mem hmem
  rw [names_importers, mem_distinct] at hname
  exact ⟨path, hname, settled_resolveOne files lookup path importing⟩

theorem exists_mem_of_appears (lookup : String → Lookup) {path : String}
    (h : path ∈ appearances files) :
    ∃ outcome ∈ outcomes files lookup, Settled files lookup path outcome := by
  rw [← mem_distinct, ← names_importers] at h
  obtain ⟨⟨_, importing⟩, hmem, rfl⟩ := List.mem_map.mp h
  exact ⟨_, List.mem_map_of_mem hmem, settled_resolveOne files lookup _ importing⟩

/-- The outcomes are about the distinct paths, in order. -/
theorem map_path_outcomes (files : List SourceFile) (lookup : String → Lookup) :
    (outcomes files lookup).map Outcome.path = distinct (appearances files) := by
  rw [← names_importers, outcomes, List.map_map]
  exact List.map_congr_left fun entry _ => path_resolveOne files lookup entry.1 entry.2

theorem inOrder_outcomes (files : List SourceFile) (lookup : String → Lookup) :
    InOrder (appearances files) ((outcomes files lookup).map Outcome.path) :=
  map_path_outcomes files lookup ▸ inOrder_distinct (appearances files)

/-- A resolution that has one record for each path that a set imports. -/
structure Partition (files : List SourceFile) (lookup : String → Lookup) (r : Resolution) :
    Prop where
  /-- The records are about the paths that some file imports. -/
  covered : ∀ path, path ∈ r.resolved.map (·.path) ++ r.missing.map (·.path) ↔
    ∃ file ∈ files, path ∈ extract file.content
  /-- No path has two records. -/
  once : (r.resolved.map (·.path) ++ r.missing.map (·.path)).Nodup
  /-- What is resolved is in order of first appearance. -/
  resolved_order : InOrder (appearances files) (r.resolved.map (·.path))
  /-- What is missing is in order of first appearance. -/
  missing_order : InOrder (appearances files) (r.missing.map (·.path))
  /-- Each record has the provenance of its path; paths of code hosts and of nowhere known have
  none that is resolved. -/
  resolved_type : ∀ record ∈ r.resolved, record.type = .ofPath record.path ∧
    (record.type = .relative ∨ record.type = .npm)
  /-- Each record has the provenance of its path. -/
  missing_type : ∀ record ∈ r.missing, record.type = .ofPath record.path
  /-- A relative import is resolved with the content of a file of the set. -/
  relative : ∀ record ∈ r.resolved, record.type = .relative →
    ∃ file ∈ files, file.content = record.content
  /-- A package import that some file carries is resolved with the first such file's content, and
  the library is not asked for it. -/
  carried : ∀ path ∈ appearances files, Provenance.ofPath path = .npm →
    ∀ file, files.find? (·.path == path) = some file →
      ⟨path, .npm, file.content⟩ ∈ r.resolved ∧ path ∉ wanted files
  /-- What was fetched is among what is resolved, in the same order. -/
  fetched_order : r.autoFetched.Sublist r.resolved
  /-- Fetched are the package imports that no file carries, with the bodies that the library
  answered with. -/
  fetched : ∀ record, record ∈ r.autoFetched ↔
    record.path ∈ appearances files ∧ record.type = .npm ∧
      Provenance.ofPath record.path = .npm ∧ (∀ file ∈ files, file.path ≠ record.path) ∧
        lookup record.path = .found (.text record.content)
  /-- What is missing is missing for a reason, unless the library was asked for it and failed
  without words and without a name. -/
  reason : ∀ record ∈ r.missing, record.error = "" → record.path ∈ wanted files ∧
    ∃ failure, lookup record.path = .failed failure ∧ failure.Nameless

theorem mem_appearances {path : String} :
    path ∈ appearances files ↔ ∃ file ∈ files, path ∈ extract file.content :=
  List.mem_flatMap

theorem mem_wanted {path : String} :
    path ∈ wanted files ↔ path ∈ appearances files ∧ needsLibrary files path = true := by
  have hnames : (importers files).map (·.1) = distinct (appearances files) := names_importers files
  rw [wanted, List.mem_filter, hnames, mem_distinct]

theorem settled_of_resolved {record : ResolvedImport}
    (h : record ∈ (resolve files lookup).resolved) :
    ∃ path fetched, Settled files lookup path (.resolved record fetched) := by
  obtain ⟨fetched, hmem⟩ := mem_resolved.mp h
  obtain ⟨path, -, hsettled⟩ := exists_settled_of_mem hmem
  exact ⟨path, fetched, hsettled⟩

theorem settled_of_missing {record : MissingImport}
    (h : record ∈ (resolve files lookup).missing) :
    ∃ path ∈ appearances files, Settled files lookup path (.missing record) :=
  exists_settled_of_mem (mem_missing.mp h)

/-- A package path that some file carries is not one that the library is asked for. -/
theorem needsLibrary_of_carried {path : String} {file : SourceFile}
    (h : files.find? (·.path == path) = some file) : needsLibrary files path = false := by
  refine Bool.eq_false_iff.mpr fun hneeds => ?_
  have hpath : file.path = path := by simpa using List.find?_some h
  exact (needsLibrary_iff.mp hneeds).2 file (List.mem_of_find?_eq_some h) hpath

theorem carried_mem_resolved {path : String}
    (hpath : path ∈ appearances files) (htype : Provenance.ofPath path = .npm) {file : SourceFile}
    (hfile : files.find? (·.path == path) = some file) :
    ⟨path, .npm, file.content⟩ ∈ (resolve files lookup).resolved := by
  have hlocal := needsLibrary_of_carried hfile
  obtain ⟨outcome, hmem, hsettled⟩ := exists_mem_of_appears lookup hpath
  -- whatever else the path could have come to goes against its provenance, or needs the library
  cases hsettled with
  | relative hrelative => cases hrelative.symm.trans htype
  | @carried first _ hfirst =>
    cases hfirst.symm.trans hfile
    exact mem_resolved.mpr ⟨false, hmem⟩
  | fetched hneeds => cases hneeds.symm.trans hlocal
  | missing hlibrary => cases (hlibrary htype).1.symm.trans hlocal

theorem mem_autoFetched_resolve {record : ResolvedImport} :
    record ∈ (resolve files lookup).autoFetched ↔
      record.path ∈ appearances files ∧ record.type = .npm ∧
        Provenance.ofPath record.path = .npm ∧ (∀ file ∈ files, file.path ≠ record.path) ∧
          lookup record.path = .found (.text record.content) := by
  constructor
  · intro h
    obtain ⟨path, hpath, hsettled⟩ := exists_settled_of_mem (mem_autoFetched.mp h)
    cases hsettled with
    | fetched hneeds hbody =>
      obtain ⟨htype, hfree⟩ := needsLibrary_iff.mp hneeds
      exact ⟨hpath, rfl, htype, hfree, hbody⟩
  · rintro ⟨hpath, hrecord, htype, hfree, hbody⟩
    have hneeds : needsLibrary files record.path = true := needsLibrary_iff.mpr ⟨htype, hfree⟩
    obtain ⟨path, type, content⟩ := record
    obtain ⟨outcome, hmem, hsettled⟩ := exists_mem_of_appears lookup hpath
    cases hrecord
    cases hsettled with
    | relative hrelative => cases hrelative.symm.trans htype
    | carried _ hfile => cases hneeds.symm.trans (needsLibrary_of_carried hfile)
    | fetched _ hfound =>
      cases hfound.symm.trans hbody
      exact mem_autoFetched.mpr hmem
    | missing hlibrary => exact absurd hbody ((hlibrary htype).2 content)

/-- The records are about the paths that some file imports. -/
theorem mem_paths_collect {path : String} :
    path ∈ (collect (outcomes files lookup)).resolved.map (·.path) ++
        (collect (outcomes files lookup)).missing.map (·.path) ↔
      ∃ file ∈ files, path ∈ extract file.content := by
  rw [(perm_collect (outcomes files lookup)).mem_iff, map_path_outcomes files lookup,
    mem_distinct, mem_appearances]

/-- No path has two records. -/
theorem nodup_paths_collect (files : List SourceFile) (lookup : String → Lookup) :
    ((collect (outcomes files lookup)).resolved.map (·.path) ++
      (collect (outcomes files lookup)).missing.map (·.path)).Nodup :=
  (perm_collect (outcomes files lookup)).nodup_iff.mpr (inOrder_outcomes files lookup).nodup

/-- The imports of a set are partitioned into resolved and missing ones. -/
theorem partition_collect (files : List SourceFile) (lookup : String → Lookup) :
    Partition files lookup (collect (outcomes files lookup)) where
  covered _ := mem_paths_collect
  once := nodup_paths_collect files lookup
  resolved_order := (inOrder_outcomes files lookup).sublist (sublist_resolved _)
  missing_order := (inOrder_outcomes files lookup).sublist (sublist_missing _)
  resolved_type record hrecord := by
    obtain ⟨path, fetched, hsettled⟩ := settled_of_resolved hrecord
    cases hsettled with
    | relative htype => exact ⟨htype.symm, .inl rfl⟩
    | carried htype => exact ⟨htype.symm, .inr rfl⟩
    | fetched hneeds => exact ⟨(needsLibrary_iff.mp hneeds).1.symm, .inr rfl⟩
  missing_type record hrecord := by
    obtain ⟨path, -, hsettled⟩ := settled_of_missing hrecord
    cases hsettled
    rfl
  relative record hrecord htype := by
    obtain ⟨path, fetched, hsettled⟩ := settled_of_resolved hrecord
    cases hsettled with
    | @relative file _ hfile => exact ⟨file, hfile, rfl⟩
    | carried => cases htype
    | fetched => cases htype
  carried path hpath htype file hfile :=
    ⟨carried_mem_resolved hpath htype hfile, fun hwanted =>
      nomatch (needsLibrary_of_carried hfile).symm.trans (mem_wanted.mp hwanted).2⟩
  fetched_order := sublist_autoFetched _
  fetched record := mem_autoFetched_resolve
  reason record hrecord hempty := by
    obtain ⟨path, hpath, hsettled⟩ := settled_of_missing hrecord
    cases hsettled with
    | missing _ herror =>
      obtain ⟨hneeds, hfailed⟩ := herror hempty
      exact ⟨mem_wanted.mpr ⟨hpath, hneeds⟩, hfailed⟩

/-! ## What the library is asked for -/

theorem resolveOne_congr {other : String → Lookup} {path : String} (importers : List String)
    (h : needsLibrary files path = true → other path = lookup path) :
    resolveOne files other path importers = resolveOne files lookup path importers := by
  rw [resolveOne, resolveOne]
  cases hlocal : localContent? files importers path with
  | some content => rfl
  | none =>
    cases htype : Provenance.ofPath path with
    | npm =>
      have hfree : ∀ file ∈ files, file.path ≠ path := by
        simpa [localContent?, htype] using hlocal
      simp only [h (needsLibrary_iff.mpr ⟨htype, hfree⟩)]
    | _ => rfl

/-- A resolution depends on what the library answers for the wanted paths and on no more. -/
theorem resolve_congr {other : String → Lookup}
    (h : ∀ path ∈ wanted files, other path = lookup path) :
    resolve files other = resolve files lookup := by
  refine congrArg collect (List.map_congr_left fun entry hentry => ?_)
  refine resolveOne_congr entry.2 fun hneeds => h entry.1 ?_
  exact List.mem_filter.mpr ⟨List.mem_map_of_mem hentry, hneeds⟩

/-- The first path is looked up, and then, at another point of the run, the rest. -/
theorem exists_run_lookAll (net : Http.Network) (library : Library) (reports : Bool)
    (path : String) (paths : List String) (trace : Trace) :
    ∃ between, ((lookAll net library reports (path :: paths)).run trace).1 =
      (path, ((library.lookup net path).run trace).1) ::
        ((lookAll net library reports paths).run between).1 := by
  have hrun : ((lookAll net library reports (path :: paths)).run trace).1 = ((do
      if reports && !isUnanswered ((library.lookup net path).run trace).1 then
        Traced.noteAll (warning? path ((library.lookup net path).run trace).1).toList
      return (path, ((library.lookup net path).run trace).1) ::
        (← lookAll net library reports paths) : Traced (List (String × Lookup))).run
          ((library.lookup net path).run trace).2).1 := rfl
  rw [hrun]
  split
  · exact ⟨_, rfl⟩
  · exact ⟨_, rfl⟩

theorem map_fst_lookAll (net : Http.Network) (library : Library) (reports : Bool)
    (paths : List String) (trace : Trace) :
    ((lookAll net library reports paths).run trace).1.map (·.1) = paths := by
  induction paths generalizing trace with
  | nil => rfl
  | cons path paths ih =>
    obtain ⟨between, hrun⟩ := exists_run_lookAll net library reports path paths trace
    rw [hrun, List.map_cons, ih]

/-- Whatever the patience, each path is asked for once and in turn. -/
theorem map_fst_lookups (net : Http.Network) (library : Library) (patience : Patience)
    (paths : List String) (trace : Trace) :
    ((lookups net library patience paths).run trace).1.map (·.1) = paths := by
  cases patience with
  | limited => exact map_fst_lookAll net library false paths trace
  | none =>
    show (paths.map fun path => (path, Lookup.unanswered)).map (·.1) = paths
    rw [List.map_map]
    exact List.map_id paths

/-! ## How a resolution ends -/

theorem gather_of_replies {reply : String → Reply} {paths : List String}
    (h : ∀ path ∈ paths, reply path = .ok (lookup path)) :
    gather reply paths = .ok (paths.map fun path => (path, lookup path)) := by
  induction paths with
  | nil => rfl
  | cons path paths ih =>
    rw [gather, h path List.mem_cons_self, ih fun p hp => h p (List.mem_cons_of_mem path hp)]
    rfl

theorem exists_failed_of_gather {reply : String → Reply} {paths : List String} {path : String}
    (hpath : path ∈ paths) {failure : Failure} (h : reply path = .error failure) :
    ∃ first ∈ paths, ∃ other, reply first = .error other ∧ gather reply paths = .error other := by
  induction paths with
  | nil => cases hpath
  | cons head paths ih =>
    cases hhead : reply head with
    | error other =>
      refine ⟨head, List.mem_cons_self, other, hhead, ?_⟩
      rw [gather, hhead]
      rfl
    | ok outcome =>
      have hrest : path ∈ paths := (List.mem_cons.mp hpath).resolve_left fun heq => by
        rw [heq, hhead] at h
        cases h
      obtain ⟨first, hfirst, other, hother, hgather⟩ := ih hrest
      refine ⟨first, List.mem_cons_of_mem head hfirst, other, hother, ?_⟩
      rw [gather, hhead, hgather]
      rfl

theorem get?_map_pair {paths : List String} (answer : String → Lookup) {path : String}
    (h : path ∈ paths) :
    Table.get? (paths.map fun path => (path, answer path)) path = some (answer path) := by
  induction paths with
  | nil => cases h
  | cons first paths ih =>
    rw [List.map_cons, Table.get?_cons]
    split
    · rename_i hfirst
      rw [hfirst]
    · rename_i hfirst
      exact ih ((List.mem_cons.mp h).resolve_left fun e => hfirst e.symm)

/-- The outcomes of all lookups that are made give the resolution. -/
theorem resolveFrom_map_pair (files : List SourceFile) (lookup : String → Lookup) :
    resolveFrom files ((wanted files).map fun path => (path, lookup path)) =
      resolve files lookup :=
  resolve_congr fun path hpath => by rw [get?_map_pair lookup hpath, Option.getD_some]

/-- A resolution without a limit that returns gives the records of the lookups that were made. -/
theorem eq_resolveFrom_of_run {net : Http.Network} {library : Library} {trace : Trace}
    {r : Resolution} (h : ((resolveWithoutLimit net library files).run trace).1 = some r) :
    r = resolveFrom files ((lookAll net library true (wanted files)).run trace).1 := by
  have hrun : ((resolveWithoutLimit net library files).run trace).1 =
      ((if anyUnanswered ((lookAll net library true (wanted files)).run trace).1 then pure none
        else do
          Traced.note (doneEntry (resolveFrom files
            ((lookAll net library true (wanted files)).run trace).1))
          return some (resolveFrom files
            ((lookAll net library true (wanted files)).run trace).1) :
              Traced (Option Resolution)).run
                ((lookAll net library true (wanted files)).run trace).2).1 := rfl
  rw [hrun] at h
  split at h
  · cases h
  · exact (Option.some.inj h).symm

/-- **A resolution returns the records of the outcomes**, or waits for one that never comes if there
is no limit. -/
theorem conclude_of_replies {reply : String → Reply}
    (h : ∀ path ∈ wanted files, reply path = .ok (lookup path)) (limited : Bool) :
    conclude files limited reply =
      if !limited && (wanted files).any fun path => isUnanswered (lookup path) then .waiting
      else .returned (resolve files lookup) := by
  rw [conclude, gather_of_replies h]
  simp only [anyUnanswered, List.any_map, Function.comp_def, resolveFrom_map_pair]

/-- **A failure that is not made into a record ends the resolution.** -/
theorem exists_failed_of_reply (reply : String → Reply) {path : String}
    (hpath : path ∈ wanted files) {failure : Failure} (h : reply path = .error failure)
    (limited : Bool) : ∃ first ∈ wanted files, ∃ other, reply first = .error other ∧
      conclude files limited reply = .failed other := by
  obtain ⟨first, hfirst, other, hother, hgather⟩ := exists_failed_of_gather hpath h
  refine ⟨first, hfirst, other, hother, ?_⟩
  rw [conclude, hgather]

/-- **The imports of a set are partitioned** into resolved and missing ones, whatever the library
answers for each path. The library matters at the wanted paths only, and a service asks it for these
and for no others.

A resolution under a limit returns, and one without a limit unless a lookup is never answered; but a
failure that is not made into a record ends either. -/
theorem partition_resolve (files : List SourceFile) (lookup : String → Lookup) :
    Partition files lookup (resolve files lookup) ∧
      (∀ other : String → Lookup, (∀ path ∈ wanted files, other path = lookup path) →
        resolve files other = resolve files lookup) ∧
      (∀ reply : String → Reply, (∀ path ∈ wanted files, reply path = .ok (lookup path)) →
        ∀ limited, conclude files limited reply =
          if !limited && (wanted files).any fun path => isUnanswered (lookup path) then .waiting
          else .returned (resolve files lookup)) ∧
      (∀ (reply : String → Reply), ∀ path ∈ wanted files, ∀ failure,
        reply path = .error failure → ∀ limited, ∃ first ∈ wanted files, ∃ other,
          reply first = .error other ∧ conclude files limited reply = .failed other) ∧
      ∀ net library patience trace,
        let answers := ((lookups net library patience (wanted files)).run trace).1
        answers.map (·.1) = wanted files ∧
          ((resolveWith net library patience files).run trace).1 =
            resolve files fun path => (Table.get? answers path).getD .absent :=
  ⟨partition_collect files lookup, fun _ h => resolve_congr h,
    fun _ h limited => conclude_of_replies h limited,
    fun reply _ hpath _ h limited => exists_failed_of_reply reply hpath h limited,
    fun net library patience trace => ⟨map_fst_lookups net library patience _ trace, rfl⟩⟩

/-- A file that imports packages, a file beside it, and from a code host. -/
def vaultFile : SourceFile := ⟨"src/Vault.sol",
  "import './Math.sol';\nimport \x7bERC20\x7d from '@openzeppelin/ERC20.sol';\n" ++
    "import 'solmate/Owned.sol';\nimport 'https://github.com/x/y.sol';"⟩

/-- A library that has an empty body for one package and fails without words for another. -/
def sparseLookup (path : String) : Lookup :=
  if path == "@openzeppelin/ERC20.sol" then .found (.text "")
  else if path == "solmate/Owned.sol" then .failed (.other "KeyError" "")
  else .unanswered

/-- The imports of the file are partitioned, and the resolution returns under a limit. -/
theorem partition_resolve_vault :
    Partition [vaultFile] sparseLookup (resolve [vaultFile] sparseLookup) ∧
      conclude [vaultFile] true (fun path => .ok (sparseLookup path)) =
        .returned (resolve [vaultFile] sparseLookup) := by
  obtain ⟨hpartition, -, hreturns, -⟩ := partition_resolve [vaultFile] sparseLookup
  exact ⟨hpartition, hreturns _ (fun _ _ => rfl) true⟩

/-- **A nameless failure leaves a record without a reason, one that is not made into a record ends
the resolution, and a body that is no text is not fetched.** -/
theorem reasonless_of_nameless :
    (∃ record ∈ (resolve [vaultFile] fun _ => .failed (.other "" "")).missing,
      record.error = "") ∧
    (∃ failure, conclude [vaultFile] true (fun _ => .error (.other "CancelledError" "")) =
      .failed failure) ∧
    "@openzeppelin/ERC20.sol" ∈ wanted [vaultFile] ∧
      (resolve [vaultFile] fun _ => .found (.int 5)).autoFetched = [] := by
  have hwanted : "@openzeppelin/ERC20.sol" ∈ wanted [vaultFile] := by decide +kernel
  refine ⟨⟨⟨"@openzeppelin/ERC20.sol", .npm, ""⟩, ?_, rfl⟩, ?_, hwanted, ?_⟩
  · decide +kernel
  · obtain ⟨_, -, failure, -, hfailed⟩ := exists_failed_of_reply
      (fun _ => .error (.other "CancelledError" "")) hwanted rfl true
    exact ⟨failure, hfailed⟩
  · decide +kernel

end Import

end ContractLens
