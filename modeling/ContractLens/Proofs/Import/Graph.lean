import ContractLens.Import.Graph
import ContractLens.Proofs.Import.Located
import ContractLens.Proofs.Import.Partition
import ContractLens.Source.Collect
import Mathlib.Data.List.Nodup
/-!
# The graphs of a set

Two graphs say by path what the files of a set import: one all of it, the other what was resolved.
Both are tables in which a file sets the entry of its path, so of files that share a path the last
one counts (`edges_declaredGraph`, `edges_resolvedGraph`). It counts in both, which is why the two
agree with each other and with the resolution of the set (`agree_resolve`).

A resolution goes through all files, though. What a file imports is listed under its path unless a
later file has the path and does not import it too (`covers_resolvedGraph`).
-/

namespace ContractLens

namespace Import

variable {files : List SourceFile} {path target : String}

/-- The imports that a graph lists under a path. -/
def DependencyGraph.edges (graph : DependencyGraph) (path : String) : List String :=
  (Table.get? graph path).getD []

/-! ## The last file with a path -/

theorem get?_ofFiles (value : SourceFile → List String) (files : List SourceFile)
    (path : String) :
    Table.get? (Table.ofEntries (files.map fun file => (file.path, value file))) path =
      (lastAt? files path).map value := by
  rw [Table.get?_ofEntries, ← List.map_reverse, Table.get?, List.find?_map, lastAt?,
    Option.map_map]
  rfl

theorem names_ofFiles (value : SourceFile → List String) (files : List SourceFile) :
    Table.names (Table.ofEntries (files.map fun file => (file.path, value file))) =
      distinct (files.map (·.path)) := by
  rw [Table.ofEntries, List.foldl_map]
  exact names_foldl_insert (·.path) (fun _ => value) files []

theorem edges_declaredGraph (files : List SourceFile) (path : String) :
    (declaredGraph files).edges path =
      ((lastAt? files path).map fun file => extract file.content).getD [] :=
  congrArg (·.getD []) (get?_ofFiles _ files path)

/-- **The resolved imports of a path are kept from its imports**, in their order. -/
theorem edges_resolvedGraph (files : List SourceFile) (r : Resolution) (path : String) :
    (resolvedGraph files r).edges path =
      ((declaredGraph files).edges path).filter (r.resolved.map (·.path)).contains := by
  have hlast : (resolvedGraph files r).edges path = ((lastAt? files path).map fun file =>
      (extract file.content).filter (r.resolved.map (·.path)).contains).getD [] :=
    congrArg (·.getD []) (get?_ofFiles _ files path)
  rw [hlast, edges_declaredGraph]
  cases lastAt? files path <;> rfl

theorem mem_edges_declaredGraph :
    target ∈ (declaredGraph files).edges path ↔
      ∃ file, LastAt files path file ∧ target ∈ extract file.content := by
  rw [edges_declaredGraph]
  constructor
  · intro h
    cases hlast : lastAt? files path with
    | none =>
      rw [hlast] at h
      cases h
    | some file =>
      rw [hlast] at h
      exact ⟨file, lastAt?_eq_some_iff.mp hlast, h⟩
  · rintro ⟨file, hlast, hmem⟩
    rw [lastAt?_eq_some_iff.mpr hlast]
    exact hmem

theorem mem_edges_resolvedGraph {r : Resolution} :
    target ∈ (resolvedGraph files r).edges path ↔
      target ∈ (declaredGraph files).edges path ∧ target ∈ r.resolved.map (·.path) := by
  rw [edges_resolvedGraph, List.mem_filter, List.contains_iff_mem]

theorem LastAt.mem {file : SourceFile} (h : LastAt files path file) : file ∈ files :=
  mem_of_lastAt? (lastAt?_eq_some_iff.mpr h)

/-- A file is the last with its path, unless there is a later one. -/
theorem lastAt?_append_cons (before after : List SourceFile) (file : SourceFile) :
    lastAt? (before ++ file :: after) file.path = (lastAt? after file.path).or (some file) := by
  have hreverse : (before ++ file :: after).reverse = after.reverse ++ file :: before.reverse := by
    simp
  have hhere : (file :: before.reverse).find? (·.path == file.path) = some file :=
    List.find?_cons_of_pos (beq_self_eq_true file.path)
  rw [lastAt?, hreverse, List.find?_append, hhere, lastAt?]

/-! ## One graph and the files -/

/-- A graph of the resolved imports of a set, in which of files with one path the last counts. -/
structure Covers (files : List SourceFile) (r : Resolution) (graph : DependencyGraph) : Prop where
  /-- The nodes are the paths of the files. -/
  nodes : ∀ path, path ∈ Table.names graph ↔ ∃ file ∈ files, file.path = path
  /-- What is listed under a path is resolved, and a file with the path imports it. -/
  sound : ∀ path target, target ∈ graph.edges path → target ∈ r.resolved.map (·.path) ∧
    ∃ file ∈ files, file.path = path ∧ target ∈ extract file.content
  /-- What a file imports and is resolved is listed under its path, unless the last of the later
  files with that path does not import it. -/
  complete : ∀ before file after, files = before ++ file :: after →
    ∀ target ∈ extract file.content, target ∈ r.resolved.map (·.path) →
      (target ∈ graph.edges file.path ↔
        ∀ later, LastAt after file.path later → target ∈ extract later.content)

theorem mem_names_ofFiles (value : SourceFile → List String) :
    path ∈ Table.names (Table.ofEntries (files.map fun file => (file.path, value file))) ↔
      ∃ file ∈ files, file.path = path := by
  rw [names_ofFiles, mem_distinct, List.mem_map]

/-- **The graph of the resolved imports lists every file's**, unless a later file of the same path
stands in its place. -/
theorem covers_resolvedGraph (files : List SourceFile) (r : Resolution) :
    Covers files r (resolvedGraph files r) where
  nodes _ := mem_names_ofFiles _
  sound path target h := by
    obtain ⟨hdeclared, hresolved⟩ := mem_edges_resolvedGraph.mp h
    obtain ⟨file, hlast, hmem⟩ := mem_edges_declaredGraph.mp hdeclared
    exact ⟨hresolved, file, hlast.mem, hlast.1, hmem⟩
  complete before file after hfiles target htarget hresolved := by
    subst hfiles
    rw [mem_edges_resolvedGraph, and_iff_left hresolved, edges_declaredGraph, lastAt?_append_cons]
    cases hlater : lastAt? after file.path with
    | none =>
      refine iff_of_true htarget fun later hlast => ?_
      rw [lastAt?_eq_some_iff.mpr hlast] at hlater
      cases hlater
    | some last =>
      constructor
      · intro h later hlast
        rw [← lastAt?_eq_some_iff, hlater] at hlast
        cases hlast
        exact h
      · exact fun h => h last (lastAt?_eq_some_iff.mp hlater)

/-- Two files of one name in different directories, the first of which imports a third file. -/
def namesakes : Tree where
  files := [
    (⟨"", ["core", "Token.sol"]⟩, "import './Math.sol';".toUTF8.toList),
    (⟨"", ["mock", "Token.sol"]⟩, "contract Token \x7b\x7d".toUTF8.toList),
    (⟨"", ["Math.sol"]⟩, "library Math \x7b\x7d".toUTF8.toList)]

/-- **The second file of a name hides what the first one imports**: the three files are collected,
the import is resolved, and nothing is listed under the name. -/
theorem edges_namesakes :
    ∃ files, Source.collect namesakes ["core/Token.sol", "mock/Token.sol", "Math.sol"] = .ok files ∧
      let r := resolve files fun _ => .absent
      (∃ file ∈ files, file.path = "Token.sol" ∧ "./Math.sol" ∈ extract file.content) ∧
        "./Math.sol" ∈ r.resolved.map (·.path) ∧
          "./Math.sol" ∉ (resolvedGraph files r).edges "Token.sol" := by
  refine ⟨[⟨"Token.sol", "import './Math.sol';"⟩, ⟨"Token.sol", "contract Token \x7b\x7d"⟩,
    ⟨"Math.sol", "library Math \x7b\x7d"⟩], ?_, ?_⟩
  · decide +kernel
  · decide +kernel

/-! ## The graphs and the resolution -/

/-- Two graphs of a set, one of all imports and one of those resolved, that agree with each other
and with a resolution. -/
structure Agree (files : List SourceFile) (r : Resolution)
    (declared resolved : DependencyGraph) : Prop where
  /-- The nodes of the first are the paths of the files. -/
  nodes : ∀ path, path ∈ Table.names declared ↔ ∃ file ∈ files, file.path = path
  /-- No node is there twice. -/
  once : (Table.names declared).Nodup
  /-- The second has the same nodes in the same order. -/
  same : Table.names resolved = Table.names declared
  /-- The first lists what the last file with the path imports. -/
  declares : ∀ path file, LastAt files path file → declared.edges path = extract file.content
  /-- The second keeps some of these imports, in the same order. -/
  sublist : ∀ path, (resolved.edges path).Sublist (declared.edges path)
  /-- None is there twice. -/
  distinct : ∀ path, (resolved.edges path).Nodup
  /-- What is kept is what was resolved. -/
  kept : ∀ path target, target ∈ resolved.edges path ↔
    target ∈ declared.edges path ∧ target ∈ r.resolved.map (·.path)
  /-- What is not kept is missing, and nothing else is. -/
  missing : ∀ path, ∀ target ∈ declared.edges path,
    target ∉ resolved.edges path ↔ target ∈ r.missing.map (·.path)

theorem nodup_extract (content : String) : (extract content).Nodup :=
  (inOrder_distinct _).nodup

theorem nodup_edges_declaredGraph (files : List SourceFile) (path : String) :
    ((declaredGraph files).edges path).Nodup := by
  rw [edges_declaredGraph]
  cases lastAt? files path with
  | none => exact List.nodup_nil
  | some file => exact nodup_extract file.content

theorem agree_graphs (files : List SourceFile) (lookup : String → Lookup) :
    Agree files (resolve files lookup) (declaredGraph files)
      (resolvedGraph files (resolve files lookup)) where
  nodes _ := mem_names_ofFiles _
  once := Table.nodup_names_ofEntries _
  same := (names_ofFiles _ files).trans (names_ofFiles _ files).symm
  declares path file hlast := by
    rw [edges_declaredGraph, lastAt?_eq_some_iff.mpr hlast]
    rfl
  sublist path := by
    rw [edges_resolvedGraph]
    exact List.filter_sublist
  distinct path := by
    rw [edges_resolvedGraph]
    exact (nodup_edges_declaredGraph files path).filter _
  kept _ _ := mem_edges_resolvedGraph
  missing path target htarget := by
    -- an import has one record: it is among the resolved or among the missing, not among both
    obtain ⟨file, hlast, hmem⟩ := mem_edges_declaredGraph.mp htarget
    have hrecord : target ∈ (resolve files lookup).resolved.map (·.path) ++
        (resolve files lookup).missing.map (·.path) :=
      mem_paths_collect.mpr ⟨file, hlast.mem, hmem⟩
    have hdisjoint := List.disjoint_of_nodup_append (nodup_paths_collect files lookup)
    rw [mem_edges_resolvedGraph, and_iff_right htarget]
    exact ⟨(List.mem_append.mp hrecord).resolve_left,
      fun hmissing hresolved => hdisjoint hresolved hmissing⟩

/-- **The two graphs of a set and its resolution agree**: of the imports of a node those that were
resolved are its edges and the others are missing. So it is for any library, with any patience or,
if the resolution returns, without a limit, and whatever happened before. -/
theorem agree_resolve (files : List SourceFile) :
    (∀ lookup, Agree files (resolve files lookup) (declaredGraph files)
      (resolvedGraph files (resolve files lookup))) ∧
    ∀ net library trace,
      (∀ patience, let r := ((resolveWith net library patience files).run trace).1
        Agree files r (declaredGraph files) (resolvedGraph files r)) ∧
      ∀ r, ((resolveWithoutLimit net library files).run trace).1 = some r →
        Agree files r (declaredGraph files) (resolvedGraph files r) := by
  refine ⟨agree_graphs files, fun net library trace =>
    ⟨fun patience => agree_graphs files _, fun r hreturns => ?_⟩⟩
  rw [eq_resolveFrom_of_run hreturns]
  exact agree_graphs files _

end Import

end ContractLens
