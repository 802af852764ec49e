import ContractLens.Proofs.Import.Partition
import Mathlib.Logic.Basic
/-!
# What a lookup of one import does to the others

Nothing. A resolution says of each path what `resolveOne` makes of it (`outcome?_resolve`), and that
depends on the files, on who imports the path, and on the library's answer for this path alone
(`resolveOne_congr`). So libraries that answer alike for all paths but one, whatever they do for
that one, leave every other record, and the order of the lists without it, as they are
(`agreeAway_resolve`). A service that asks such libraries adds nothing to this
(`resolveWith_of_answers`, `resolveWithoutLimit_of_answers`).

What the lookup of one import can do is to keep the whole resolution from returning: by a failure
that is not made into a record, or without a limit by never being answered
(`conclude_eq_returned_iff`).
-/

namespace ContractLens

/-! ## What a resolution says of a path -/

namespace Resolution

/-- What a resolution says became of a path: its record, and whether that was fetched. -/
def outcome? (r : Resolution) (path : String) : Option Import.Outcome :=
  match r.resolved.find? (·.path == path) with
  | some record => some (.resolved record (r.autoFetched.any (·.path == path)))
  | none => (r.missing.find? (·.path == path)).map .missing

/-- A resolution without the records of a path. -/
def without (r : Resolution) (path : String) : Resolution where
  resolved := r.resolved.filter (·.path != path)
  missing := r.missing.filter (·.path != path)
  autoFetched := r.autoFetched.filter (·.path != path)

/-- Two resolutions that say the same of all paths but one. -/
structure AgreeAway (path : String) (r other : Resolution) : Prop where
  /-- Every other path has the same record, fetched or not. -/
  outcome : ∀ q, q ≠ path → r.outcome? q = other.outcome? q
  /-- Without the path the three lists are the same. -/
  without : r.without path = other.without path

end Resolution

/-- A library that answers for each path in one way, whatever was asked before. -/
def Library.Answers (net : Http.Network) (library : Library) (answer : String → Lookup) : Prop :=
  ∀ path trace, ((library.lookup net path).run trace).1 = answer path

namespace Import

variable {files : List SourceFile} {lookup : String → Lookup} {path : String}

theorem find?_resolved_eq_none {outcomes : List Outcome} (h : path ∉ outcomes.map Outcome.path) :
    (collect outcomes).resolved.find? (·.path == path) = none := by
  refine List.find?_eq_none.mpr fun record hrecord hpath => h ?_
  have hmem := List.mem_map_of_mem (f := ResolvedImport.path) hrecord
  rw [beq_iff_eq.mp hpath] at hmem
  exact (sublist_resolved outcomes).subset hmem

theorem any_autoFetched_eq_false {outcomes : List Outcome}
    (h : path ∉ outcomes.map Outcome.path) :
    (collect outcomes).autoFetched.any (·.path == path) = false := by
  refine List.any_eq_false.mpr fun record hrecord => ?_
  exact List.find?_eq_none.mp (find?_resolved_eq_none h) record
    ((sublist_autoFetched outcomes).subset hrecord)

/-- **The lists say of a path what its outcome is**, where no path has two. -/
theorem outcome?_collect {outcomes : List Outcome} (h : (outcomes.map Outcome.path).Nodup) :
    (collect outcomes).outcome? path = outcomes.find? (·.path == path) := by
  induction outcomes with
  | nil => rfl
  | cons outcome outcomes ih =>
    obtain ⟨hnew, hrest⟩ := List.nodup_cons.mp h
    have ih := ih hrest
    rw [Resolution.outcome?] at ih ⊢
    cases outcome with
    | resolved record fetched =>
      have hresolved : (collect (.resolved record fetched :: outcomes)).resolved =
          record :: (collect outcomes).resolved := rfl
      rw [hresolved, List.find?_cons, List.find?_cons, Outcome.path]
      by_cases hpath : record.path = path
      · -- the record is the only one of its path, so it is fetched if it says so
        subst hpath
        have hfetched : (collect (.resolved record fetched :: outcomes)).autoFetched.any
            (·.path == record.path) = fetched := by
          cases fetched with
          | true => exact List.any_eq_true.mpr ⟨record, List.mem_cons_self, beq_self_eq_true _⟩
          | false =>
            have hnone := any_autoFetched_eq_false hnew
            exact hnone
        rw [beq_self_eq_true]
        exact congrArg (fun fetched => some (Outcome.resolved record fetched)) hfetched
      · have hne : (record.path == path) = false := beq_eq_false_iff_ne.mpr hpath
        have hfetched : (collect (.resolved record fetched :: outcomes)).autoFetched.any
            (·.path == path) = (collect outcomes).autoFetched.any (·.path == path) := by
          cases fetched with
          | true => exact congrArg (· || _) hne
          | false => rfl
        rw [hne, ← ih, hfetched]
        rfl
    | missing record =>
      have hmissing : (collect (.missing record :: outcomes)).missing =
          record :: (collect outcomes).missing := rfl
      rw [hmissing, List.find?_cons, List.find?_cons, Outcome.path]
      by_cases hpath : record.path = path
      · subst hpath
        have hnone : (collect (.missing record :: outcomes)).resolved.find?
            (·.path == record.path) = none := by
          have hnone := find?_resolved_eq_none hnew
          exact hnone
        rw [hnone, beq_self_eq_true]
        rfl
      · rw [beq_eq_false_iff_ne.mpr hpath, ← ih]
        rfl

/-- **A resolution says of a path what becomes of its import**, and nothing of a path that no file
imports. -/
theorem outcome?_resolve (files : List SourceFile) (lookup : String → Lookup) (path : String) :
    (resolve files lookup).outcome? path =
      (Table.get? (importers files) path).map (resolveOne files lookup path) := by
  have hnodup : ((outcomes files lookup).map Outcome.path).Nodup :=
    (inOrder_outcomes files lookup).nodup
  have hpath : ((fun outcome : Outcome => outcome.path == path) ∘
      fun entry : String × List String => resolveOne files lookup entry.1 entry.2) =
        fun entry => entry.1 == path :=
    funext fun entry => congrArg (· == path) (path_resolveOne files lookup entry.1 entry.2)
  rw [resolve, ← outcomes, outcome?_collect hnodup, outcomes, List.find?_map, hpath, Table.get?,
    Option.map_map]
  cases hfound : (importers files).find? (·.1 == path) with
  | none => rfl
  | some entry =>
    obtain ⟨entryPath, importing⟩ := entry
    have hentry : entryPath = path := by simpa using List.find?_some hfound
    rw [hentry]
    rfl

/-- A path has a record just where some file imports it. -/
theorem isSome_outcome?_resolve (files : List SourceFile) (lookup : String → Lookup)
    (path : String) :
    ((resolve files lookup).outcome? path).isSome = true ↔ path ∈ appearances files := by
  have hnames : path ∈ (importers files).names ↔ path ∈ appearances files := by
    rw [names_importers, mem_distinct]
  rw [outcome?_resolve, Option.isSome_map, ← hnames, Option.isSome_iff_ne_none, Ne,
    Table.get?_eq_none_iff, not_not]

/-! ## All records but one -/

/-- Sorting out by a property of what is made of the items is sorting out the items. -/
theorem filterMap_filter_eq {α β : Type} {f : α → Option β} {p : α → Bool} {q : β → Bool}
    (h : ∀ a b, f a = some b → p a = q b) (items : List α) :
    (items.filter p).filterMap f = (items.filterMap f).filter q := by
  rw [List.filterMap_filter, List.filter_filterMap]
  refine congrArg (List.filterMap · items) (funext fun a => ?_)
  cases hmade : f a with
  | none => exact ite_self _
  | some b => rw [h a b hmade, Option.filter_some]

/-- The lists without a path are made of the outcomes without it. -/
theorem collect_filter (outcomes : List Outcome) (path : String) :
    collect (outcomes.filter (·.path != path)) = (collect outcomes).without path := by
  refine (Resolution.mk.injEq ..).mpr ⟨?_, ?_, ?_⟩
  all_goals
    refine filterMap_filter_eq (fun outcome record hmade => ?_) outcomes
    rcases outcome with ⟨record', _ | _⟩ | record' <;> cases hmade <;> rfl

variable {other : String → Lookup}

/-- **The answer for one path does nothing to the records of the others.** -/
theorem agreeAway_resolve (files : List SourceFile) {path : String}
    (h : ∀ q, q ≠ path → lookup q = other q) :
    (resolve files lookup).AgreeAway path (resolve files other) := by
  have hone : ∀ q importing, q ≠ path →
      resolveOne files lookup q importing = resolveOne files other q importing :=
    fun q importing hq => resolveOne_congr importing fun _ => h q hq
  constructor
  case outcome =>
    intro q hq
    rw [outcome?_resolve, outcome?_resolve]
    exact Option.map_congr fun importing _ => hone q importing hq
  case without =>
    have hpath : ∀ lookup, ((fun outcome : Outcome => outcome.path != path) ∘
        fun entry : String × List String => resolveOne files lookup entry.1 entry.2) =
          fun entry => entry.1 != path := fun lookup =>
      funext fun entry => congrArg (· != path) (path_resolveOne files lookup entry.1 entry.2)
    rw [resolve, resolve, ← collect_filter, ← collect_filter, List.filter_map, List.filter_map,
      hpath, hpath]
    refine congrArg collect (List.map_congr_left fun entry hentry => ?_)
    exact hone entry.1 entry.2 (by simpa using (List.mem_filter.mp hentry).2)

/-! ## Resolutions that return -/

/-- What comes of a lookup is made into a record: an outcome, and if there is no limit, one that
comes at all. -/
def Comes (limited : Bool) (reply : Reply) : Prop :=
  ∃ outcome, reply = .ok outcome ∧ (limited = true ∨ isUnanswered outcome = false)

/-- The outcomes of lookups; a failure is passed over. -/
def outcomeOf (reply : String → Reply) (path : String) : Lookup :=
  (reply path).toOption.getD .absent

theorem outcomeOf_of_ok {reply : String → Reply} {outcome : Lookup} (h : reply path = .ok outcome) :
    outcomeOf reply path = outcome := by
  rw [outcomeOf, h]
  rfl

theorem ok_outcomeOf {reply : String → Reply} (h : ∃ outcome, reply path = .ok outcome) :
    reply path = .ok (outcomeOf reply path) := by
  obtain ⟨outcome, houtcome⟩ := h
  rw [outcomeOf_of_ok houtcome, houtcome]

/-- Where no lookup fails for good, something comes of each of them unless one is waited for. -/
theorem forall_comes_iff {reply : String → Reply} {limited : Bool} {paths : List String}
    (hok : ∀ path ∈ paths, ∃ outcome, reply path = .ok outcome) :
    (∀ path ∈ paths, Comes limited (reply path)) ↔
      (!limited && paths.any fun path => isUnanswered (outcomeOf reply path)) = false := by
  rw [Bool.and_eq_false_iff, List.any_eq_false]
  constructor
  · intro h
    cases limited with
    | true => exact .inl rfl
    | false =>
      refine .inr fun path hpath => ?_
      obtain ⟨outcome, houtcome, hcome⟩ := h path hpath
      rw [outcomeOf_of_ok houtcome, hcome.resolve_left (by decide)]
      decide
  · intro h path hpath
    refine ⟨outcomeOf reply path, ok_outcomeOf (hok path hpath), ?_⟩
    rcases h with h | h
    · exact .inl (by simpa using h)
    · exact .inr (by simpa using h path hpath)

/-- **A resolution returns if something comes of each lookup that is made**, and then it gives the
records of the outcomes. -/
theorem conclude_eq_returned_iff {reply : String → Reply} {limited : Bool} {r : Resolution} :
    conclude files limited reply = .returned r ↔
      (∀ path ∈ wanted files, Comes limited (reply path)) ∧
        r = resolve files (outcomeOf reply) := by
  by_cases hok : ∀ path ∈ wanted files, ∃ outcome, reply path = .ok outcome
  · rw [conclude_of_replies fun path hpath => ok_outcomeOf (hok path hpath), forall_comes_iff hok]
    split
    · rename_i hwaits
      simp [hwaits]
    · rename_i hreturns
      simp [Bool.eq_false_iff.mpr hreturns, eq_comm]
  · -- a failure that is not made into a record ends the resolution
    obtain ⟨path, hpath, failure, hfailure⟩ :
        ∃ path ∈ wanted files, ∃ failure, reply path = .error failure := by
      by_contra hnone
      refine hok fun path hpath => ?_
      cases hreply : reply path with
      | ok outcome => exact ⟨outcome, rfl⟩
      | error failure => exact absurd ⟨path, hpath, failure, hreply⟩ hnone
    obtain ⟨-, -, other, -, hends⟩ := exists_failed_of_reply reply hpath hfailure limited
    rw [hends]
    refine iff_of_false nofun fun ⟨hcomes, _⟩ => ?_
    obtain ⟨outcome, houtcome, -⟩ := hcomes path hpath
    rw [hfailure] at houtcome
    cases houtcome

/-- Two resolutions that differ in what comes of the lookup of one path. -/
structure Isolated (files : List SourceFile) (path : String) (limited : Bool)
    (reply other : String → Reply) : Prop where
  /-- If both return, every other path has the same record, and the lists without it are the same.
  -/
  agree : ∀ r r', conclude files limited reply = .returned r →
    conclude files limited other = .returned r' → r.AgreeAway path r'
  /-- A resolution that returns has a record of each path that some file imports. -/
  records : ∀ r, conclude files limited reply = .returned r →
    ∀ q, (r.outcome? q).isSome = true ↔ q ∈ appearances files
  /-- If one returns, so does the other, unless nothing comes of its lookup of the path. -/
  returns : ∀ r, conclude files limited reply = .returned r → Comes limited (other path) →
    ∃ r', conclude files limited other = .returned r'

theorem isolated_conclude (files : List SourceFile) {reply other : String → Reply}
    (h : ∀ q, q ≠ path → reply q = other q) (limited : Bool) :
    Isolated files path limited reply other where
  agree r r' hreply hother := by
    obtain ⟨-, rfl⟩ := conclude_eq_returned_iff.mp hreply
    obtain ⟨-, rfl⟩ := conclude_eq_returned_iff.mp hother
    exact agreeAway_resolve files fun q hq => by rw [outcomeOf, outcomeOf, h q hq]
  records r hreply := by
    obtain ⟨-, rfl⟩ := conclude_eq_returned_iff.mp hreply
    exact isSome_outcome?_resolve files _
  returns r hreply hcomes := by
    refine ⟨_, conclude_eq_returned_iff.mpr ⟨fun q hq => ?_, rfl⟩⟩
    by_cases hpath : q = path
    · rwa [hpath]
    · rw [← h q hpath]
      exact (conclude_eq_returned_iff.mp hreply).1 q hq

/-! ## A service that asks a library -/

/-- What comes of a library's answers under a time limit: without any time there are none. -/
def Patience.through (patience : Patience) (answer : String → Lookup) : String → Lookup :=
  match patience with
  | .none => fun _ => .unanswered
  | .limited => answer

theorem lookAll_of_answers {net : Http.Network} {library : Library} {answer : String → Lookup}
    (h : library.Answers net answer) (reports : Bool) (paths : List String) (trace : Trace) :
    ((lookAll net library reports paths).run trace).1 =
      paths.map fun path => (path, answer path) := by
  induction paths generalizing trace with
  | nil => rfl
  | cons path paths ih =>
    obtain ⟨between, hrun⟩ := exists_run_lookAll net library reports path paths trace
    rw [hrun, h path trace, ih, List.map_cons]

theorem lookups_of_answers {net : Http.Network} {library : Library} {answer : String → Lookup}
    (h : library.Answers net answer) (patience : Patience) (paths : List String) (trace : Trace) :
    ((lookups net library patience paths).run trace).1 =
      paths.map fun path => (path, patience.through answer path) := by
  cases patience with
  | limited => exact lookAll_of_answers h false paths trace
  | none => rfl

/-- **A service resolves as the answers of its library say.** -/
theorem resolveWith_of_answers {net : Http.Network} {library : Library} {answer : String → Lookup}
    (h : library.Answers net answer) (patience : Patience) (files : List SourceFile)
    (trace : Trace) :
    ((resolveWith net library patience files).run trace).1 =
      resolve files (patience.through answer) := by
  have hresult : ((resolveWith net library patience files).run trace).1 =
      resolveFrom files ((lookups net library patience (wanted files)).run trace).1 := rfl
  rw [hresult, lookups_of_answers h, resolveFrom_map_pair]

/-- Without a limit it does the same, unless a lookup is never answered. -/
theorem resolveWithoutLimit_of_answers {net : Http.Network} {library : Library}
    {answer : String → Lookup} (h : library.Answers net answer) {files : List SourceFile}
    {trace : Trace} {r : Resolution}
    (hreturns : ((resolveWithoutLimit net library files).run trace).1 = some r) :
    r = resolve files answer := by
  rw [eq_resolveFrom_of_run hreturns, lookAll_of_answers h, resolveFrom_map_pair]

/-- A library that has a body for one package and never answers for any other. -/
def ownedLibrary : Library :=
  .chain [.table [("solmate/Owned.sol", .text "contract Owned \x7b\x7d")], .silent]

/-- What that library answers. -/
def ownedLookup (path : String) : Lookup :=
  if path = "solmate/Owned.sol" then .found (.text "contract Owned \x7b\x7d") else .unanswered

/-- A network that is down. -/
def downNetwork : Http.Network := fun _ _ => .error (.transport "ConnectError" "")

theorem answers_ownedLibrary (net : Http.Network) : ownedLibrary.Answers net ownedLookup := by
  intro path trace
  rw [ownedLookup]
  split
  · rename_i hpath
    rw [hpath]
    rfl
  · rename_i hpath
    have hnone : Table.get? [("solmate/Owned.sol", Json.text "contract Owned \x7b\x7d")] path =
        none := by
      rw [Table.get?_cons, if_neg fun e => hpath e.symm, Table.get?_nil]
    rw [ownedLibrary, Library.lookup, Library.lookupFirst, Library.lookup, hnone]
    rfl

end Import

end ContractLens
