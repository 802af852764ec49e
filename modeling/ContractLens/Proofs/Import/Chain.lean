import ContractLens.Import.Library
import Mathlib.Logic.Basic
/-!
# Chains of libraries

A chain may hold chains, to any depth; its leaves are the libraries in it that are none. A lookup
asks the leaves from left to right up to the first that does not say that the path is unknown to it
(`Lookup.Decides`): a body ends the search, an empty one too, and so does a failure. No leaf behind
that one is asked, so that the requests and reports of the lookup are those of the leaves before it
and its own (`course_lookupFirst`).

How the leaves are grouped into chains is therefore of no matter (`lookup_eq_lookupFirst_leaves`).
-/

namespace ContractLens

/-- An answer that ends a search: a body, whatever it holds, or a failure, or that none comes. -/
def Lookup.Decides : Lookup → Prop
  | .absent => False
  | .found _ | .failed _ | .unanswered => True

namespace Library

mutual

/-- The libraries of a chain, and of the chains in it, that are no chains. -/
def leaves : Library → List Library
  | table bodies => [table bodies]
  | remote base => [remote base]
  | chain libraries => allLeaves libraries
  | failing failure => [failing failure]
  | silent => [silent]

/-- The leaves of libraries from left to right. -/
def allLeaves : List Library → List Library
  | [] => []
  | library :: rest => library.leaves ++ allLeaves rest

end

variable (net : Http.Network) (path : String)

/-- Asks every one of some libraries, whatever the others answer. -/
def askAll : List Library → Traced (List Lookup)
  | [] => pure []
  | library :: rest => do
    let outcome ← library.lookup net path
    return outcome :: (← askAll rest)

/-- How libraries that are asked in turn come to an answer. -/
inductive Course (libraries : List Library) (trace : Trace) : Lookup × Trace → Prop
  /-- The first ones do not know the path, the next one decides, and those behind it are not
  asked. -/
  | decided {before after : List Library} {library : Library} {outcome : Lookup} {last : Trace} :
      libraries = before ++ library :: after → outcome.Decides →
      (askAll net path (before ++ [library])).run trace =
        (List.replicate before.length .absent ++ [outcome], last) →
      Course libraries trace (outcome, last)
  /-- None of them knows the path. -/
  | passed {last : Trace} :
      (askAll net path libraries).run trace = (List.replicate libraries.length .absent, last) →
      Course libraries trace (.absent, last)

variable {net path}

/-- A library does not know the path, or it decides. -/
theorem absent_or_decides (net : Http.Network) (path : String) (library : Library) (trace : Trace) :
    (∃ after, (library.lookup net path).run trace = (.absent, after)) ∨
      ∃ outcome after, outcome.Decides ∧
        (library.lookup net path).run trace = (outcome, after) := by
  cases h : (library.lookup net path).run trace with
  | mk outcome after =>
    cases outcome with
    | absent => exact .inl ⟨after, rfl⟩
    | _ =>
      refine .inr ⟨_, after, ?_, rfl⟩
      trivial

theorem run_askAll_cons {library : Library} {outcome : Lookup} {trace after : Trace}
    (h : (library.lookup net path).run trace = (outcome, after)) (rest : List Library) :
    (askAll net path (library :: rest)).run trace =
      (outcome :: ((askAll net path rest).run after).1, ((askAll net path rest).run after).2) := by
  have hrun : (askAll net path (library :: rest)).run trace =
      (((library.lookup net path).run trace).1 ::
          ((askAll net path rest).run ((library.lookup net path).run trace).2).1,
        ((askAll net path rest).run ((library.lookup net path).run trace).2).2) := rfl
  rw [hrun, h]

theorem run_lookupFirst_of_absent {library : Library} {trace after : Trace}
    (h : (library.lookup net path).run trace = (.absent, after)) (rest : List Library) :
    (lookupFirst net path (library :: rest)).run trace =
      (lookupFirst net path rest).run after := by
  rw [lookupFirst, StateT.run_bind, h]
  rfl

theorem run_lookupFirst_of_decides {library : Library} {outcome : Lookup} {trace after : Trace}
    (hdecides : outcome.Decides) (h : (library.lookup net path).run trace = (outcome, after))
    (rest : List Library) :
    (lookupFirst net path (library :: rest)).run trace = (outcome, after) := by
  rw [lookupFirst, StateT.run_bind, h]
  cases outcome with
  | absent => exact hdecides.elim
  | _ => rfl

/-- **Libraries are asked in turn up to the first that decides.** -/
theorem course_lookupFirst (libraries : List Library) (trace : Trace) :
    Course net path libraries trace ((lookupFirst net path libraries).run trace) := by
  induction libraries generalizing trace with
  | nil => exact .passed rfl
  | cons library rest ih =>
    rcases absent_or_decides net path library trace with
      ⟨after, hrun⟩ | ⟨outcome, after, hdecides, hrun⟩
    · rw [run_lookupFirst_of_absent hrun]
      have hcourse := ih after
      generalize (lookupFirst net path rest).run after = ended at hcourse ⊢
      cases hcourse with
      | @decided before behind deciding outcome last hsplit hdecides hasked =>
        have hlonger : library :: rest = (library :: before) ++ deciding :: behind := by
          rw [hsplit, List.cons_append]
        refine .decided hlonger hdecides ?_
        rw [List.cons_append, run_askAll_cons hrun, hasked]
        rfl
      | passed hasked =>
        refine .passed ?_
        rw [run_askAll_cons hrun, hasked]
        rfl
    · rw [run_lookupFirst_of_decides hdecides hrun]
      have hsplit : library :: rest = [] ++ library :: rest := rfl
      exact .decided hsplit hdecides (run_askAll_cons hrun [])

/-! ## Grouping -/

/-- Libraries behind others are asked when none of those decides. -/
theorem run_lookupFirst_append_of_absent {libraries : List Library} {trace after : Trace}
    (h : (lookupFirst net path libraries).run trace = (.absent, after)) (others : List Library) :
    (lookupFirst net path (libraries ++ others)).run trace =
      (lookupFirst net path others).run after := by
  induction libraries generalizing trace with
  | nil =>
    cases h
    rfl
  | cons library rest ih =>
    rcases absent_or_decides net path library trace with
      ⟨next, hrun⟩ | ⟨outcome, next, hdecides, hrun⟩
    · rw [run_lookupFirst_of_absent hrun] at h
      rw [List.cons_append, run_lookupFirst_of_absent hrun, ih h]
    · rw [run_lookupFirst_of_decides hdecides hrun] at h
      cases h
      exact hdecides.elim

/-- Libraries behind others are not asked when one of those decides. -/
theorem run_lookupFirst_append_of_decides {libraries : List Library} {outcome : Lookup}
    {trace after : Trace} (hdecides : outcome.Decides)
    (h : (lookupFirst net path libraries).run trace = (outcome, after)) (others : List Library) :
    (lookupFirst net path (libraries ++ others)).run trace = (outcome, after) := by
  induction libraries generalizing trace with
  | nil =>
    cases h
    exact hdecides.elim
  | cons library rest ih =>
    rcases absent_or_decides net path library trace with
      ⟨next, hrun⟩ | ⟨first, next, hfirst, hrun⟩
    · rw [run_lookupFirst_of_absent hrun] at h
      rw [List.cons_append, run_lookupFirst_of_absent hrun, ih h]
    · rw [run_lookupFirst_of_decides hfirst hrun] at h
      rw [List.cons_append, run_lookupFirst_of_decides hfirst hrun, h]

/-- A single library in turn is that library. -/
theorem lookupFirst_singleton (library : Library) :
    lookupFirst net path [library] = library.lookup net path := by
  funext trace
  rcases absent_or_decides net path library trace with
    ⟨after, hrun⟩ | ⟨outcome, after, hdecides, hrun⟩
  · exact (run_lookupFirst_of_absent hrun []).trans hrun.symm
  · exact (run_lookupFirst_of_decides hdecides hrun []).trans hrun.symm

mutual

/-- **A library is looked up as its leaves in turn.** -/
theorem lookup_eq_lookupFirst_leaves : (library : Library) →
    library.lookup net path = lookupFirst net path library.leaves
  | table _ => (lookupFirst_singleton _).symm
  | remote _ => (lookupFirst_singleton _).symm
  | chain libraries => lookupFirst_eq_leaves libraries
  | failing _ => (lookupFirst_singleton _).symm
  | silent => (lookupFirst_singleton _).symm

/-- So are libraries in turn. -/
theorem lookupFirst_eq_leaves : (libraries : List Library) →
    lookupFirst net path libraries = lookupFirst net path (allLeaves libraries)
  | [] => rfl
  | library :: rest => by
    funext trace
    have hlibrary := lookup_eq_lookupFirst_leaves library
    rcases absent_or_decides net path library trace with
      ⟨after, hrun⟩ | ⟨outcome, after, hdecides, hrun⟩
    · have hleaves := run_lookupFirst_append_of_absent (hlibrary ▸ hrun) (allLeaves rest)
      rw [← lookupFirst_eq_leaves rest] at hleaves
      exact (run_lookupFirst_of_absent hrun rest).trans hleaves.symm
    · have hleaves := run_lookupFirst_append_of_decides hdecides (hlibrary ▸ hrun) (allLeaves rest)
      exact (run_lookupFirst_of_decides hdecides hrun rest).trans hleaves.symm

end

/-- How chains within chains are looked up. -/
structure Flat (net : Http.Network) (path : String) (library : Library) : Prop where
  /-- The leaves are asked from left to right, up to the first that decides. -/
  course : ∀ trace, Course net path library.leaves trace ((library.lookup net path).run trace)
  /-- One chain of all leaves gives the same answer, after the same requests and reports. -/
  chained : (chain library.leaves).lookup net path = library.lookup net path
  /-- So does every other nesting of the same leaves. -/
  nested : ∀ other : Library, other.leaves = library.leaves →
    other.lookup net path = library.lookup net path

/-- **Chains within chains are looked up as one chain of their leaves.** -/
theorem flat_lookup (net : Http.Network) (path : String) (library : Library) :
    Flat net path library where
  course trace := by
    rw [lookup_eq_lookupFirst_leaves]
    exact course_lookupFirst library.leaves trace
  chained := (lookup_eq_lookupFirst_leaves library).symm
  nested other hleaves := by
    rw [lookup_eq_lookupFirst_leaves, hleaves, ← lookup_eq_lookupFirst_leaves]

/-- An empty body in an inner chain is found, and the network behind it is not asked. -/
example (net : Http.Network) :
    ((chain [chain [table [], table [("Token.sol", .text "")]], remote "base"]).lookup net
      "Token.sol").run {} = (.found (.text ""), {}) := rfl

end Library

end ContractLens
