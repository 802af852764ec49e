import ContractLens.Import.Resolve
import ContractLens.Proofs.Fetch.Inquiry
/-!
# The requests of import lookups

A library asks the network below the addresses of its remote parts, and for a path that is looked up
each of them at most once (`asks_lookup`). So the imports of a set are asked for in the order of
their first appearance, and nothing but reads (`asks_resolveWith`).
-/

namespace ContractLens

namespace Library

mutual

/-- The addresses of the remote parts of a library. -/
def bases : Library → List String
  | table _ => []
  | remote base => [base]
  | chain libraries => allBases libraries
  | failing _ => []
  | silent => []

/-- The addresses of the remote parts of libraries. -/
def allBases : List Library → List String
  | [] => []
  | library :: rest => library.bases ++ allBases rest

end

/-- What is asked for a path below an address. -/
def remoteInquiry (path base : String) : Inquiry :=
  ⟨.get, dropEndSlashes base ++ "/" ++ path, [], none⟩

theorem asks_fetchRemote (net : Http.Network) (base path : String) (trace : Trace) :
    Asks trace (fun asked _ => SentSome [remoteInquiry path base] asked)
      ((fetchRemote net base path).run trace) := by
  refine asks_bind (asks_sendTo net (remoteInquiry path base) trace) ?_
  intro answer after asked hasked
  have hsome : SentSome [remoteInquiry path base] (asked ++ []) := by
    rw [List.append_nil]
    rcases hasked with hsent | ⟨rfl, -⟩
    · exact ⟨_, List.Sublist.refl _, hsent⟩
    · exact sentSome_nil _
  -- the answer is read without asking more
  cases answer with
  | error fault => exact asks_nothing rfl hsome
  | ok answer =>
    dsimp only
    split
    · exact asks_nothing rfl hsome
    · split
      all_goals exact asks_nothing rfl hsome

variable (net : Http.Network) (path : String)

mutual

/-- **A library asks the network below its addresses**, in their order. -/
theorem asks_lookup (trace : Trace) : (library : Library) →
    Asks trace (fun asked _ => SentSome (library.bases.map (remoteInquiry path)) asked)
      ((library.lookup net path).run trace)
  | table _ => asks_nothing rfl (sentSome_nil _)
  | remote base => asks_fetchRemote net base path trace
  | chain libraries => asks_lookupFirst trace libraries
  | failing _ => asks_nothing rfl (sentSome_nil _)
  | silent => asks_nothing rfl (sentSome_nil _)

/-- Libraries that are asked in turn. -/
theorem asks_lookupFirst (trace : Trace) : (libraries : List Library) →
    Asks trace (fun asked _ => SentSome ((allBases libraries).map (remoteInquiry path)) asked)
      ((lookupFirst net path libraries).run trace)
  | [] => asks_nothing rfl (sentSome_nil _)
  | library :: rest => by
    rw [lookupFirst, allBases, List.map_append]
    refine asks_bind (asks_lookup trace library) fun outcome after asked hasked => ?_
    cases outcome with
    | absent => exact (asks_lookupFirst after rest).imp fun more => hasked.append
    | _ => exact asks_nothing rfl ((List.append_nil asked).symm ▸ hasked.append_right _)

end

end Library

namespace Import

open Library

/-- What is asked for paths that are looked up in a library. -/
def inquiries (library : Library) (paths : List String) : List Inquiry :=
  paths.flatMap fun path => library.bases.map (remoteInquiry path)

theorem asks_lookAll (net : Http.Network) (library : Library) (reports : Bool)
    (paths : List String) (trace : Trace) :
    Asks trace (fun asked _ => SentSome (inquiries library paths) asked)
      ((lookAll net library reports paths).run trace) := by
  induction paths generalizing trace with
  | nil => exact asks_nothing rfl (sentSome_nil _)
  | cons path paths ih =>
    rw [lookAll]
    refine asks_bind (asks_lookup net path trace library) fun outcome after asked hasked => ?_
    have hrest : ∀ after, Asks after (fun more _ => SentSome (inquiries library (path :: paths))
        (asked ++ more)) ((do return (path, outcome) :: (← lookAll net library reports paths) :
          Traced (List (String × Lookup))).run after) := fun after =>
      asks_bind_quiet ((ih after).imp fun more => hasked.append) fun _ _ => rfl
    -- a report in between is no request
    dsimp only
    split
    · exact hrest { after with entries := after.entries ++ (warning? path outcome).toList }
    · exact hrest after

theorem asks_lookups (net : Http.Network) (library : Library) (patience : Patience)
    (paths : List String) (trace : Trace) :
    Asks trace (fun asked _ => SentSome (inquiries library paths) asked)
      ((lookups net library patience paths).run trace) := by
  cases patience with
  | limited => exact asks_bind_quiet (asks_lookAll net library false paths trace) fun _ _ => rfl
  | none => exact asks_nothing rfl (sentSome_nil _)

/-- **The imports of a set are asked for in order**, each at most once below each address. -/
theorem asks_resolveWith (net : Http.Network) (library : Library) (patience : Patience)
    (files : List SourceFile) (trace : Trace) :
    Asks trace (fun asked _ => SentSome (inquiries library (wanted files)) asked)
      ((resolveWith net library patience files).run trace) :=
  asks_bind_quiet (asks_lookups net library patience (wanted files) trace) fun _ _ => rfl

end Import

end ContractLens
