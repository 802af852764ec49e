import ContractLens.Proofs.Fallible
import Mathlib.Data.List.Forall2
/-!
# Two runs side by side

What two runs have in common is followed step by step: started from traces that are alike, twins end
with results that correspond and leave traces that are alike (`Twins.bind`). Failures of twins are
the same. A computation that is its own twin is steady: it does not notice in what the traces
differ.
-/

namespace ContractLens

variable {α β : Type}

/-- What corresponds in two traces; nothing in a trace is unlike itself. -/
structure Likeness where
  /-- The request of the one run and that of the other. -/
  request : Http.Request → Http.Request → Prop
  /-- The entry of the one run and that of the other. -/
  entry : Log.Entry → Log.Entry → Prop
  /-- A request corresponds to itself. -/
  request_same : ∀ r, request r r
  /-- So does an entry. -/
  entry_same : ∀ e, entry e e

/-- What happened in two runs corresponds one by one. -/
structure Trace.Alike (likeness : Likeness) (trace twin : Trace) : Prop where
  /-- The requests do. -/
  requests : List.Forall₂ likeness.request trace.requests twin.requests
  /-- The entries do. -/
  entries : List.Forall₂ likeness.entry trace.entries twin.entries
  /-- The pauses are the same. -/
  pauses : trace.pauses = twin.pauses

/-- Results of two runs: values that correspond, or one failure. -/
inductive Matched (post : α → α → Prop) : Except Failure α → Except Failure α → Prop
  /-- Both have a value. -/
  | ok {a twin : α} : post a twin → Matched post (.ok a) (.ok twin)
  /-- Both failed in the same way. -/
  | error (failure : Failure) : Matched post (.error failure) (.error failure)

/-- Two runs ended with results that correspond, and with traces that are alike. -/
structure EndsAlike (likeness : Likeness) (post : α → α → Prop)
    (ended twin : Except Failure α × Trace) : Prop where
  /-- The results correspond. -/
  result : Matched post ended.1 twin.1
  /-- The traces are alike. -/
  trace : ended.2.Alike likeness twin.2

/-- Two computations that end alike when they start alike. -/
def Twins (likeness : Likeness) (m twin : Attempt α) (post : α → α → Prop) : Prop :=
  ∀ trace other : Trace, trace.Alike likeness other →
    EndsAlike likeness post (m.run trace) (twin.run other)

/-- A computation that ends with the same result when it starts alike. -/
abbrev Steady (likeness : Likeness) (m : Attempt α) : Prop := Twins likeness m m Eq

variable {likeness : Likeness}

theorem Matched.eq {result twin : Except Failure α} (h : Matched Eq result twin) :
    result = twin := by
  cases h with
  | ok heq => rw [heq]
  | error failure => rfl

theorem Matched.imp {post other : α → α → Prop} {result twin : Except Failure α}
    (h : Matched post result twin) (himp : ∀ a b, post a b → other a b) :
    Matched other result twin := by
  cases h with
  | ok hpost => exact .ok (himp _ _ hpost)
  | error failure => exact .error failure

theorem Trace.alike_refl (likeness : Likeness) (trace : Trace) : trace.Alike likeness trace where
  requests := List.forall₂_same.mpr fun r _ => likeness.request_same r
  entries := List.forall₂_same.mpr fun e _ => likeness.entry_same e
  pauses := rfl

/-! ## Rules -/

theorem Twins.imp {m twin : Attempt α} {post other : α → α → Prop}
    (h : Twins likeness m twin post) (himp : ∀ a b, post a b → other a b) :
    Twins likeness m twin other := by
  intro trace start halike
  have hends := h trace start halike
  exact ⟨hends.result.imp himp, hends.trace⟩

theorem twins_pure {a twin : α} {post : α → α → Prop} (h : post a twin) :
    Twins likeness (pure a) (pure twin) post :=
  fun _ _ halike => ⟨.ok h, halike⟩

/-- **Twins in a row.** -/
theorem Twins.bind {m twin : Attempt α} {f g : α → Attempt β} {post : α → α → Prop}
    {next : β → β → Prop} (hm : Twins likeness m twin post)
    (hf : ∀ a b, post a b → Twins likeness (f a) (g b) next) :
    Twins likeness (m >>= f) (twin >>= g) next := by
  intro trace other halike
  obtain ⟨hresult, htrace⟩ := hm trace other halike
  rw [run_bind, run_bind]
  cases hrun : m.run trace with
  | mk result after =>
    cases htwin : twin.run other with
    | mk same last =>
      rw [hrun, htwin] at hresult htrace
      cases hresult with
      | ok hpost => exact hf _ _ hpost after last htrace
      | error failure => exact ⟨.error failure, htrace⟩

/-- Two entries that correspond may be logged. -/
theorem twins_note {entry twin : Log.Entry} (h : likeness.entry entry twin) :
    Twins likeness (Attempt.note entry) (Attempt.note twin) Eq :=
  fun _ _ halike => ⟨.ok rfl, {
    requests := halike.requests
    entries := List.rel_append halike.entries (.cons h .nil)
    pauses := halike.pauses }⟩

theorem steady_pure (a : α) : Steady likeness (pure a) := twins_pure rfl

theorem steady_fail (failure : Failure) : Steady likeness (Attempt.fail failure : Attempt α) :=
  fun _ _ halike => ⟨.error failure, halike⟩

theorem steady_note (entry : Log.Entry) : Steady likeness (Attempt.note entry) :=
  twins_note (likeness.entry_same entry)

theorem steady_ofExcept (result : Except Failure α) :
    Steady likeness (Attempt.ofExcept result) := by
  cases result with
  | ok a => exact steady_pure a
  | error failure => exact steady_fail failure

/-- **Steady computations in a row.** -/
theorem Steady.bind {m : Attempt α} {f : α → Attempt β} (hm : Steady likeness m)
    (hf : ∀ a, Steady likeness (f a)) : Steady likeness (m >>= f) :=
  Twins.bind hm fun a _ heq => heq ▸ hf a

theorem steady_note_bind (entry : Log.Entry) {m : Attempt α} (hm : Steady likeness m) :
    Steady likeness (do Attempt.note entry; m) :=
  (steady_note entry).bind fun _ => hm

end ContractLens
