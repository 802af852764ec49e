import ContractLens.Fetch.Attempt
/-!
# Computations that may fail

A computation with a state ends with a value or a failure, and the state stays as it was left either
way. What it returns is followed step by step (`Returns.bind`), and so is what it returns or fails
with (`Ends.bind`). An attempt that is made again returns what a single attempt returns
(`RetryPolicy.returns_run`).
-/

namespace ContractLens

variable {σ α β : Type} {post : α → Prop}

/-! ## Runs -/

section Runs

variable {ε : Type}

theorem run_bind (m : ExceptT ε (StateM σ) α) (f : α → ExceptT ε (StateM σ) β) (s : σ) :
    (m >>= f).run s =
      match m.run s with
      | (.ok a, t) => (f a).run t
      | (.error failure, t) => (.error failure, t) := by
  show (ExceptT.bind m f).run s = _
  simp only [ExceptT.bind, ExceptT.run, ExceptT.mk, bind, StateT.bind]
  cases m s with
  | mk result after => cases result <;> rfl

theorem run_bind_of_ok {m : ExceptT ε (StateM σ) α} {f : α → ExceptT ε (StateM σ) β}
    {s t : σ} {a : α} (h : m.run s = (.ok a, t)) : (m >>= f).run s = (f a).run t := by
  rw [run_bind, h]

theorem run_bind_of_error {m : ExceptT ε (StateM σ) α} {f : α → ExceptT ε (StateM σ) β}
    {s t : σ} {failure : ε} (h : m.run s = (.error failure, t)) :
    (m >>= f).run s = (.error failure, t) := by
  rw [run_bind, h]

theorem run_map_of_ok {m : ExceptT ε (StateM σ) α} {s t : σ} {a : α} (h : m.run s = (.ok a, t))
    (f : α → β) : (f <$> m).run s = (.ok (f a), t) := by
  rw [← bind_pure_comp, run_bind_of_ok h]
  rfl

theorem run_tryCatch (m : ExceptT ε (StateM σ) α) (handle : ε → ExceptT ε (StateM σ) α) (s : σ) :
    (tryCatch m handle).run s =
      match m.run s with
      | (.ok a, t) => (.ok a, t)
      | (.error failure, t) => (handle failure).run t := by
  show (ExceptT.tryCatch m handle).run s = _
  simp only [ExceptT.tryCatch, ExceptT.run, ExceptT.mk, bind, StateT.bind]
  cases m s with
  | mk result after => cases result <;> rfl

end Runs

/-! ## Values that a computation returns -/

/-- Every value that a computation ends with satisfies `post`. -/
def Returns (m : ExceptT Failure (StateM σ) α) (post : α → Prop) : Prop :=
  ∀ s a after, m.run s = (.ok a, after) → post a

theorem returns_pure {a : α} (h : post a) :
    Returns (pure a : ExceptT Failure (StateM σ) α) post := by
  intro s b after heq
  cases heq
  exact h

theorem returns_throw (failure : Failure) :
    Returns (throw failure : ExceptT Failure (StateM σ) α) post := by
  intro s b after heq
  cases heq

theorem returns_true (m : ExceptT Failure (StateM σ) α) : Returns m fun _ => True :=
  fun _ _ _ _ => trivial

theorem Returns.bind {m : ExceptT Failure (StateM σ) α} {f : α → ExceptT Failure (StateM σ) β}
    {after : β → Prop} (hm : Returns m post) (hf : ∀ a, post a → Returns (f a) after) :
    Returns (m >>= f) after := by
  intro s b last heq
  rw [run_bind] at heq
  split at heq
  · rename_i a t hfirst
    exact hf a (hm s a t hfirst) t b last heq
  · cases heq

theorem returns_lift (post : α → Prop) {run : StateM σ α} (h : ∀ s, post (run.run s).1) :
    Returns (ExceptT.lift run : ExceptT Failure (StateM σ) α) post := by
  intro s a after heq
  cases heq
  exact h s

theorem returns_tryCatch {m : ExceptT Failure (StateM σ) α}
    {handle : Failure → ExceptT Failure (StateM σ) α} (hm : Returns m post)
    (hhandle : ∀ failure, Returns (handle failure) post) : Returns (tryCatch m handle) post := by
  intro s a after heq
  rw [run_tryCatch] at heq
  cases hfirst : m.run s with
  | mk result t =>
    rw [hfirst] at heq
    cases result with
    | ok b =>
      cases heq
      exact hm s _ _ hfirst
    | error failure => exact hhandle failure t a after heq

/-! ## How a computation ends -/

/-- A result is a value that satisfies `post`, or a failure that satisfies `failed`. -/
def Meets (post : α → Prop) (failed : Failure → Prop) : Except Failure α → Prop
  | .ok a => post a
  | .error failure => failed failure

/-- Every run ends with a value that satisfies `post`, or with a failure that satisfies `failed`. -/
structure Ends (m : ExceptT Failure (StateM σ) α) (post : α → Prop) (failed : Failure → Prop) :
    Prop where
  /-- So does the run from each state. -/
  meets : ∀ s, Meets post failed (m.run s).1

/-- Every run ends with a value that satisfies `post`. -/
abbrev Succeeds (m : ExceptT Failure (StateM σ) α) (post : α → Prop) : Prop :=
  Ends m post fun _ => False

variable {failed : Failure → Prop}

theorem ends_pure {a : α} (h : post a) :
    Ends (pure a : ExceptT Failure (StateM σ) α) post failed :=
  ⟨fun _ => h⟩

theorem ends_throw {failure : Failure} (h : failed failure) :
    Ends (throw failure : ExceptT Failure (StateM σ) α) post failed :=
  ⟨fun _ => h⟩

theorem ends_lift {run : StateM σ α} (h : ∀ s, post (run.run s).1) :
    Ends (ExceptT.lift run : ExceptT Failure (StateM σ) α) post failed :=
  ⟨h⟩

/-- The run from a state ends with a value or with a failure. -/
theorem Ends.exists_run {m : ExceptT Failure (StateM σ) α} (h : Ends m post failed) (s : σ) :
    (∃ a after, m.run s = (.ok a, after) ∧ post a) ∨
      ∃ failure after, m.run s = (.error failure, after) ∧ failed failure := by
  have hrun := h.meets s
  cases hresult : m.run s with
  | mk result after =>
    rw [hresult] at hrun
    cases result with
    | ok a => exact .inl ⟨a, after, rfl, hrun⟩
    | error failure => exact .inr ⟨failure, after, rfl, hrun⟩

theorem Ends.bind {m : ExceptT Failure (StateM σ) α} {f : α → ExceptT Failure (StateM σ) β}
    {next : β → Prop} (hm : Ends m post failed) (hf : ∀ a, post a → Ends (f a) next failed) :
    Ends (m >>= f) next failed := by
  refine ⟨fun s => ?_⟩
  rw [run_bind]
  rcases hm.exists_run s with ⟨a, after, hrun, ha⟩ | ⟨failure, after, hrun, hfailure⟩
  · rw [hrun]
    exact (hf a ha).meets after
  · rw [hrun]
    exact hfailure

/-- What a computation that succeeds ends with. -/
theorem Succeeds.exists_run {m : ExceptT Failure (StateM σ) α} (h : Succeeds m post) (s : σ) :
    ∃ a after, m.run s = (.ok a, after) ∧ post a :=
  (Ends.exists_run h s).resolve_right fun ⟨_, _, _, hfailure⟩ => hfailure

/-- A computation that succeeds does not fail in any way. -/
theorem Succeeds.ends {m : ExceptT Failure (StateM σ) α} (h : Succeeds m post) :
    Ends m post failed := by
  refine ⟨fun s => ?_⟩
  obtain ⟨a, after, hrun, ha⟩ := Succeeds.exists_run h s
  rw [hrun]
  exact ha

/-! ## Attempts -/

namespace Attempt

theorem returns_fail (failure : Failure) : Returns (Attempt.fail failure : Attempt α) post :=
  returns_throw failure

theorem returns_ofExcept (post : α → Prop) {result : Except Failure α}
    (h : ∀ a, result = .ok a → post a) :
    Returns (Attempt.ofExcept result) post := by
  cases result with
  | ok a => exact returns_pure (h a rfl)
  | error failure => exact returns_throw failure

theorem ends_note {failed : Failure → Prop} (entry : Log.Entry) :
    Ends (Attempt.note entry) (fun _ => True) failed :=
  ends_lift fun _ => trivial

theorem ends_fail {failed : Failure → Prop} {failure : Failure} (h : failed failure) :
    Ends (Attempt.fail failure : Attempt α) post failed :=
  ends_throw h

theorem ends_ofExcept {failed : Failure → Prop} {result : Except Failure α}
    (h : Meets post failed result) : Ends (Attempt.ofExcept result) post failed := by
  cases result with
  | ok a => exact ends_pure h
  | error failure => exact ends_throw h

/-- A result that is known to be a value is passed on. -/
theorem ends_ofExcept_bind {failed : Failure → Prop} {result : Except Failure α} {a : α}
    {f : α → Attempt β} {post : β → Prop} (h : result = .ok a) (hf : Ends (f a) post failed) :
    Ends (Attempt.ofExcept result >>= f) post failed := by
  rw [h]
  exact (ends_pure rfl).bind fun b hb => hb ▸ hf

end Attempt

namespace RetryPolicy

/-- **An attempt that need not be the last one** is left at its value, at a failure that does not
call for another, or at a pause that cannot be computed. Otherwise the failure is reported, the
pause is taken, and the attempts go on with one less that may fail. -/
theorem run_runFrom_succ (policy : RetryPolicy) (attempt : Nat → Attempt α) (left failed : Nat)
    (trace : Trace) : (policy.runFrom attempt (left + 1) failed).run trace =
      match (attempt failed).run trace with
      | (.ok a, after) => (.ok a, after)
      | (.error failure, after) =>
        if retries? failure then
          match policy.nextPause failed with
          | .ok seconds => (policy.runFrom attempt left (failed + 1)).run { after with
              entries := after.entries ++ [policy.entry failed failure]
              pauses := after.pauses ++ [seconds] }
          | .error reason => (.error reason, after)
        else (.error failure, after) := by
  rw [runFrom, run_tryCatch]
  cases (attempt failed).run trace with
  | mk outcome after =>
    cases outcome with
    | ok a => rfl
    | error failure =>
      dsimp only
      split
      · cases policy.nextPause failed <;> rfl
      · rfl

/-- What every attempt returns is what the attempts together return. -/
theorem returns_run (policy : RetryPolicy) {attempt : Nat → Attempt α}
    (h : ∀ failed, Returns (attempt failed) post) : Returns (policy.run attempt) post := by
  suffices hfrom : ∀ left failed, Returns (policy.runFrom attempt left failed) post from
    hfrom _ _
  intro left
  induction left with
  | zero => exact h
  | succ left ih =>
    intro failed
    refine returns_tryCatch (h failed) fun failure => ?_
    split
    · exact (returns_true _).bind fun _ _ => (returns_true _).bind fun _ _ =>
        (returns_true _).bind fun _ _ => ih (failed + 1)
    · exact returns_throw failure

end RetryPolicy

end ContractLens
