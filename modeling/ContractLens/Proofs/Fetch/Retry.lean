import ContractLens.Proofs.Fallible
import ContractLens.Proofs.Number.Exact
/-!
# Attempts made again

A policy makes an attempt again while it fails with something that may pass, and while it may. What
happens in the course of it is a row of events: each failed attempt with the report and the pause
that follow, and then the last attempt, whose outcome is that of all, unless it is the 1025th and
another would follow (`course_or_overrun_runFrom`). The pauses are the first one doubled again and
again, exactly, as long as doubling stays within the finite numbers (`retried_run`). More than 1024
powers of two are asked for in vain, even where the pauses are none (`overflow_of_eager`).
-/

namespace ContractLens

/-! ## What may pass -/

/-- A fault that may pass: the connection failed, or the server is overloaded or cannot be reached
behind its gateway. -/
inductive Http.Fault.Passing : Http.Fault → Prop
  | transport (kind message : String) : Passing (.transport kind message)
  | status {code : Int} (message : String) (h : code = 429 ∨ code = 502 ∨ code = 503 ∨ code = 504) :
    Passing (.status code message)

/-- A failure that may pass: such a fault, or a failed fetch with one as its direct cause. -/
inductive Failure.Passing : Failure → Prop
  | http {fault : Http.Fault} (h : fault.Passing) : Passing (.http fault)
  | sourceFetch {fault : Http.Fault} (message : String) (h : fault.Passing) :
    Passing (.sourceFetch message (some (.http fault)))

theorem Http.Fault.isTransient_iff {fault : Http.Fault} :
    fault.isTransient = true ↔ fault.Passing := by
  cases fault with
  | transport kind message => exact iff_of_true rfl (.transport kind message)
  | exchange kind message => exact iff_of_false nofun nofun
  | address message => exact iff_of_false nofun nofun
  | status code message =>
    have hcodes : Http.Fault.isTransient (.status code message) = true ↔
        code = 429 ∨ code = 502 ∨ code = 503 ∨ code = 504 := by
      simp [Http.Fault.isTransient, Http.retryableStatus]
    rw [hcodes]
    exact ⟨.status message, fun | .status _ h => h⟩

theorem Failure.isMomentary_iff {failure : Failure} :
    failure.isMomentary = true ↔ ∃ fault, failure = .http fault ∧ fault.Passing := by
  cases failure with
  | http fault =>
    rw [isMomentary, Http.Fault.isTransient_iff]
    exact ⟨fun h => ⟨fault, rfl, h⟩, fun ⟨_, rfl, h⟩ => h⟩
  | _ => exact iff_of_false nofun (by rintro ⟨_, h, -⟩; cases h)

/-- A new attempt is called for just by what may pass. -/
theorem RetryPolicy.retries?_iff {failure : Failure} :
    retries? failure = true ↔ failure.Passing := by
  rw [retries?, Bool.and_eq_true]
  cases failure with
  | http fault =>
    rw [show (Failure.http fault).isTransient = fault.isTransient from rfl,
      Http.Fault.isTransient_iff]
    refine ⟨fun h => .http h.2, fun | .http h => ⟨?_, h⟩⟩
    cases h <;> rfl
  | sourceFetch message cause =>
    cases cause with
    | none => exact iff_of_false (by rintro ⟨-, h⟩; cases h) nofun
    | some cause =>
      rw [Failure.isTransient, Failure.isMomentary_iff]
      constructor
      · rintro ⟨-, fault, rfl, h⟩
        exact .sourceFetch message h
      · rintro (_ | ⟨_, h⟩)
        exact ⟨rfl, _, rfl, h⟩
  | _ => exact iff_of_false (by rintro ⟨h, -⟩; cases h) nofun

namespace RetryPolicy

variable {α : Type} {policy : RetryPolicy} {attempt : Nat → Attempt α}

/-! ## The next pause -/

/-- Until 1024 attempts have failed, the next pause can be computed. -/
theorem nextPause_of_lt {failed : Nat} (h : failed < 1024) :
    policy.nextPause failed = .ok (policy.delay failed) := by
  have hpower := (Binary64.isFinite_ofInt_two_pow failed).mpr h
  rw [nextPause, Nat.pow_eq, Nat.cast_pow, Nat.cast_ofNat]
  exact if_pos hpower

/-- From then on it cannot. -/
theorem nextPause_of_ge {failed : Nat} (h : 1024 ≤ failed) :
    policy.nextPause failed = .error .overflow := by
  have hpower := mt (Binary64.isFinite_ofInt_two_pow failed).mp (Nat.not_lt_of_ge h)
  rw [nextPause, Nat.pow_eq, Nat.cast_pow, Nat.cast_ofNat]
  exact if_neg hpower

/-! ## The course of attempts -/

/-- What happens in the course of attempts. -/
inductive Event (α : Type) where
  /-- An attempt is made, after so many that failed, and comes out in some way. -/
  | attempt (failed : Nat) (outcome : Except Failure α)
  /-- An entry is logged. -/
  | report (entry : Log.Entry)
  /-- Some seconds pass. -/
  | pause (seconds : Binary64)

/-- What an event makes of a trace. -/
inductive Event.Leads (attempt : Nat → Attempt α) : Event α → Trace → Trace → Prop
  | attempt {failed : Nat} {outcome : Except Failure α} {trace after : Trace}
    (h : (attempt failed).run trace = (outcome, after)) :
    Leads attempt (.attempt failed outcome) trace after
  | report (entry : Log.Entry) (trace : Trace) :
    Leads attempt (.report entry) trace { trace with entries := trace.entries ++ [entry] }
  | pause (seconds : Binary64) (trace : Trace) :
    Leads attempt (.pause seconds) trace { trace with pauses := trace.pauses ++ [seconds] }

/-- What events in a row make of a trace. -/
inductive Lead (attempt : Nat → Attempt α) : List (Event α) → Trace → Trace → Prop
  | nil (trace : Trace) : Lead attempt [] trace trace
  | cons {event : Event α} {events : List (Event α)} {trace between after : Trace}
    (first : event.Leads attempt trace between) (rest : Lead attempt events between after) :
    Lead attempt (event :: events) trace after

/-- A failed attempt, the report on it, and the pause before the next one. -/
def failedEvents (policy : RetryPolicy) (place : Failure × Nat) : List (Event α) := [
  .attempt place.2 (.error place.1),
  .report (policy.entry place.2 place.1),
  .pause (policy.delay place.2)]

/-- Attempts after some that failed: first those that fail in turn, then the last one. -/
def events (policy : RetryPolicy) (start : Nat) (failures : List Failure)
    (outcome : Except Failure α) : List (Event α) :=
  (failures.zipIdx start).flatMap policy.failedEvents ++
    [.attempt (start + failures.length) outcome]

/-- The course of attempts of which `start` have failed and `left` more may fail. -/
structure Course (policy : RetryPolicy) (attempt : Nat → Attempt α) (left start : Nat)
    (trace : Trace) (ended : Except Failure α × Trace) (failures : List Failure) : Prop where
  /-- No more fail than may. -/
  few : failures.length ≤ left
  /-- They fail with something that may pass. -/
  passing : ∀ failure ∈ failures, failure.Passing
  /-- All that may fail have failed, or the last attempt did not fail with such a thing. -/
  last : failures.length = left ∨ ∀ failure, ended.1 = .error failure → ¬ failure.Passing
  /-- This is what happens, and the last outcome is that of all. -/
  happens : Lead attempt (policy.events start failures ended.1) trace ended.2

/-- The course of attempts that comes to a pause that cannot be computed, after the attempt that
failed with `failure`. -/
structure Overrun (policy : RetryPolicy) (attempt : Nat → Attempt α) (left start : Nat)
    (trace : Trace) (ended : Except Failure α × Trace) (failures : List Failure)
    (failure : Failure) : Prop where
  /-- Another attempt could be made after it. -/
  few : failures.length < left
  /-- All fail with something that may pass. -/
  passing : ∀ other ∈ failures ++ [failure], other.Passing
  /-- There are 1024 failed attempts before it, if there are not more to start with. -/
  many : start + failures.length = max start 1024
  /-- This is what happens. -/
  happens : Lead attempt (policy.events start failures (.error failure)) trace ended.2
  /-- The pause that cannot be computed is what it ends with. -/
  ends : ended.1 = .error .overflow

variable {left start : Nat} {trace after final : Trace} {ended : Except Failure α × Trace}
  {failures : List Failure} {failure : Failure} {outcome : Except Failure α}

/-- A failed attempt comes before the events that follow. -/
theorem Lead.again (hrun : (attempt start).run trace = (.error failure, after))
    (h : Lead attempt (policy.events (start + 1) failures outcome) { after with
      entries := after.entries ++ [policy.entry start failure]
      pauses := after.pauses ++ [policy.delay start] } final) :
    Lead attempt (policy.events start (failure :: failures) outcome) trace final := by
  have hevents : policy.events start (failure :: failures) outcome =
      policy.failedEvents (failure, start) ++ policy.events (start + 1) failures outcome := by
    rw [events, events, List.zipIdx_cons, List.flatMap_cons, List.append_assoc,
      List.length_cons, Nat.add_right_comm, Nat.add_assoc start]
  rw [hevents]
  exact .cons (.attempt hrun) (.cons (.report _ _) (.cons (.pause _ _) h))

/-- An attempt that is the last one. -/
theorem course_single (hrun : (attempt start).run trace = ended)
    (hlast : left = 0 ∨ ∀ failure, ended.1 = .error failure → ¬ failure.Passing) :
    Course policy attempt left start trace ended [] where
  few := Nat.zero_le left
  passing := nofun
  last := hlast.imp_left Eq.symm
  happens := .cons (.attempt hrun) (.nil _)

/-- **An attempt that is made again** comes before the course of those that follow. -/
theorem Course.again (hrun : (attempt start).run trace = (.error failure, after))
    (hpassing : failure.Passing)
    (h : Course policy attempt left (start + 1) { after with
      entries := after.entries ++ [policy.entry start failure]
      pauses := after.pauses ++ [policy.delay start] } ended failures) :
    Course policy attempt (left + 1) start trace ended (failure :: failures) where
  few := Nat.succ_le_succ h.few
  passing := List.forall_mem_cons.mpr ⟨hpassing, h.passing⟩
  last := h.last.imp_left (congrArg (· + 1))
  happens := h.happens.again hrun

/-- An attempt after which the pause cannot be computed. -/
theorem overrun_single (hrun : (attempt start).run trace = (.error failure, after))
    (hpassing : failure.Passing) (hstart : 1024 ≤ start) :
    Overrun policy attempt (left + 1) start trace (.error .overflow, after) [] failure where
  few := Nat.succ_pos left
  passing := List.forall_mem_singleton.mpr hpassing
  many := (max_eq_left hstart).symm
  happens := .cons (.attempt hrun) (.nil _)
  ends := rfl

theorem Overrun.length_eq (h : Overrun policy attempt left 0 trace ended failures failure) :
    failures.length = 1024 :=
  (Nat.zero_add _).symm.trans h.many

/-- An attempt that is made again, before attempts that come to such a pause. -/
theorem Overrun.again {last : Failure}
    (hrun : (attempt start).run trace = (.error failure, after)) (hpassing : failure.Passing)
    (hstart : start < 1024)
    (h : Overrun policy attempt left (start + 1) { after with
      entries := after.entries ++ [policy.entry start failure]
      pauses := after.pauses ++ [policy.delay start] } ended failures last) :
    Overrun policy attempt (left + 1) start trace ended (failure :: failures) last where
  few := Nat.succ_lt_succ h.few
  passing := List.forall_mem_cons.mpr ⟨hpassing, h.passing⟩
  many := by
    have hmany := h.many
    rw [max_eq_right hstart] at hmany
    rw [max_eq_right hstart.le, List.length_cons, ← hmany]
    omega
  happens := h.happens.again hrun
  ends := h.ends

/-- **Attempts take their course**, from whichever attempt and trace they start, or they come to a
pause that cannot be computed. -/
theorem course_or_overrun_runFrom (policy : RetryPolicy) (attempt : Nat → Attempt α)
    (left start : Nat) (trace : Trace) : ∃ failures,
      Course policy attempt left start trace
          ((policy.runFrom attempt left start).run trace) failures ∨
        ∃ failure, Overrun policy attempt left start trace
          ((policy.runFrom attempt left start).run trace) failures failure := by
  -- an attempt that is made again leaves one less, from the trace with its report and its pause
  induction left generalizing start trace with
  | zero => exact ⟨[], .inl (course_single rfl (.inl rfl))⟩
  | succ left ih =>
    rw [run_runFrom_succ]
    cases hrun : (attempt start).run trace with
    | mk outcome after =>
      cases outcome with
      | ok a => exact ⟨[], .inl (course_single hrun (.inr nofun))⟩
      | error failure =>
        dsimp only
        split
        · rename_i hagain
          have hpassing := retries?_iff.mp hagain
          rcases Nat.lt_or_ge start 1024 with hstart | hstart
          · rw [nextPause_of_lt hstart]
            obtain ⟨failures, hcourse | ⟨last, hover⟩⟩ := ih (start + 1) { after with
              entries := after.entries ++ [policy.entry start failure]
              pauses := after.pauses ++ [policy.delay start] }
            · exact ⟨failure :: failures, .inl (hcourse.again hrun hpassing)⟩
            · exact ⟨failure :: failures, .inr ⟨last, hover.again hrun hpassing hstart⟩⟩
          · rw [nextPause_of_ge hstart]
            exact ⟨[], .inr ⟨failure, overrun_single hrun hpassing hstart⟩⟩
        · rename_i hagain
          refine ⟨[], .inl (course_single hrun (.inr fun other hother hpassing => hagain ?_))⟩
          obtain rfl : failure = other := by injection hother
          exact retries?_iff.mpr hpassing

/-! ## The pauses -/

/-- The seconds that pass. -/
def Event.seconds? : Event α → Option Binary64
  | pause seconds => some seconds
  | _ => none

/-- Where attempts do not pause themselves, the pauses are those of the events. -/
theorem Lead.pauses {events : List (Event α)} (h : Lead attempt events trace after)
    (hquiet : ∀ failed trace, ((attempt failed).run trace).2.pauses = trace.pauses) :
    after.pauses = trace.pauses ++ events.filterMap Event.seconds? := by
  induction h with
  | nil trace => exact (List.append_nil _).symm
  | cons first rest ih =>
    rw [ih]
    cases first with
    | attempt hrun =>
      have hsame := (congrArg (·.2.pauses) hrun).symm.trans (hquiet _ _)
      exact congrArg (· ++ _) hsame
    | report entry trace => rfl
    | pause seconds trace => exact List.append_assoc _ [seconds] _

theorem filterMap_seconds?_events (policy : RetryPolicy) (start : Nat) (failures : List Failure)
    (outcome : Except Failure α) : (policy.events start failures outcome).filterMap Event.seconds? =
      (List.range' start failures.length).map policy.delay := by
  have hlast :
      [Event.attempt (start + failures.length) outcome].filterMap Event.seconds? = [] := rfl
  rw [events, List.filterMap_append, hlast, List.append_nil]
  clear hlast
  induction failures generalizing start with
  | nil => rfl
  | cons failure failures ih =>
    rw [List.zipIdx_cons, List.flatMap_cons, List.filterMap_append, ih, List.length_cons,
      List.range'_succ, List.map_cons]
    rfl

/-- A policy with a finite pause after as many failed attempts as it allows. -/
structure Bounded (policy : RetryPolicy) : Prop where
  /-- The first pause is a number of 64 bits. -/
  base : policy.baseDelay.Representable
  /-- The first pause, doubled for each failed attempt, stays finite. -/
  product : (policy.delay policy.retries).isFinite = true

/-- A run of a policy from a trace, with the failures after which another attempt was made. -/
structure Retried (policy : RetryPolicy) (attempt : Nat → Attempt α) (trace : Trace)
    (failures : List Failure) : Prop where
  /-- The attempts take their course from the first one. -/
  course : Course policy attempt policy.retries 0 trace ((policy.run attempt).run trace) failures
  /-- There is a pause after each failed attempt, and no other unless an attempt pauses itself. -/
  pauses : (∀ failed trace, ((attempt failed).run trace).2.pauses = trace.pauses) →
    ((policy.run attempt).run trace).2.pauses =
      trace.pauses ++ (List.range failures.length).map policy.delay
  /-- Each of them is twice as long as the one before. -/
  doubled : ∃ base : ℚ, policy.baseDelay.value = ((base : ℚ) : WithTop ℚ) ∧
    ∀ i < failures.length, (policy.delay i).value = ((base * 2 ^ i : ℚ) : WithTop ℚ)

/-- **An attempt is made again while it fails with something that may pass**, and at most as often
as allowed, each time after a report and a pause that is twice as long as the one before; the last
attempt's outcome is that of the run. Only after 1025 such failures, if still more are allowed, the
pause cannot be computed: the power of two is made a number before the first pause is multiplied by
it, and 2 ^ 1024 is none. -/
theorem retried_run (policy : RetryPolicy) (hbounded : policy.Bounded)
    (attempt : Nat → Attempt α) (trace : Trace) :
    ∃ failures, policy.Retried attempt trace failures ∨
      failures.length = 1024 ∧ ∃ failure, Overrun policy attempt policy.retries 0 trace
        ((policy.run attempt).run trace) failures failure := by
  obtain ⟨failures, hcourse | ⟨failure, hover⟩⟩ :=
    course_or_overrun_runFrom policy attempt policy.retries 0 trace
  case inr => exact ⟨failures, .inr ⟨hover.length_eq, failure, hover⟩⟩
  obtain ⟨base, hbase, hpauses⟩ :=
    Binary64.value_scale_two_pow hbounded.base hbounded.product
  refine ⟨failures, .inl ⟨hcourse, fun hquiet => ?_, base, hbase, fun i hi =>
    hpauses i ((Nat.le_of_lt hi).trans hcourse.few)⟩⟩
  have hslept := hcourse.happens.pauses hquiet
  rw [filterMap_seconds?_events, ← List.range_eq_range'] at hslept
  exact hslept

/-- Two new attempts at most, the first of them after half a second. -/
def briefPolicy : RetryPolicy where
  retries := 2
  baseDelay := .finite false 1 (-1)
  label := "Fetch"

/-- An attempt that succeeds when it is made again. -/
def secondTime : Nat → Attempt Nat
  | 0 => .fail (.http (.transport "ConnectTimeout" "slow"))
  | failed => pure failed

theorem retried_run_secondTime :
    briefPolicy.Bounded ∧ ∃ failures, briefPolicy.Retried secondTime {} failures := by
  have hbounded : briefPolicy.Bounded := ⟨⟨by decide, by decide, by decide⟩, by decide⟩
  obtain ⟨failures, hretried | ⟨hmany, _, hover⟩⟩ :=
    retried_run briefPolicy hbounded secondTime {}
  · exact ⟨hbounded, failures, hretried⟩
  · have hfew : failures.length < 2 := hover.few
    omega

/-! ## More attempts than powers of two -/

/-- Where every attempt fails with something that may pass, the pause after the 1025th ends the
run. -/
theorem overflow_runFrom (hpassing : failure.Passing)
    (hfails : ∀ failed trace, ((attempt failed).run trace).1 = .error failure)
    (hstart : start ≤ 1024) (hmany : 1024 < start + left) (trace : Trace) :
    ((policy.runFrom attempt left start).run trace).1 = .error .overflow := by
  induction left generalizing start trace with
  | zero => omega
  | succ left ih =>
    have hfirst := hfails start trace
    rw [run_runFrom_succ]
    cases hrun : (attempt start).run trace with
    | mk outcome after =>
      rw [hrun] at hfirst
      obtain rfl : outcome = .error failure := hfirst
      dsimp only
      rw [if_pos (retries?_iff.mpr hpassing)]
      rcases hstart.lt_or_eq with hless | rfl
      · rw [nextPause_of_lt hless]
        exact ih hless (by omega) _
      · rw [nextPause_of_ge le_rfl]

/-- A thousand and twenty-five new attempts at most, without a pause. -/
def eagerPolicy : RetryPolicy where
  retries := 1025
  baseDelay := .finite false 0 0
  label := "Fetch"

/-- An attempt that never reaches anyone. -/
def unreached : Nat → Attempt Nat := fun _ => .fail (.http (.transport "ConnectError" "x"))

/-- **No pause at all can be too long**: every attempt has the same outcome and every pause is zero,
and the run ends otherwise. -/
theorem overflow_of_eager :
    eagerPolicy.Bounded ∧
      (∀ failed trace, ((unreached failed).run trace).1 =
        .error (.http (.transport "ConnectError" "x"))) ∧
      ((eagerPolicy.run unreached).run {}).1 = .error .overflow :=
  ⟨⟨⟨by decide, by decide, by decide⟩, by decide +kernel⟩, fun _ _ => rfl,
    overflow_runFrom (.http (.transport _ _)) (fun _ _ => rfl) (by decide) (by decide) {}⟩

end RetryPolicy

end ContractLens
