import ContractLens.Proofs.Fallible
/-!
# The requests of a run

A run adds requests to those of its trace. What it adds is followed step by step (`asks_bind`), with
the traces between the steps at hand, since the network answers in the light of all earlier
requests. Attempts that are made again add up to rounds: each starts where the one before ended, all
but the last failed for the moment, and the last one ends them unless the pause after it cannot be
computed (`RetryPolicy.asks_run`).
-/

namespace ContractLens

variable {α β : Type}

/-- A run from a trace ended with requests added to those of the trace; `post` holds of the added
ones and of what the run returned. -/
def Asks (trace : Trace) (post : List Http.Request → α → Prop) (ended : α × Trace) : Prop :=
  ∃ asked, ended.2.requests = trace.requests ++ asked ∧ post asked ended.1

/-- A run that leaves the requests as they are. -/
theorem asks_nothing {trace after : Trace} {post : List Http.Request → α → Prop} {a : α}
    (hsame : after.requests = trace.requests) (h : post [] a) : Asks trace post (a, after) :=
  ⟨[], by rw [hsame, List.append_nil], h⟩

theorem Asks.imp {trace : Trace} {post other : List Http.Request → α → Prop} {ended : α × Trace}
    (h : Asks trace post ended) (himp : ∀ asked, post asked ended.1 → other asked ended.1) :
    Asks trace other ended := by
  obtain ⟨asked, hrequests, hpost⟩ := h
  exact ⟨asked, hrequests, himp asked hpost⟩

/-- What comes after a run is seen from the trace that the run started with. -/
theorem Asks.trans {trace after : Trace} {post : List Http.Request → α → Prop}
    {other : List Http.Request → β → Prop} {a : α} {ended : β × Trace}
    (h : Asks trace post (a, after))
    (hnext : ∀ asked, after.requests = trace.requests ++ asked → post asked a →
      Asks after (fun rest => other (asked ++ rest)) ended) :
    Asks trace other ended := by
  obtain ⟨asked, hrequests, hpost⟩ := h
  obtain ⟨rest, hrest, hother⟩ := hnext asked hrequests hpost
  exact ⟨asked ++ rest, by rw [hrest, hrequests, List.append_assoc], hother⟩

/-- **Two computations in a row** add the requests of the first and then those of the second. -/
theorem asks_bind {m : Traced α} {f : α → Traced β} {trace : Trace}
    {post : List Http.Request → α → Prop} {other : List Http.Request → β → Prop}
    (hm : Asks trace post (m.run trace))
    (hf : ∀ a after asked, post asked a →
      Asks after (fun rest => other (asked ++ rest)) ((f a).run after)) :
    Asks trace other ((m >>= f).run trace) := by
  have hrun : (m >>= f).run trace = (f (m.run trace).1).run (m.run trace).2 := rfl
  rw [hrun]
  exact Asks.trans hm fun asked _ => hf _ _ asked

/-- What makes no request adds nothing to what was asked before. -/
theorem asks_bind_quiet {m : Traced α} {f : α → Traced β} {trace : Trace}
    {post : List Http.Request → Prop} (hm : Asks trace (fun asked _ => post asked) (m.run trace))
    (hf : ∀ a after, ((f a).run after).2.requests = after.requests) :
    Asks trace (fun asked _ => post asked) ((m >>= f).run trace) := by
  refine asks_bind hm fun a after asked hasked => asks_nothing (hf a after) ?_
  rw [List.append_nil]
  exact hasked

namespace Attempt

theorem asks_lift {m : Traced α} {trace : Trace} {post : List Http.Request → α → Prop}
    (h : Asks trace post (m.run trace)) :
    Asks trace (fun asked result => ∃ a, result = .ok a ∧ post asked a)
      ((ExceptT.lift m : Attempt α).run trace) := by
  obtain ⟨asked, hrequests, hpost⟩ := h
  exact ⟨asked, hrequests, _, rfl, hpost⟩

/-- **Two attempts in a row** add the requests of the first and, if it does not fail, those of the
second. -/
theorem asks_bind {m : Attempt α} {f : α → Attempt β} {trace : Trace}
    {post : List Http.Request → Except Failure α → Prop}
    {other : List Http.Request → Except Failure β → Prop} (hm : Asks trace post (m.run trace))
    (hf : ∀ a after asked, m.run trace = (.ok a, after) → post asked (.ok a) →
      Asks after (fun rest => other (asked ++ rest)) ((f a).run after))
    (hfail : ∀ failure asked, post asked (.error failure) → other asked (.error failure)) :
    Asks trace other ((m >>= f).run trace) := by
  rw [run_bind]
  cases hrun : m.run trace with
  | mk result after =>
    rw [hrun] at hm
    cases result with
    | ok a => exact hm.trans fun asked _ => hf a after asked hrun
    | error failure =>
      obtain ⟨asked, hrequests, hpost⟩ := hm
      exact ⟨asked, hrequests, hfail failure asked hpost⟩

end Attempt

/-! ## Rounds of attempts -/

/-- One attempt of several. -/
structure Round (α : Type) where
  /-- The trace that it started from. -/
  start : Trace
  /-- The requests that it made. -/
  asked : List Http.Request
  /-- How it ended. -/
  result : Except Failure α

/-- Attempts made one after the other. -/
structure Rounds (α : Type) where
  /-- The attempts after which another was made. -/
  failed : List (Round α)
  /-- The attempt that was left at that. -/
  last : Round α

namespace Rounds

/-- All attempts. -/
def all (rounds : Rounds α) : List (Round α) := rounds.failed ++ [rounds.last]

/-- The requests of all attempts. -/
def asked (rounds : Rounds α) : List Http.Request := rounds.all.flatMap Round.asked

/-- Each attempt starts after the given earlier requests and those of the attempts before it. -/
def InOrder : List Http.Request → List (Round α) → Prop
  | _, [] => True
  | earlier, round :: rest =>
    round.start.requests = earlier ∧ InOrder (earlier ++ round.asked) rest

/-- Rounds made after some earlier requests, where each attempt does what `course` says. -/
structure Made (course : Trace → List Http.Request → Except Failure α → Prop) (retries : Nat)
    (earlier : List Http.Request) (rounds : Rounds α) : Prop where
  /-- No more attempts are made again than allowed. -/
  few : rounds.failed.length ≤ retries
  /-- An attempt is made again when it failed for the moment. -/
  again : ∀ round ∈ rounds.failed,
    ∃ failure, round.result = .error failure ∧ RetryPolicy.retries? failure = true
  /-- Each attempt starts where the one before ended. -/
  inOrder : InOrder earlier rounds.all
  /-- Each attempt takes its course. -/
  course : ∀ round ∈ rounds.all, course round.start round.asked round.result

/-- How attempts end that are made after `start` failed ones. -/
inductive Ended (policy : RetryPolicy) (start : Nat) (rounds : Rounds α) : Except Failure α → Prop
  /-- They end as the last one did. -/
  | last : Ended policy start rounds rounds.last.result
  /-- The last one calls for another, but the pause before that cannot be computed. -/
  | unpaused {failure reason : Failure} (hlast : rounds.last.result = .error failure)
    (hagain : RetryPolicy.retries? failure = true)
    (hreason : policy.nextPause (start + rounds.failed.length) = .error reason) :
    Ended policy start rounds (.error reason)

variable {course : Trace → List Http.Request → Except Failure α → Prop} {retries start : Nat}
  {trace : Trace} {policy : RetryPolicy}

/-- What attempts return is what the last one returned. -/
theorem Ended.result_eq_ok {rounds : Rounds α} {a : α} (h : rounds.Ended policy start (.ok a)) :
    rounds.last.result = .ok a := by
  generalize hresult : (Except.ok a : Except Failure α) = result at h
  cases h with
  | last => rfl
  | unpaused => cases hresult

/-- A failed attempt before the others does not change how they end. -/
theorem Ended.cons {rounds : Rounds α} {result : Except Failure α}
    (h : rounds.Ended policy (start + 1) result) (round : Round α) :
    Ended policy start ⟨round :: rounds.failed, rounds.last⟩ result := by
  cases h with
  | last => exact .last
  | unpaused hlast hagain hreason =>
    rw [Nat.add_right_comm] at hreason
    exact .unpaused hlast hagain hreason

/-- A single attempt. -/
theorem made_single {asked : List Http.Request} {result : Except Failure α}
    (h : course trace asked result) :
    Made course retries trace.requests ⟨[], ⟨trace, asked, result⟩⟩ where
  few := Nat.zero_le _
  again := fun _ hround => absurd hround List.not_mem_nil
  inOrder := ⟨rfl, trivial⟩
  course := fun _ hround => List.mem_singleton.mp hround ▸ h

/-- An attempt that failed for the moment, and those that followed. -/
theorem Made.cons {asked : List Http.Request} {failure : Failure} {rounds : Rounds α}
    (h : Made course retries (trace.requests ++ asked) rounds)
    (hcourse : course trace asked (.error failure))
    (hagain : RetryPolicy.retries? failure = true) :
    Made course (retries + 1) trace.requests
      ⟨⟨trace, asked, .error failure⟩ :: rounds.failed, rounds.last⟩ where
  few := Nat.succ_le_succ h.few
  again := by
    intro round hround
    rcases List.mem_cons.mp hround with rfl | hround
    · exact ⟨failure, rfl, hagain⟩
    · exact h.again round hround
  inOrder := ⟨rfl, h.inOrder⟩
  course := by
    intro round hround
    rcases List.mem_cons.mp hround with rfl | hround
    · exact hcourse
    · exact h.course round hround

end Rounds

namespace RetryPolicy

variable {course : Trace → List Http.Request → Except Failure α → Prop}

/-- **The attempts that a policy makes are rounds**: at most as many again as it allows, each after
one that failed for the moment. The last one ends them all, unless the pause after it cannot be
computed. -/
theorem asks_run (policy : RetryPolicy) {attempt : Nat → Attempt α}
    (h : ∀ failed trace, Asks trace (course trace) ((attempt failed).run trace)) (trace : Trace) :
    Asks trace (fun asked result => ∃ rounds : Rounds α,
      rounds.Made course policy.retries trace.requests ∧ asked = rounds.asked ∧
        rounds.Ended policy 0 result) ((policy.run attempt).run trace) := by
  suffices hfrom : ∀ left failed trace, Asks trace (fun asked result => ∃ rounds : Rounds α,
      rounds.Made course left trace.requests ∧ asked = rounds.asked ∧
        rounds.Ended policy failed result) ((policy.runFrom attempt left failed).run trace) from
    hfrom _ _ trace
  have hsingle : ∀ {left failed trace asked} {result : Except Failure α},
      course trace asked result → ∃ rounds : Rounds α,
        rounds.Made course left trace.requests ∧ asked = rounds.asked ∧
          rounds.Ended policy failed result :=
    fun hcourse => ⟨_, Rounds.made_single hcourse, (List.append_nil _).symm, .last⟩
  intro left
  induction left with
  | zero => exact fun failed trace => (h failed trace).imp fun asked => hsingle
  | succ left ih =>
    intro failed trace
    have hattempt := h failed trace
    rw [run_runFrom_succ]
    cases hrun : (attempt failed).run trace with
    | mk result after =>
      rw [hrun] at hattempt
      cases result with
      | ok a => exact hattempt.imp fun asked => hsingle
      | error failure =>
        dsimp only
        split
        · rename_i hagain
          cases hpause : policy.nextPause failed with
          | error reason =>
            exact hattempt.trans fun asked _ hcourse => asks_nothing rfl ⟨_,
              Rounds.made_single hcourse, rfl, .unpaused rfl hagain hpause⟩
          | ok seconds =>
            refine hattempt.trans fun asked hrequests hcourse => ?_
            -- the report and the pause make no request
            obtain ⟨rest, hrest, rounds, hmade, hasked, hended⟩ := ih (failed + 1) { after with
              entries := after.entries ++ [policy.entry failed failure]
              pauses := after.pauses ++ [seconds] }
            rw [hrequests] at hmade
            exact ⟨rest, hrest, _, hmade.cons hcourse hagain, congrArg (asked ++ ·) hasked,
              hended.cons _⟩
        · exact hattempt.imp fun asked => hsingle

end RetryPolicy

end ContractLens
