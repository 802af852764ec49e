import ContractLens.Cache.Operations
/-!
# Runs of cache programs

What a program keeps is settled on its commands: `Program.Keeps` says that every command a program
may issue, along answers of stores that satisfy an invariant and along faults, preserves the
invariant, and that the program ends with a value of a given kind. `run_of_keeps` carries this over
to every run, whatever commands fail.

A run is also looked at between its commands (`Visits`). A command that fails changes nothing, so
each store on the way is the last one of a run on which everything fails from that moment on
(`exists_until_of_visits`); statements about all schedules are therefore statements about all
moments.
-/

namespace ContractLens.Cache

variable {α β : Type}

/-! ## Programs put together -/

theorem Program.bind_assoc {γ : Type} (p : Program α) (f : α → Program β) (g : β → Program γ) :
    (p.bind f).bind g = p.bind fun a => (f a).bind g := by
  induction p with
  | done a => rfl
  | issue command next ih =>
    simp only [Program.bind, ih]
  | note entry next ih => simp only [Program.bind, ih]

theorem Server.run_issue (schedule : Schedule) (server : Server) (command : Command)
    (next : Except Fault command.Answer → Program α) :
    server.run schedule (.issue command next) =
      (server.take schedule command).2.run schedule (next (server.take schedule command).1) := rfl

/-- A run of two programs in a row is the run of the first and then of the second. -/
theorem Server.run_bind (schedule : Schedule) (server : Server) (p : Program α)
    (f : α → Program β) :
    server.run schedule (p.bind f) =
      (((server.run schedule p).2.2.run schedule (f (server.run schedule p).1)).1,
        (server.run schedule p).2.1 ++
          ((server.run schedule p).2.2.run schedule (f (server.run schedule p).1)).2.1,
        ((server.run schedule p).2.2.run schedule (f (server.run schedule p).1)).2.2) := by
  induction p generalizing server with
  | done a => rfl
  | issue command next ih =>
    rw [Program.bind, Server.run, Server.run]
    exact ih (server.take schedule command).1 (server.take schedule command).2
  | note entry next ih =>
    rw [Program.bind, Server.run, Server.run, ih server]
    rfl

/-! ## Single commands -/

@[simp] theorem Server.count_store (server : Server) (command : Command) :
    (server.count command).store = server.store := by
  cases command <;> rfl

@[simp] theorem Server.count_issued (server : Server) (command : Command) :
    (server.count command).issued = server.issued + 1 := by
  cases command <;> rfl

@[simp] theorem Server.take_issued (schedule : Schedule) (server : Server) (command : Command) :
    (server.take schedule command).2.issued = server.issued + 1 := by
  rw [Server.take]
  split <;> simp

/-- A command fails and changes nothing, or the store does it. -/
theorem Server.take_cases (schedule : Schedule) (server : Server) (command : Command) :
    (∃ fault, (server.take schedule command).1 = .error fault ∧
        (server.take schedule command).2.store = server.store) ∨
      (server.take schedule command).1 = (server.store.run server.facts command).1 ∧
        (server.take schedule command).2.store = (server.store.run server.facts command).2 := by
  rw [Server.take]
  split
  · exact .inl ⟨_, rfl, Server.count_store server command⟩
  · exact .inr ⟨rfl, rfl⟩

/-- On a calm schedule the store does every command. -/
theorem Server.take_calm (server : Server) (command : Command) :
    (server.take .calm command).1 = (server.store.run server.facts command).1 ∧
      (server.take .calm command).2.store = (server.store.run server.facts command).2 :=
  ⟨rfl, rfl⟩

/-! ## What a program keeps -/

/-- Every command that a program may issue on a store with the invariant preserves it, and the
program ends with a value that satisfies `post`. -/
def Program.Keeps (inv : Store → Prop) (post : α → Prop) : Program α → Prop
  | .done a => post a
  | .note _ next => next.Keeps inv post
  | .issue command next =>
    (∀ fault, (next (.error fault)).Keeps inv post) ∧
      ∀ facts store, inv store →
        inv (store.run facts command).2 ∧ (next (store.run facts command).1).Keeps inv post

variable {inv : Store → Prop} {post : α → Prop}

theorem Program.Keeps.bind {p : Program α} {f : α → Program β} {after : β → Prop}
    (hp : p.Keeps inv post) (hf : ∀ a, post a → (f a).Keeps inv after) :
    (p.bind f).Keeps inv after := by
  induction p with
  | done a => exact hf a hp
  | note entry next ih => exact ih hp
  | issue command next ih =>
    exact ⟨fun fault => ih _ (hp.1 fault), fun facts store hs =>
      ⟨(hp.2 facts store hs).1, ih _ (hp.2 facts store hs).2⟩⟩

theorem Program.Keeps.take {command : Command} {next : Except Fault command.Answer → Program α}
    (h : (Program.issue command next).Keeps inv post) {server : Server} (hs : inv server.store)
    (schedule : Schedule) :
    inv (server.take schedule command).2.store ∧
      (next (server.take schedule command).1).Keeps inv post := by
  rcases server.take_cases schedule command with ⟨fault, hanswer, hstore⟩ | ⟨hanswer, hstore⟩
  · rw [hanswer, hstore]
    exact ⟨hs, h.1 fault⟩
  · rw [hanswer, hstore]
    exact h.2 server.facts server.store hs

/-- **A run keeps what its commands keep**, and ends with a value of the promised kind. -/
theorem Server.run_of_keeps {p : Program α} (h : p.Keeps inv post) (schedule : Schedule)
    {server : Server} (hs : inv server.store) :
    inv (server.run schedule p).2.2.store ∧ post (server.run schedule p).1 := by
  induction p generalizing server with
  | done a => exact ⟨hs, h⟩
  | note entry next ih => exact ih h hs
  | issue command next ih =>
    obtain ⟨hinv, hnext⟩ := h.take hs schedule
    exact ih _ hnext hinv

/-! ## Moments -/

/-- The servers that a run passes, from the first one to the last. -/
inductive Server.Visits (schedule : Schedule) : Server → Program α → Server → Prop
  | here {server : Server} {p : Program α} : Visits schedule server p server
  | issue {server last : Server} {command : Command}
      {next : Except Fault command.Answer → Program α} :
      Visits schedule (server.take schedule command).2 (next (server.take schedule command).1)
        last →
      Visits schedule server (.issue command next) last
  | note {server last : Server} {entry : Log.Entry} {next : Program α} :
      Visits schedule server next last → Visits schedule server (.note entry next) last

/-- The schedule until so many commands were issued; from then on every command fails. -/
def Schedule.until (schedule : Schedule) (moment : Nat) : Schedule := fun issued command =>
  if issued < moment then schedule issued command else some ⟨"connection lost"⟩

/-- When every command fails, the store stays. -/
theorem Server.run_store_of_failing {schedule : Schedule} {server : Server}
    (h : ∀ n, server.issued ≤ n → ∀ command, schedule n command ≠ none) (p : Program α) :
    (server.run schedule p).2.2.store = server.store := by
  induction p generalizing server with
  | done a => rfl
  | note entry next ih => exact ih h
  | issue command next ih =>
    have hstore : (server.take schedule command).2.store = server.store := by
      rw [Server.take]
      split
      · exact Server.count_store server command
      · rename_i hnone
        exact absurd hnone (h _ (Nat.le_refl _) command)
    rw [Server.run_issue, ← hstore]
    exact ih _ fun n hn => h n (by rw [Server.take_issued] at hn; omega)

theorem Server.take_until {schedule : Schedule} {server : Server} {moment : Nat}
    (h : server.issued < moment) (command : Command) :
    server.take (schedule.until moment) command = server.take schedule command := by
  rw [Server.take, Schedule.until, if_pos h, ← Server.take]

/-- **Each store on the way is the last one of a run that is cut off there.** -/
theorem Server.exists_until_of_visits {schedule : Schedule} {server last : Server} {p : Program α}
    (h : server.Visits schedule p last) :
    ∃ moment, server.issued ≤ moment ∧
      (server.run (schedule.until moment) p).2.2.store = last.store := by
  -- a run is cut off at the count of commands that were issued when the store was reached
  induction h with
  | @here server p =>
    refine ⟨server.issued, Nat.le_refl _, Server.run_store_of_failing (fun n hn command => ?_) p⟩
    rw [Schedule.until, if_neg (Nat.not_lt.mpr hn)]
    exact nofun
  | @issue server _ command _ _ ih =>
    obtain ⟨moment, hle, hstore⟩ := ih
    rw [Server.take_issued] at hle
    exact ⟨moment, by omega, by rw [Server.run_issue, Server.take_until hle, hstore]⟩
  | note _ ih => exact ih

end ContractLens.Cache
