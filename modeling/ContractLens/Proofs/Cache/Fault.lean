import ContractLens.Proofs.Cache.Run
/-!
# Faults of a run

The commands of a run that were answered with a fault, in order: because the schedule says so, or
because the store refuses them. A run of two programs in a row has the faults of the first and then
those of the second (`Server.failed_bind`).
-/

namespace ContractLens.Cache

variable {α β : Type}

/-- The commands of a run that were answered with a fault. -/
def Server.failed (schedule : Schedule) (server : Server) : Program α → List Command
  | .done _ => []
  | .note _ next => server.failed schedule next
  | .issue command next =>
    let (answer, server) := server.take schedule command
    (if answer.isOk then [] else [command]) ++ failed schedule server (next answer)

theorem Server.failed_issue (schedule : Schedule) (server : Server) (command : Command)
    (next : Except Fault command.Answer → Program α) :
    server.failed schedule (.issue command next) =
      (if (server.take schedule command).1.isOk then [] else [command]) ++
        (server.take schedule command).2.failed schedule
          (next (server.take schedule command).1) := rfl

/-- A run of two programs in a row has the faults of the first and then those of the second. -/
theorem Server.failed_bind (schedule : Schedule) (server : Server) (p : Program α)
    (f : α → Program β) :
    server.failed schedule (p.bind f) =
      server.failed schedule p ++
        (server.run schedule p).2.2.failed schedule (f (server.run schedule p).1) := by
  induction p generalizing server with
  | done a => rfl
  | note entry next ih => exact ih server
  | issue command next ih =>
    rw [Program.bind, failed_issue, failed_issue, ih, List.append_assoc]
    rfl

/-! ## The commands of a program -/

/-- Every command that a program may issue, whatever it is answered, is allowed. -/
def Program.Issues (allowed : Command → Prop) : Program α → Prop
  | .done _ => True
  | .note _ next => next.Issues allowed
  | .issue command next => allowed command ∧ ∀ answer, (next answer).Issues allowed

theorem Program.Issues.imp {allowed permitted : Command → Prop}
    (h : ∀ command, allowed command → permitted command) {p : Program α} (hp : p.Issues allowed) :
    p.Issues permitted := by
  induction p with
  | done a => trivial
  | note entry next ih => exact ih hp
  | issue command next ih => exact ⟨h command hp.1, fun answer => ih answer (hp.2 answer)⟩

theorem Program.Issues.bind {allowed : Command → Prop} {p : Program α} {f : α → Program β}
    (hp : p.Issues allowed) (hf : ∀ a, (f a).Issues allowed) : (p.bind f).Issues allowed := by
  induction p with
  | done a => exact hf a
  | note entry next ih => exact ih hp
  | issue command next ih => exact ⟨hp.1, fun answer => ih answer (hp.2 answer)⟩

theorem Server.allowed_of_failed {allowed : Command → Prop} {p : Program α}
    (h : p.Issues allowed) (schedule : Schedule) {server : Server} {command : Command}
    (hfailed : command ∈ server.failed schedule p) : allowed command := by
  induction p generalizing server with
  | done a => cases hfailed
  | note entry next ih => exact ih h hfailed
  | issue first next ih =>
    rw [failed_issue, List.mem_append] at hfailed
    rcases hfailed with hfirst | hlater
    · split at hfirst
      · cases hfirst
      · exact List.mem_singleton.mp hfirst ▸ h.1
    · exact ih _ (h.2 _) hlater

/-- A program keeps what each command that it may issue preserves. -/
theorem Program.Issues.keeps {allowed : Command → Prop} {inv : Store → Prop} {p : Program α}
    (hp : p.Issues allowed)
    (h : ∀ command, allowed command → ∀ facts store, inv store →
      inv (store.run facts command).2) :
    p.Keeps inv fun _ => True := by
  induction p with
  | done a => trivial
  | note entry next ih => exact ih hp
  | issue command next ih =>
    exact ⟨fun fault => ih _ (hp.2 _), fun facts store hs =>
      ⟨h command hp.1 facts store hs, ih _ (hp.2 _)⟩⟩

/-- A command that leaves every store as it is. -/
def Command.LeavesStore (command : Command) : Prop :=
  ∀ facts (store : Store), (store.run facts command).2 = store

theorem Server.run_store_of_issues {p : Program α} (h : p.Issues Command.LeavesStore)
    (schedule : Schedule) (server : Server) :
    (server.run schedule p).2.2.store = server.store := by
  induction p generalizing server with
  | done a => rfl
  | note entry next ih => exact ih h server
  | issue command next ih =>
    rw [run_issue, ih _ (h.2 _)]
    rcases server.take_cases schedule command with ⟨fault, -, hstore⟩ | ⟨-, hstore⟩
    · exact hstore
    · rw [hstore, h.1]

/-! ## Single commands -/

/-- A command that the store itself does not refuse fails and changes nothing, or is done. -/
theorem Server.take_ok_cases (schedule : Schedule) (server : Server) (command : Command)
    {answer : command.Answer}
    (hrun : (server.store.run server.facts command).1 = .ok answer) :
    (∃ fault, (server.take schedule command).1 = .error fault ∧
        (server.take schedule command).2.store = server.store) ∨
      (server.take schedule command).1 = .ok answer ∧
        (server.take schedule command).2.store = (server.store.run server.facts command).2 := by
  rcases server.take_cases schedule command with hfault | ⟨hanswer, hstore⟩
  · exact .inl hfault
  · exact .inr ⟨hanswer.trans hrun, hstore⟩

/-- A command that no store refuses. -/
def Command.Unrefused (command : Command) : Prop :=
  ∀ facts (store : Store), ∃ answer, (store.run facts command).1 = .ok answer

/-- On a calm schedule only a command that the store refuses is answered with a fault. -/
theorem Server.failed_calm {p : Program α} (h : p.Issues Command.Unrefused) (server : Server) :
    server.failed .calm p = [] := by
  induction p generalizing server with
  | done a => rfl
  | note entry next ih => exact ih h server
  | issue command next ih =>
    obtain ⟨answer, hanswer⟩ := h.1 server.facts server.store
    rw [failed_issue, (server.take_calm command).1, hanswer]
    exact ih _ (h.2 _) _

end ContractLens.Cache
