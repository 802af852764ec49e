import ContractLens.Cache.Store
import ContractLens.Log.Entry
/-!
# Programs of commands

An operation of the cache is a program: it issues commands one at a time, goes on with the answer or
with the fault, logs entries in between, and ends with a value. Nothing else can happen in a
program, so what an operation may do to the store can be read off its commands, and several programs
can be run against one store command by command.

A server runs programs. It counts the commands it was given; a schedule says which of them fail.
-/

namespace ContractLens.Cache

/-- A computation by commands to the store. -/
inductive Program (α : Type) where
  /-- It ends with a value. -/
  | done (value : α)
  /-- It issues a command and goes on with the answer or the fault. -/
  | issue (command : Command) (next : Except Fault command.Answer → Program α)
  /-- It logs an entry and goes on. -/
  | note (entry : Log.Entry) (next : Program α)

namespace Program

variable {α β : Type}

/-- Goes on with a further program. -/
def bind : Program α → (α → Program β) → Program β
  | done value, f => f value
  | issue command next, f => issue command fun answer => bind (next answer) f
  | note entry next, f => note entry (bind next f)

instance : Monad Program where
  pure := done
  bind := bind

/-- A single command. -/
def command (c : Command) : Program (Except Fault c.Answer) := issue c done

/-- A single entry. -/
def log (entry : Log.Entry) : Program Unit := note entry (done ())

end Program

/-- Which command fails, given how many were issued before it. -/
abbrev Schedule := Nat → Command → Option Fault

/-- A schedule on which every command is done. -/
def Schedule.calm : Schedule := fun _ _ => none

/-- The store together with what was done to reach it. -/
structure Server where
  /-- What the store holds. -/
  store : Store := {}
  /-- What is known about the store's use. -/
  facts : Table Json := []
  /-- How many commands were issued. -/
  issued : Nat := 0
  /-- The addresses that connections were opened to. -/
  opened : List String := []
  /-- How many connections were closed. -/
  closed : Nat := 0

namespace Server

/-- Keeps count of a command that was issued. -/
def count (server : Server) (command : Command) : Server :=
  let counted := { server with issued := server.issued + 1 }
  match command with
  | .connect url => { counted with opened := counted.opened ++ [url] }
  | .close => { counted with closed := counted.closed + 1 }
  | _ => counted

/-- Takes one command: it fails by the schedule, or the store does it. -/
def take (schedule : Schedule) (server : Server) (command : Command) :
    Except Fault command.Answer × Server :=
  let counted := server.count command
  match schedule server.issued command with
  | some fault => (.error fault, counted)
  | none =>
    let (answer, store) := server.store.run server.facts command
    (answer, { counted with store := store })

/-- Runs a program to its end, and gives the entries it logged. -/
def run {α : Type} (schedule : Schedule) (server : Server) :
    Program α → α × List Log.Entry × Server
  | .done value => (value, [], server)
  | .issue command next =>
    let (answer, server) := server.take schedule command
    run schedule server (next answer)
  | .note entry next =>
    let (value, entries, server) := run schedule server next
    (value, entry :: entries, server)

end Server

end ContractLens.Cache
