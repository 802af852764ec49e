import ContractLens.Json.Basic
import ContractLens.Number.WholeText
/-!
# The remote store

The store keeps texts by key, how long each is kept, and indexes that order keys by a score. It is
used by commands, each of which has its own kind of answer; a command that fails changes nothing.
-/

namespace ContractLens.Cache

/-- A command to the store, or to the connection to it. -/
inductive Command where
  /-- Opens a connection to an address. -/
  | connect (url : String)
  /-- Asks for a sign of life. -/
  | ping
  /-- Closes the connection. -/
  | close
  /-- The text of a key. -/
  | get (key : String)
  /-- Sets the text of a key, and how many seconds it is kept. -/
  | set (key text : String) (seconds : Option Int)
  /-- Drops the text of a key. -/
  | delete (key : String)
  /-- Adds one to the counter of a key. -/
  | incr (key : String)
  /-- Sets the score of a key in an index. -/
  | zadd (index key : String) (score : Binary64)
  /-- Drops a key from an index. -/
  | zrem (index key : String)
  /-- The keys of an index, the greatest score first. -/
  | zrevrange (index : String)
  /-- The count of keys of an index. -/
  | zcard (index : String)
  /-- Facts about the store's use. -/
  | info

/-- What a command is answered with. -/
def Command.Answer : Command → Type
  | get _ => Option String
  | delete _ => Bool
  | zrevrange _ => List String
  | zcard _ => Nat
  | info => Table Json
  | _ => Unit

/-- The name of a command. -/
def Command.name : Command → String
  | connect _ => "connect"
  | ping => "ping"
  | close => "close"
  | get _ => "get"
  | set .. => "set"
  | delete _ => "delete"
  | incr _ => "incr"
  | zadd .. => "zadd"
  | zrem .. => "zrem"
  | zrevrange _ => "zrevrange"
  | zcard _ => "zcard"
  | info => "info"

/-- What is said about a command that failed. -/
structure Fault where
  /-- The words. -/
  message : String
  deriving DecidableEq

/-- What the store holds. -/
structure Store where
  /-- The texts by key. -/
  texts : Table String := []
  /-- The seconds that texts are kept, by key. -/
  lifetimes : Table (Option Int) := []
  /-- The scores of the keys of each index. -/
  indexes : Table (Table Binary64) := []
  deriving DecidableEq

namespace Store

/-- The scores of an index. -/
def scores (store : Store) (index : String) : Table Binary64 :=
  (store.indexes.get? index).getD []

/-- The store without the text of a key. -/
def erase (store : Store) (key : String) : Store :=
  { store with texts := store.texts.erase key, lifetimes := store.lifetimes.erase key }

/-- The store with a score set. -/
def setScore (store : Store) (index key : String) (score : Binary64) : Store :=
  { store with indexes := store.indexes.insert index ((store.scores index).insert key score) }

/-- The store without a key in an index. -/
def eraseScore (store : Store) (index key : String) : Store :=
  { store with indexes := store.indexes.update index fun scores => scores.erase key }

/-- Whether one entry comes before another: by the greater score, and by the greater key among equal
scores. -/
def ranksBefore (x y : String × Binary64) : Bool :=
  Binary64.lt y.2 x.2 || (!Binary64.lt x.2 y.2 && y.1 ≤ x.1)

/-- The keys of an index, the greatest score first. -/
def ranked (store : Store) (index : String) : List String :=
  ((store.scores index).mergeSort ranksBefore).map (·.1)

/-- The value of a counter after one more; only a whole number counts. -/
def incremented (store : Store) (key : String) : Except Fault Int :=
  match store.texts.get? key with
  | none => .ok 1
  | some s =>
    match wholeNumber? s with
    | some n => .ok (n + 1)
    | none => .error ⟨notWholeText s⟩

/-- Does a command and answers it; `facts` are what is known about the store's use. -/
def run (facts : Table Json) (store : Store) : (c : Command) → Except Fault c.Answer × Store
  | .connect _ | .ping | .close => (.ok (), store)
  | .get key => (.ok (store.texts.get? key), store)
  | .set key text seconds =>
    if seconds.any (· ≤ 0) then (.error ⟨"invalid expire time in 'set' command"⟩, store)
    else (.ok (), { store with
      texts := store.texts.insert key text, lifetimes := store.lifetimes.insert key seconds })
  | .delete key => (.ok (store.texts.get? key).isSome, store.erase key)
  | .incr key =>
    match store.incremented key with
    | .error fault => (.error fault, store)
    | .ok n => (.ok (), { store with texts := store.texts.insert key (intText n) })
  | .zadd index key score => (.ok (), store.setScore index key score)
  | .zrem index key => (.ok (), store.eraseScore index key)
  | .zrevrange index => (.ok (store.ranked index), store)
  | .zcard index => (.ok (store.scores index).length, store)
  | .info => (.ok facts, store)

end Store

end ContractLens.Cache
