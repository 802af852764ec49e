import ContractLens.Proofs.Cache.Key
import ContractLens.Proofs.Cache.Operation
/-!
# A record that must not be kept

Keeping a record that is vetoed says that nothing was written, and so it is: every text but the
counter's, every time to live and every place in an index stays, and the counter is either as it was
or one further (`refused_of_vetoed`). This holds on every schedule, and whatever the state of the
connection. A record that has no key fails before anything is done (`run_store_of_no_key`).
-/

namespace ContractLens.Cache

variable {config : Config}

/-- What a key counts: nothing yet, or the whole number that its text is. -/
def Store.counted? (store : Store) (key : String) : Option Int :=
  match store.texts.get? key with
  | none => some 0
  | some s => wholeNumber? s

/-- A store on which nothing but one more refusal was noted. -/
structure Refused (config : Config) (before after : Store) : Prop where
  /-- No other text has changed. -/
  texts : ∀ key, key ≠ config.skippedKey → after.texts.get? key = before.texts.get? key
  /-- The counter is as it was, or one further. -/
  counter : after.texts.get? config.skippedKey = before.texts.get? config.skippedKey ∨
    ∃ n, before.counted? config.skippedKey = some n ∧
      after.texts.get? config.skippedKey = some (intText (n + 1))
  /-- No time to live has changed. -/
  lifetimes : after.lifetimes = before.lifetimes
  /-- No place in an index has changed. -/
  indexes : after.indexes = before.indexes

theorem Refused.refl (config : Config) (store : Store) : Refused config store store :=
  ⟨fun _ _ => rfl, .inl rfl, rfl, rfl⟩

/-- The counter goes on by one, or the command is answered with a fault and nothing changes. -/
theorem incremented_eq (store : Store) (key : String) :
    store.incremented key =
      match store.counted? key with
      | some n => .ok (n + 1)
      | none => .error ⟨notWholeText ((store.texts.get? key).getD "")⟩ := by
  rw [Store.incremented, Store.counted?]
  cases store.texts.get? key with
  | none => rfl
  | some s => cases hs : wholeNumber? s <;> simp [hs]

theorem refused_run_incr (facts : Table Json) (store : Store) :
    Refused config store (store.run facts (.incr config.skippedKey)).2 := by
  rw [Store.run, incremented_eq]
  cases hcount : store.counted? config.skippedKey with
  | none => exact .refl config store
  | some n =>
    refine ⟨fun key hkey => ?_, .inr ⟨n, hcount, ?_⟩, rfl, rfl⟩
    · show (store.texts.insert config.skippedKey (intText (n + 1))).get? key = _
      rw [Table.get?_insert, beq_false_of_ne hkey.symm]
      rfl
    · show (store.texts.insert config.skippedKey (intText (n + 1))).get? config.skippedKey = _
      rw [Table.get?_insert, beq_self_eq_true, if_pos rfl]

theorem refused_countSkipped (schedule : Schedule) (server : Server) :
    Refused config server.store (server.run schedule (countSkipped config)).2.2.store := by
  have hlast : (server.run schedule (countSkipped config)).2.2.store =
      (server.take schedule (.incr config.skippedKey)).2.store := by
    rw [countSkipped, Server.run_issue]
    cases (server.take schedule (.incr config.skippedKey)).1 <;> rfl
  rw [hlast]
  rcases server.take_cases schedule (.incr config.skippedKey) with ⟨_, -, hstore⟩ | ⟨-, hstore⟩
  · rw [hstore]
    exact .refl config server.store
  · rw [hstore]
    exact refused_run_incr server.facts server.store

variable [Platform]

/-- **Nothing is written of a record that must not be kept**, and the answer says so. -/
theorem refused_of_vetoed {record : AnalysisRecord} (h : isVetoed record = true) {key : String}
    (hkey : config.recordKey record.address record.chainId = .ok key) (schedule : Schedule)
    (server : Server) (connection : Connection) :
    (server.run schedule (store config record connection)).1.1 = .ok false ∧
      Refused config server.store
        (server.run schedule (store config record connection)).2.2.store := by
  have hready := store_run_ready config schedule server connection
  rw [store_apply hkey, Server.run_bind]
  simp only [h, if_true]
  cases (server.run schedule (ready config connection)).1.1 with
  | false => exact ⟨rfl, by rw [← hready]; exact .refl config _⟩
  | true =>
    simp only [if_true, Server.run, Server.run_bind]
    exact ⟨trivial, by rw [← hready]; exact refused_countSkipped schedule _⟩

/-- A record that has no key is not kept, whatever it is, and nothing is written. -/
theorem run_store_of_no_key {record : AnalysisRecord} {failure : Failure}
    (hkey : config.recordKey record.address record.chainId = .error failure)
    (schedule : Schedule) (server : Server) (connection : Connection) :
    server.run schedule (store config record connection) =
      ((.error failure, connection), [], server) := by
  rw [store_of_no_key hkey]
  rfl

/-- An open connection stays open when a record is refused. -/
theorem connection_of_vetoed {record : AnalysisRecord} (h : isVetoed record = true)
    (schedule : Schedule) (server : Server) :
    (server.run schedule (store config record .active)).1.2 = .active := by
  cases hkey : config.recordKey record.address record.chainId with
  | error failure => rw [run_store_of_no_key hkey]
  | ok key =>
    have hready : ready config .active = .done (true, .active) := rfl
    rw [store_apply hkey, hready, Program.bind, if_pos h, if_pos rfl, Server.run, Server.run_bind]
    rfl

end ContractLens.Cache
