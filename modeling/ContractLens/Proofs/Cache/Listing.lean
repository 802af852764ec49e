import ContractLens.Proofs.Analysis.ReadBack
import ContractLens.Proofs.Cache.Call
import ContractLens.Proofs.Cache.History
import ContractLens.Proofs.Cache.Index
/-!
# The history of a readable store

While no command fails, a history over a store whose texts are records answers exactly the page
among the records of the keys of the index, in their order (`run_historyRecords_calm`). Keys without
a text have no record, so they cost no place on the page.
-/

namespace ContractLens.Cache

variable [Platform] {config : Config}

/-- A text that is read as a record at any time. -/
def IsRecord (text : String) : Prop :=
  ∀ now, ∃ record, AnalysisRecord.decode now text = .ok record

/-- A record that its own text gives back, and whose time has a place. -/
structure Listable (record : AnalysisRecord) : Prop where
  /-- The text gives it back. -/
  wellFormed : record.WellFormed
  /-- The time has a place. -/
  dated : ∃ score, record.analyzedAt.seconds = .ok score

/-- Each text of a store but the counter is a record, and the counter has no place in the index. -/
structure Store.Readable (config : Config) (store : Store) : Prop where
  /-- The texts are records. -/
  texts : ∀ key text, key ≠ config.skippedKey → store.texts.get? key = some text → IsRecord text
  /-- The counter has no place. -/
  counter : (store.scores config.indexKey).get? config.skippedKey = none

theorem Store.Readable.isRecord_of_mem {store : Store} (h : store.Readable config)
    {key text : String} (hkey : key ∈ store.ranked config.indexKey)
    (htext : store.texts.get? key = some text) : IsRecord text := by
  refine h.texts key text ?_ htext
  rintro rfl
  exact Store.mem_ranked_iff.mp hkey h.counter

theorem Store.Readable.erase {store : Store} (h : store.Readable config) (other : String) :
    (store.erase other).Readable config := by
  refine ⟨fun key text hkey htext => h.texts key text hkey ?_, h.counter⟩
  rw [Store.erase, Table.get?_erase] at htext
  split at htext
  · cases htext
  · exact htext

theorem Store.recordsOf_append (store : Store) (now : Timestamp) (keys more : List String) :
    store.recordsOf now (keys ++ more) = store.recordsOf now keys ++ store.recordsOf now more :=
  List.filterMap_append

theorem issues_historyRecords (config : Config) (now : Timestamp) (query : Query) :
    (historyRecords config now query).Issues Command.Unrefused := by
  refine (Call.issues_program config (.history now query)).imp fun command h => ?_
  rcases h with rfl | ⟨key, rfl | rfl⟩ <;> exact fun _ _ => ⟨_, rfl⟩

/-- While no command fails, a history goes through the keys of the index until the page is full, or
up to a text that is no record. -/
theorem exists_traversal_calm (config : Config) (now : Timestamp) (query : Query)
    (server : Server) :
    ∃ read rest, server.store.ranked config.indexKey = read ++ rest ∧
      Traversal config now query server.store [] read rest
        (server.run .calm (historyRecords config now query)).1 []
        (server.run .calm (historyRecords config now query)).2.2.store := by
  have hcalm := Server.failed_calm (issues_historyRecords config now query) server
  rcases run_historyRecords_cases config now query .calm server with ⟨-, hfailed⟩ | traversal
  · rw [hcalm] at hfailed
    cases hfailed
  · rw [hcalm] at traversal
    exact traversal

/-- A full page of the records of some keys is the page of the records of more keys. -/
theorem Query.page_recordsOf_append {query : Query} {store : Store} {now : Timestamp}
    {read : List String}
    (hfull : (query.page (store.recordsOf now read)).length = query.size) (more : List String) :
    query.page (store.recordsOf now (read ++ more)) = query.page (store.recordsOf now read) := by
  have hsize : query.size ≤ (query.beyond (store.recordsOf now read)).length := by
    rw [← hfull, Query.page, List.length_take]
    exact Nat.min_le_right _ _
  rw [Store.recordsOf_append, Query.page_append_of_full hsize]

/-- **While no command fails, a history answers the page among the records of the index.** It drops
keys without a text, and all of them unless the page is full. -/
theorem run_historyRecords_calm (now : Timestamp) (query : Query) {server : Server}
    (h : server.store.Readable config) :
    (server.run .calm (historyRecords config now query)).1 =
        query.page (server.store.recordsOf now (server.store.ranked config.indexKey)) ∧
      ∃ read rest, server.store.ranked config.indexKey = read ++ rest ∧
        (server.run .calm (historyRecords config now query)).2.2.store =
          server.store.prune config (read.filter server.store.lacks) ∧
        ((server.run .calm (historyRecords config now query)).1.length < query.size →
          rest = []) := by
  obtain ⟨read, rest, hsplit, hfound, -, hafter, halted⟩ :=
    exists_traversal_calm config now query server
  rw [List.nil_append] at hfound
  generalize (server.run .calm (historyRecords config now query)).1 = found at hfound halted ⊢
  cases halted with
  | exhausted =>
    rw [List.append_nil] at hsplit
    exact ⟨hsplit ▸ hfound, read, [], by rw [hsplit, List.append_nil], hafter, fun _ => rfl⟩
  | full hfull =>
    refine ⟨?_, read, rest, hsplit, hafter, fun hless => absurd hfull (Nat.ne_of_lt hless)⟩
    rw [hsplit, Query.page_recordsOf_append (hfound ▸ hfull), hfound]
  | @garbled key text rest htext hgarbled =>
    have hkey : key ∈ server.store.ranked config.indexKey := by
      rw [hsplit]
      exact List.mem_append_right _ List.mem_cons_self
    obtain ⟨record, hrecord⟩ := h.isRecord_of_mem hkey htext now
    rw [hrecord] at hgarbled
    cases hgarbled

end ContractLens.Cache
