import ContractLens.Proofs.Cache.Garbled
import ContractLens.Proofs.Cache.Ledger
import ContractLens.Proofs.Text.Keyword
import Mathlib.Data.List.Nodup
/-!
# The history of a whole run

A run on which no command fails keeps the books (`Books.step`): the store holds the records of the
ledger. So a history answers the page among the records of the ledger, the latest analysis first
(`Books.recordsOf_ranked`), whatever places of gone records it has to clear away; and when it
cleared them all away, the index has as many keys as the ledger (`Books.length_scores`).
-/

namespace ContractLens.Cache

section Listed

variable [Platform] {config : Config} {ledger : Ledger} {store : Store} {refusals : Nat}

/-- The history that a client gives while no command fails. -/
def Client.listing (config : Config) (client : Client) (now : Timestamp) (query : Query) :
    List AnalysisRecord :=
  client.answer config .calm (.history now query)

/-- The entry of a ledger that a place of the index is for. -/
def Ledger.entryAt? (ledger : Ledger) (place : String × Binary64) :
    Option (String × AnalysisRecord) :=
  (ledger.get? place.1).map (place.1, ·)

namespace Books

/-! ## One call -/

/-- Keys without a record are dropped from the index. -/
theorem prune (h : Books config ledger store refusals) {keys : List String}
    (hkeys : ∀ key ∈ keys, ledger.get? key = none) :
    Books config ledger (store.prune config keys) refusals := by
  induction keys generalizing store with
  | nil => exact h
  | cons key keys ih =>
    rw [Store.prune_cons]
    exact ih (h.eraseScore (hkeys key List.mem_cons_self)) fun other hother =>
      hkeys other (List.mem_cons_of_mem _ hother)

/-- A key of the index is not that of the counter. -/
theorem ne_skippedKey_of_mem (h : Books config ledger store refusals) {key : String}
    (hkey : key ∈ store.ranked config.indexKey) : key ≠ config.skippedKey := by
  rintro rfl
  exact Store.mem_ranked_iff.mp hkey h.unplaced

/-- A key of the index without a text has no record. -/
theorem get?_of_lacks (h : Books config ledger store refusals) {key : String}
    (hkey : key ∈ store.ranked config.indexKey) (hlacks : store.lacks key = true) :
    ledger.get? key = none := by
  rw [Store.lacks, h.texts key (h.ne_skippedKey_of_mem hkey), Option.isNone_map,
    Option.isNone_iff_eq_none] at hlacks
  exact hlacks

/-- The store is readable. -/
theorem readable (h : Books config ledger store refusals) : store.Readable config := by
  refine ⟨fun key text hkey htext now => ?_, h.unplaced⟩
  rw [h.texts key hkey, Option.map_eq_some_iff] at htext
  obtain ⟨record, hrecord, rfl⟩ := htext
  exact ⟨record, AnalysisRecord.decode_encode now (h.records key record hrecord).wellFormed⟩

/-- The record of a key of the index is that of the ledger. -/
theorem recordAt?_eq (h : Books config ledger store refusals) (now : Timestamp) {key : String}
    (hkey : key ≠ config.skippedKey) : recordAt? store now key = ledger.get? key := by
  rw [recordAt?, h.texts key hkey]
  cases hrecord : ledger.get? key with
  | none => rfl
  | some record =>
    rw [Option.map_some, Option.bind_some,
      AnalysisRecord.decode_encode now (h.records key record hrecord).wellFormed]
    rfl

/-- A record that is kept is written down in the ledger. -/
theorem writeRecord {server : Server} (h : Books config ledger server.store refusals)
    {record : AnalysisRecord} (hrecord : Listable record) {key : String}
    (hkept : config.keptKey? record = some key) :
    Books config (ledger.insert key record)
      (server.run .calm (Cache.writeRecord config record key)).2.2.store refusals := by
  obtain ⟨-, htext, hseconds, hkey⟩ := keptKey?_eq_some_iff.mp hkept
  obtain ⟨score, hscore⟩ := hrecord.dated
  have hplace : key ≠ config.skippedKey :=
    (recordKey_eq_ok_iff.mp hkey).2 ▸ keyText_ne_skippedKey record.address record.chainId
  obtain ⟨hanswer, hstore⟩ :=
    server.take_calm (.set key record.encode (some config.seconds))
  rw [run_set _ _ _ _ hseconds] at hanswer hstore
  have hinsert := h.insert hplace hrecord (server.store.lifetimes.insert key (some config.seconds))
  dsimp only at hstore
  rw [← hstore, scoreOf_eq hscore] at hinsert
  rw [Cache.writeRecord, htext]
  simp only [Server.run_issue, hanswer, hscore]
  exact hinsert

/-- A record that is not kept, and need not be refused, leaves the store as it is. -/
theorem store_run_writeRecord {server : Server} {record : AnalysisRecord} {key : String}
    (hveto : isVetoed record = false)
    (hkey : config.recordKey record.address record.chainId = .ok key)
    (hkept : config.keptKey? record = none) :
    (server.run .calm (Cache.writeRecord config record key)).2.2.store = server.store := by
  rw [Cache.writeRecord]
  cases htext : record.encoded with
  | error reason => rfl
  | ok text =>
    obtain rfl := AnalysisRecord.encode_eq_of_encoded htext
    have hseconds : (some config.seconds).any (· ≤ 0) = true := by
      rw [Option.any_some, decide_eq_true_eq]
      refine Int.not_lt.mp fun hlt => ?_
      rw [keptKey?_eq_some_iff.mpr ⟨hveto, htext, hlt, hkey⟩] at hkept
      cases hkept
    obtain ⟨hanswer, hstore⟩ := server.take_calm (.set key record.encode (some config.seconds))
    rw [Store.run, if_pos hseconds] at hanswer hstore
    simp only [Server.run_issue, hanswer]
    exact hstore

/-- A record that is dropped is struck out of the ledger. -/
theorem deleteRecord {server : Server} (h : Books config ledger server.store refusals)
    (key : String) :
    Books config (ledger.erase key)
      (server.run .calm (Cache.deleteRecord config key)).2.2.store refusals := by
  have hgone : (ledger.erase key).get? key = none := by rw [Table.get?_erase, if_pos rfl]
  exact (h.erase key).eraseScore hgone

/-- What a call with a key does keeps the books when it does so with the key. -/
theorem withKey {server : Server} {ledger : Ledger} {key : Except Failure String}
    {program : String → Program α}
    (hfailure : ∀ failure, key = .error failure → Books config ledger server.store refusals)
    (hkey : ∀ name, key = .ok name →
      Books config ledger (server.run .calm (program name)).2.2.store refusals) :
    Books config ledger (server.run .calm (Cache.withKey key program)).2.2.store refusals := by
  cases key with
  | error failure => exact hfailure failure rfl
  | ok name =>
    rw [Server.run_withKey]
    exact hkey name rfl

/-- A record that is handed in is kept, refused or let go. -/
theorem keepRecord {server : Server} (h : Books config ledger server.store refusals)
    {record : AnalysisRecord} (htold : Event.Told config (.call (.store record))) {key : String}
    (hkey : config.recordKey record.address record.chainId = .ok key) :
    Books config (ledger.step config (.call (.store record)))
      (server.run .calm (Call.keepRecord config record key)).2.2.store (refusals + 1) := by
  rw [Ledger.step]
  cases hveto : isVetoed record with
  | true =>
    simp only [Call.keepRecord, hveto, keptKey?_of_vetoed hveto]
    have hcounted := h.refused (refused_countSkipped .calm server)
    show Books config ledger
      (server.run .calm ((countSkipped config).bind fun _ => .done false)).2.2.store _
    rw [Server.run_bind]
    exact hcounted
  | false =>
    simp only [Call.keepRecord, hveto, Bool.false_eq_true, if_false]
    cases hkept : config.keptKey? record with
    | some found =>
      have hfound := (keptKey?_eq_some_iff.mp hkept).2.2.2
      obtain rfl := Except.ok.inj (hkey.symm.trans hfound)
      exact (h.writeRecord (htold (by rw [hkept]; rfl)) hkept).mono (Nat.le_succ _)
    | none =>
      rw [store_run_writeRecord hveto hkey hkept]
      exact h.mono (Nat.le_succ _)

/-- **A call keeps the books**, while no command fails. -/
theorem program {server : Server} (h : Books config ledger server.store refusals) {call : Call}
    (htold : Event.Told config (.call call)) :
    Books config (ledger.step config (.call call))
      (server.run .calm (call.program config)).2.2.store (refusals + 1) := by
  have hmore := h.mono (Nat.le_succ refusals)
  have hsame : ∀ p : Program call.Answer, p.Issues Command.LeavesStore →
      Books config ledger (server.run .calm p).2.2.store (refusals + 1) := by
    intro p hp
    rw [Server.run_store_of_issues hp]
    exact hmore
  cases call with
  | connect => exact hsame _ trivial
  | get now address chainId =>
    exact hsame _ (Call.issues_withKey (Call.issues_getRecord now fun _ _ => rfl))
  | stats =>
    refine hsame _ ((Call.issues_program config .stats).imp fun command hcommand => ?_)
    rcases hcommand with rfl | rfl | rfl <;> exact fun _ _ => rfl
  | store record =>
    refine withKey (fun failure hkey => ?_) fun key hkey => h.keepRecord htold hkey
    rw [Ledger.step, keptKey?_of_no_key hkey]
    exact hmore
  | delete address chainId =>
    rw [Ledger.step]
    refine withKey (fun failure hkey => ?_) fun key hkey => ?_
    · rw [hkey]
      exact hmore
    · rw [hkey]
      exact (h.deleteRecord key).mono (Nat.le_succ _)
  | history now query =>
    obtain ⟨-, read, rest, hsplit, hafter, -⟩ := run_historyRecords_calm now query h.readable
    refine (hafter ▸ h.prune fun key hkey => ?_ : Books _ _ _ refusals).mono (Nat.le_succ _)
    obtain ⟨hread, hlacks⟩ := List.mem_filter.mp hkey
    exact h.get?_of_lacks (hsplit ▸ List.mem_append_left rest hread) hlacks

/-- A call that is barred changes nothing, and the ledger has nothing new. -/
theorem step_of_barred {call : Call} (hbarred : call.Barred) (client : Client) :
    client.step config .calm (.call call) = client ∧
      ledger.step config (.call call) = ledger := by
  constructor
  · rw [Client.step, Client.perform, Call.operation_of_barred hbarred]
    rfl
  · cases call with
    | store record =>
      rw [Ledger.step, keptKey?_of_no_key (recordKey_of_not_short hbarred record.address)]
    | _ => exact hbarred.elim

/-- One event keeps the books, and the cache stays in use. -/
theorem step {client : Client} (h : Books config ledger client.server.store refusals)
    (hused : client.connection ≠ .disabled) {event : Event} (htold : event.Told config) :
    Books config (ledger.step config event) (client.step config .calm event).server.store
        (refusals + 1) ∧
      (client.step config .calm event).connection ≠ .disabled := by
  cases event with
  | change => exact htold.elim
  | lapse key => exact ⟨(h.erase key).mono (Nat.le_succ _), hused⟩
  | close =>
    obtain ⟨server, connection⟩ := client
    cases connection with
    | disabled => exact absurd rfl hused
    | idle => exact ⟨h.mono (Nat.le_succ _), hused⟩
    | active => exact ⟨h.mono (Nat.le_succ _), nofun⟩
  | call call =>
    by_cases hbarred : call.Barred
    · obtain ⟨hclient, hledger⟩ := step_of_barred hbarred client
      rw [hclient, hledger]
      exact ⟨h.mono (Nat.le_succ _), hused⟩
    obtain ⟨ready, hready, hvalue, hserver⟩ :=
      call.run_operation_calm config hbarred hused client.server
    rw [← hready] at h
    rw [Client.step, Client.perform]
    dsimp only
    rw [hvalue, hserver]
    exact ⟨h.program htold, nofun⟩

/-- **A run keeps the books**, while no command fails. -/
theorem after {client : Client} (h : Books config ledger client.server.store refusals)
    (hused : client.connection ≠ .disabled) {events : List Event}
    (htold : ∀ event ∈ events, event.Told config) :
    Books config (events.foldl (Ledger.step config) ledger)
        (client.after config .calm events).server.store (refusals + events.length) ∧
      (client.after config .calm events).connection ≠ .disabled := by
  induction events generalizing client ledger refusals with
  | nil => exact ⟨h, hused⟩
  | cons event events ih =>
    obtain ⟨hstep, hstill⟩ := h.step hused (htold event List.mem_cons_self)
    have hrest := ih hstep hstill fun other hother => htold other (List.mem_cons_of_mem _ hother)
    rw [List.length_cons, Nat.add_comm events.length, ← Nat.add_assoc]
    exact hrest

/-! ## The records in order -/

/-- The place of an entry is where the index has it. -/
theorem placeOf_eq_of_entryAt? (h : Books config ledger store refusals) {place : String × Binary64}
    (hplace : place ∈ store.scores config.indexKey) {entry : String × AnalysisRecord}
    (hentry : ledger.entryAt? place = some entry) : entry ∈ ledger ∧ placeOf entry = place := by
  obtain ⟨record, hrecord, rfl⟩ := Option.map_eq_some_iff.mp hentry
  have hscore := (Table.get?_eq_some_iff h.nodup).mpr hplace
  rw [h.places place.1 record hrecord] at hscore
  exact ⟨Table.mem_of_get?_eq_some hrecord, congrArg (place.1, ·) (Option.some.inj hscore)⟩

/-- Every entry of the ledger is that of one place of the index. -/
theorem perm_filterMap_entryAt? (h : Books config ledger store refusals)
    {places : List (String × Binary64)} (hplaces : places.Perm (store.scores config.indexKey)) :
    (places.filterMap ledger.entryAt?).Perm ledger := by
  have hkeys : (places.map (·.1)).Nodup := (hplaces.map Prod.fst).nodup_iff.mpr h.nodup
  have hnodup : (places.filterMap ledger.entryAt?).Nodup := by
    refine List.pairwise_filterMap.mpr ((List.pairwise_map.mp hkeys).imp ?_)
    rintro x x' hne y hy _ hy' rfl
    obtain ⟨record, -, rfl⟩ := Option.map_eq_some_iff.mp hy
    obtain ⟨record', -, heq⟩ := Option.map_eq_some_iff.mp hy'
    exact hne (congrArg Prod.fst heq).symm
  refine (List.perm_ext_iff_of_nodup hnodup (List.Nodup.of_map _ h.keys)).mpr fun entry => ?_
  rw [List.mem_filterMap]
  constructor
  · rintro ⟨place, hplace, hentry⟩
    exact (h.placeOf_eq_of_entryAt? (hplaces.mem_iff.mp hplace) hentry).1
  · intro hentry
    have hrecord := (Table.get?_eq_some_iff h.keys).mpr hentry
    have hplace := (Table.get?_eq_some_iff h.nodup).mp (h.places entry.1 entry.2 hrecord)
    exact ⟨_, hplaces.mem_iff.mpr hplace, Option.map_eq_some_iff.mpr ⟨entry.2, hrecord, rfl⟩⟩

/-- The records of an index in order are those of the ledger, the latest analysis first. -/
theorem recordsOf_ranked (h : Books config ledger store refusals) (now : Timestamp) :
    store.recordsOf now (store.ranked config.indexKey) = ledger.recent := by
  let sorted := (store.scores config.indexKey).mergeSort Store.ranksBefore
  have hrecords : store.recordsOf now (store.ranked config.indexKey) =
      (sorted.filterMap ledger.entryAt?).map (·.2) := by
    rw [Store.recordsOf, Store.ranked, List.filterMap_map, List.map_filterMap]
    refine List.filterMap_congr fun place hplace => ?_
    have hkey : place.1 ∈ store.ranked config.indexKey := List.mem_map_of_mem hplace
    rw [Function.comp_apply, h.recordAt?_eq now (h.ne_skippedKey_of_mem hkey), Ledger.entryAt?,
      Option.map_map]
    exact Option.map_id'.symm
  have hranked : (sorted.filterMap ledger.entryAt?).Pairwise fun x y =>
      Store.ranksBefore (placeOf x) (placeOf y) = true := by
    refine List.pairwise_filterMap.mpr ((Store.pairwise_sort_scores h.numbers).imp_of_mem ?_)
    intro x x' hx hx' hbefore y hy y' hy'
    rwa [(h.placeOf_eq_of_entryAt? (List.mem_mergeSort.mp hx) hy).2,
      (h.placeOf_eq_of_entryAt? (List.mem_mergeSort.mp hx') hy').2]
  have hperm : (sorted.filterMap ledger.entryAt?).Perm ledger :=
    h.perm_filterMap_entryAt? (List.mergeSort_perm _ _)
  have hsorted : sorted.filterMap ledger.entryAt? =
      ledger.mergeSort fun x y => Store.ranksBefore (placeOf x) (placeOf y) := by
    refine List.Perm.eq_of_pairwise ?_ hranked
      (Store.pairwise_sort_ranksBefore placeOf (fun x => scoreOf_ne_nan _) ledger)
      (hperm.trans (List.mergeSort_perm ledger _).symm)
    -- a ledger has one record for a key
    intro x y hx hy hxy hyx
    have hkey : x.1 = y.1 :=
      Store.key_eq_of_ranksBefore (scoreOf_ne_nan _) (scoreOf_ne_nan _) hxy hyx
    have hxrecord := (Table.get?_eq_some_iff h.keys).mpr (hperm.mem_iff.mp hx)
    have hyrecord := (Table.get?_eq_some_iff h.keys).mpr (List.mem_mergeSort.mp hy)
    rw [hkey, hyrecord] at hxrecord
    exact Prod.ext hkey (Option.some.inj hxrecord).symm
  rw [hrecords, hsorted, Ledger.recent]

/-- An index with no place of a gone record has as many keys as the ledger. -/
theorem length_scores (h : Books config ledger store refusals)
    (hkeys : ∀ key ∈ Table.names (store.scores config.indexKey), ledger.get? key ≠ none) :
    (store.scores config.indexKey).length = ledger.length := by
  have hperm : (Table.names (store.scores config.indexKey)).Perm (Table.names ledger) := by
    refine (List.perm_ext_iff_of_nodup h.nodup h.keys).mpr fun key =>
      ⟨fun hkey => ?_, fun hkey => ?_⟩
    · exact Decidable.not_not.mp fun hnot => hkeys key hkey (Table.get?_eq_none_iff.mpr hnot)
    · refine Decidable.not_not.mp fun hnot => ?_
      cases hrecord : ledger.get? key with
      | none => exact Table.get?_eq_none_iff.mp hrecord hkey
      | some record =>
        have hplace := h.places key record hrecord
        rw [Table.get?_eq_none_iff.mpr hnot] at hplace
        cases hplace
  have hlength := hperm.length_eq
  rwa [Table.names, Table.names, List.length_map, List.length_map] at hlength

/-- The records of the ledger have scores. -/
theorem dated (h : Books config ledger store refusals) :
    ∀ record ∈ ledger.recent, record.analyzedAt.seconds = .ok (scoreOf record) := by
  intro record hrecord
  obtain ⟨entry, hentry, rfl⟩ := List.mem_map.mp hrecord
  have hlisted := (Table.get?_eq_some_iff h.keys).mpr (List.mem_mergeSort.mp hentry)
  obtain ⟨score, hscore⟩ := (h.records entry.1 entry.2 hlisted).dated
  rw [hscore, scoreOf_eq hscore]

/-- The use that is told has as many records as the index has keys. -/
theorem run_askStats {server : Server} (h : Books config ledger server.store refusals)
    (hfew : refusals < 10 ^ Json.maxIntegerDigits) :
    ∃ skipped hits misses, (server.run .calm (askStats config)).1 =
      .counts (server.store.scores config.indexKey).length skipped config.seconds hits misses := by
  obtain ⟨skipped, hskipped⟩ : ∃ skipped : Int,
      (if ((server.store.texts.get? config.skippedKey).getD "").isEmpty then some 0
        else wholeNumber? ((server.store.texts.get? config.skippedKey).getD "")) =
          some skipped := by
    split
    · exact ⟨0, rfl⟩
    · rename_i hwritten
      rcases h.counter with hnone | ⟨n, hn, htext⟩
      · rw [hnone] at hwritten
        exact absurd rfl hwritten
      · rw [htext]
        exact ⟨n, wholeNumber?_intText_of_lt (Nat.lt_of_le_of_lt hn hfew)⟩
  have hinfo : (server.take .calm .info).1 = .ok server.facts := rfl
  have hcounter : ((server.take .calm .info).2.take .calm (.get config.skippedKey)).1 =
      .ok (server.store.texts.get? config.skippedKey) := rfl
  have hcard : (((server.take .calm .info).2.take .calm (.get config.skippedKey)).2.take .calm
      (.zcard config.indexKey)).1 = .ok (server.store.scores config.indexKey).length := rfl
  rw [askStats, Server.run_issue, hinfo]
  simp only [Server.run_issue]
  rw [hcounter]
  simp only [Server.run_issue]
  rw [hcard]
  simp only [hskipped]
  exact ⟨skipped, _, _, rfl⟩

/-! ## Clients -/

/-- **While no command fails, a history answers the page among the records of the ledger.** -/
theorem listing_eq {client : Client} (h : Books config ledger client.server.store refusals)
    (hused : client.connection ≠ .disabled) (now : Timestamp) (query : Query) :
    client.listing config now query = query.page ledger.recent := by
  obtain ⟨ready, hready, hvalue, -⟩ :=
    (Call.history now query).run_operation_calm config id hused client.server
  rw [← hready] at h
  rw [Client.listing, Client.answer, hvalue, ← h.recordsOf_ranked now]
  exact (run_historyRecords_calm now query h.readable).1

/-- A history whose page is not full leaves no place of a gone record in the index. -/
theorem names_after_history {client : Client}
    (h : Books config ledger client.server.store refusals)
    (hused : client.connection ≠ .disabled) (now : Timestamp) (query : Query)
    (hroom : (client.listing config now query).length < query.size) :
    ∀ key ∈ Table.names ((client.step config .calm
      (.call (.history now query))).server.store.scores config.indexKey),
      ledger.get? key ≠ none := by
  obtain ⟨ready, hready, hvalue, hserver⟩ :=
    (Call.history now query).run_operation_calm config id hused client.server
  rw [← hready] at h
  rw [Client.listing, Client.answer, hvalue] at hroom
  obtain ⟨-, read, rest, hsplit, hafter, hrest⟩ := run_historyRecords_calm now query h.readable
  cases hrest hroom
  rw [List.append_nil] at hsplit
  intro key hkey
  rw [Client.step, Client.perform] at hkey
  dsimp only at hkey
  rw [hserver] at hkey
  have hscore := fun hnone => (Table.get?_eq_none_iff.mp hnone) hkey
  have hstore : (ready.run .calm ((Call.history now query).program config)).2.2.store =
    ready.store.prune config (read.filter ready.store.lacks) := hafter
  rw [hstore, Store.score_prune] at hscore
  split at hscore
  · exact absurd rfl hscore
  · rename_i hkept
    have hranked : key ∈ ready.store.ranked config.indexKey := Store.mem_ranked_iff.mpr hscore
    have hlacks : ready.store.lacks key ≠ true := fun hlacks =>
      hkept (List.mem_filter.mpr ⟨hsplit ▸ hranked, hlacks⟩)
    intro hgone
    rw [Store.lacks, h.texts key (h.ne_skippedKey_of_mem hranked), hgone] at hlacks
    exact hlacks rfl

/-- After a history whose page is not full, the use that is told has the records of the ledger. -/
theorem answer_stats {client : Client} (h : Books config ledger client.server.store refusals)
    (hused : client.connection ≠ .disabled) (now : Timestamp) (query : Query)
    (hfew : refusals + 1 < 10 ^ Json.maxIntegerDigits)
    (hroom : (client.listing config now query).length < query.size) :
    ∃ skipped hits misses,
      (client.step config .calm (.call (.history now query))).answer config .calm .stats =
        .counts ledger.length skipped config.seconds hits misses := by
  have htold : Event.Told config (.call (.history now query)) := trivial
  obtain ⟨hlater, hstill⟩ := h.step hused htold
  have hcleared := h.names_after_history hused now query hroom
  generalize client.step config .calm (.call (.history now query)) = later
    at hlater hstill hcleared ⊢
  replace hlater : Books config ledger later.server.store (refusals + 1) := hlater
  obtain ⟨ready, hready, hvalue, -⟩ := Call.stats.run_operation_calm config id hstill later.server
  rw [← hready] at hlater hcleared
  rw [Client.answer, hvalue, ← hlater.length_scores hcleared]
  exact hlater.run_askStats hfew

end Books

/-! ## Runs -/

omit [Platform] in
/-- Consecutive pages are one longer page. -/
theorem Query.page_append_page {query : Query} (hlimit : 1 ≤ query.limit)
    (hoffset : 0 ≤ query.offset) {more : Int} (hmore : 1 ≤ more) (records : List AnalysisRecord) :
    query.page records ++
        Query.page { query with offset := query.offset + query.limit, limit := more } records =
      ((records.filter query.accepts).drop query.offset.toNat).take (query.limit + more).toNat := by
  have hsize : query.size = query.limit.toNat := by rw [Query.size]; omega
  have hmoreSize : max 1 more.toNat = more.toNat := by omega
  have hboth : (query.limit + more).toNat = query.limit.toNat + more.toNat := by omega
  have hdrop : (query.offset + query.limit).toNat =
      query.offset.toNat + query.limit.toNat := by omega
  rw [hboth, List.take_add, List.drop_drop, Query.page, Query.beyond, hsize, ← hdrop, ← hmoreSize]
  rfl

omit [Platform] in
theorem Query.accepts_iff (query : Query) (record : AnalysisRecord) :
    query.accepts record = true ↔
      Text.lower query.search.toList <:+: Text.lower record.address.toList ∨
        Text.lower query.search.toList <:+: Text.lower record.contractName.toList := by
  rw [Query.accepts, Bool.or_eq_true, Text.contains_iff, Text.contains_iff]

theorem Ledger.recent_perm (ledger : Ledger) : ledger.recent.Perm (ledger.map (·.2)) :=
  (List.mergeSort_perm _ _).map _

/-- No record comes after one that was analysed before it. -/
theorem Ledger.pairwise_recent (ledger : Ledger) :
    ledger.recent.Pairwise fun x y => Binary64.lt (scoreOf x) (scoreOf y) = false := by
  refine List.pairwise_map.mpr (List.Pairwise.imp ?_
    (Store.pairwise_sort_ranksBefore placeOf (fun x => scoreOf_ne_nan _) ledger))
  exact fun hbefore =>
    Store.lt_eq_false_of_ranksBefore (scoreOf_ne_nan _) (scoreOf_ne_nan _) hbefore

/-- What a history answers after a run, by the ledger of the run. -/
structure Listed (config : Config) (events : List Event) (client : Client) (now : Timestamp)
    (query : Query) : Prop where
  /-- The ledger has a key once. -/
  keys : (Table.names (Ledger.after config events)).Nodup
  /-- Its records are those that the store holds a text of. -/
  live : ∀ key, key ≠ config.skippedKey → client.server.store.texts.get? key =
    ((Ledger.after config events).get? key).map AnalysisRecord.encode
  /-- The recent records are all of them. -/
  all : (Ledger.after config events).recent.Perm ((Ledger.after config events).map (·.2))
  /-- Their times have scores. -/
  dated : ∀ record ∈ (Ledger.after config events).recent,
    record.analyzedAt.seconds = .ok (scoreOf record)
  /-- They are in order of their scores, the greatest first. -/
  ordered : (Ledger.after config events).recent.Pairwise fun x y =>
    Binary64.lt (scoreOf x) (scoreOf y) = false
  /-- A record matches by its address or its name. -/
  matching : ∀ record, query.accepts record = true ↔
    Text.lower query.search.toList <:+: Text.lower record.address.toList ∨
      Text.lower query.search.toList <:+: Text.lower record.contractName.toList
  /-- The history is a page of the records that match. -/
  page : client.listing config now query =
    (((Ledger.after config events).recent.filter query.accepts).drop query.offset.toNat).take
      query.limit.toNat
  /-- The next page goes on where it ended. -/
  next : ∀ later more, 1 ≤ more → client.listing config now query ++
      (client.step config .calm (.call (.history now query))).listing config later
        { query with offset := query.offset + query.limit, limit := more } =
    (((Ledger.after config events).recent.filter query.accepts).drop query.offset.toNat).take
      (query.limit + more).toNat
  /-- When the page was not full, the use that is told next has the count of the records, as long as
  the counter of refusals can be read. -/
  total : (client.listing config now query).length < query.limit →
    10 ^ Json.maxIntegerDigits ≤ events.length + 1 ∨
      ∃ skipped hits misses,
        (client.step config .calm (.call (.history now query))).answer config .calm .stats =
          .counts (Ledger.after config events).length skipped config.seconds hits misses

/-- **The history is a page of the ledger.** After any run on an empty store on which no command
fails, a history answers the records at the places it asks for, out of the records of the ledger
that match, the greatest score first; as long as the records that were kept can be listed. -/
theorem listed_after (config : Config) {start : Client} (hempty : start.server.store = {})
    (hused : start.connection ≠ .disabled) {events : List Event}
    (htold : ∀ event ∈ events, event.Told config) (now : Timestamp) {query : Query}
    (hlimit : 1 ≤ query.limit) (hoffset : 0 ≤ query.offset) :
    Listed config events (start.after config .calm events) now query := by
  have hstart : Books config [] start.server.store 0 := hempty ▸ Books.empty config
  obtain ⟨h, hstill⟩ := hstart.after hused htold
  rw [Nat.zero_add] at h
  have hanswer := h.listing_eq hstill now query
  have hasked : Event.Told config (.call (.history now query)) := trivial
  obtain ⟨hlater, hlaterUsed⟩ := h.step hstill hasked
  refine ⟨h.keys, h.texts, Ledger.recent_perm _, h.dated, Ledger.pairwise_recent _,
    query.accepts_iff, ?_, fun later more hmore => ?_, fun hroom => ?_⟩
  · rw [hanswer, Query.page, Query.beyond, Query.size]
    congr 1
    omega
  · rw [hanswer, hlater.listing_eq hlaterUsed later]
    exact Query.page_append_page hlimit hoffset hmore _
  · by_cases hfew : events.length + 1 < 10 ^ Json.maxIntegerDigits
    · refine .inr (h.answer_stats hstill now query hfew ?_)
      rw [Query.size]
      omega
    · exact .inl (Nat.le_of_not_lt hfew)

end Listed

/-- A record is kept for two chains, and the time of one of them is over. -/
def expiringEvents : List Event :=
  [.call (.store factoryRecord), .call (.store { factoryRecord with chainId := 1 }),
    .lapse factoryKey]

theorem told_expiringEvents : ∀ event ∈ expiringEvents, event.Told dayConfig := by
  have hdated : ∃ score, factoryRecord.analyzedAt.seconds = .ok score := ⟨_, rfl⟩
  intro event hevent
  rcases List.mem_cons.mp hevent with rfl | hevent
  · exact fun _ => ⟨wellFormed_factoryRecord, hdated⟩
  rcases List.mem_cons.mp hevent with rfl | hevent
  · exact fun _ => ⟨{ wellFormed_factoryRecord with chainId := by decide }, hdated⟩
  · cases List.mem_singleton.mp hevent
    trivial

/-- The history then has the one record that is left. -/
theorem listed_after_expiringEvents :
    (Client.listing dayConfig (Client.after dayConfig .calm {} expiringEvents) .epoch {}).length =
      1 := by
  have hlisted : Listed dayConfig expiringEvents
      (Client.after dayConfig .calm {} expiringEvents) .epoch {} :=
    listed_after dayConfig rfl (by decide) told_expiringEvents .epoch (by decide) (by decide)
  rw [hlisted.page]
  decide +kernel

/-- A record whose time has no place: the local clock does not show the day before. -/
def undatedRecord : AnalysisRecord :=
  { factoryRecord with analyzedAt := ⟨⟨1, 1, 1, by decide⟩, .midnight, none⟩ }

theorem wellFormed_undatedRecord : undatedRecord.WellFormed :=
  ⟨wellFormed_factoryRecord.chainId, wellFormed_factoryRecord.parsed,
    wellFormed_factoryRecord.dependencyGraph, wellFormed_factoryRecord.features,
    wellFormed_factoryRecord.bytecodeAnalysis⟩

/-- **A record whose time has no place is held and not listed**: its key gives it back, and no
history has it. -/
theorem unlisted_of_undated :
    let client := Client.after dayConfig .calm {} [.call (.store undatedRecord)]
    (∀ now, client.answer dayConfig .calm
      (.get now undatedRecord.address undatedRecord.chainId) = .ok (some undatedRecord)) ∧
      client.listing dayConfig .epoch {} = [] := by
  intro client
  have hkey : dayConfig.recordKey undatedRecord.address undatedRecord.chainId = .ok factoryKey :=
    recordKey_factoryRecord
  have htext : undatedRecord.encoded = .ok undatedRecord.encode :=
    AnalysisRecord.encoded_of_all (by decide +kernel)
  have hveto : isVetoed undatedRecord = false := rfl
  have hseconds : 0 < dayConfig.seconds := by decide
  have hidle : Connection.idle ≠ .disabled := by decide
  obtain ⟨hvalue, htexts⟩ := run_store_calm hkey htext hveto hseconds hidle {}
  have hactive : client.connection = .active := congrArg Prod.snd hvalue
  have hused : client.connection ≠ .disabled := by
    rw [hactive]
    decide
  have hindexes : client.server.store.indexes = [] := by decide +kernel
  constructor
  · have hset : client.server.store.texts = Table.insert [] factoryKey undatedRecord.encode :=
      htexts
    have hheld : client.server.store.texts.get? factoryKey = some undatedRecord.encode := by
      rw [hset, Table.get?_insert, beq_self_eq_true, if_pos rfl]
    exact fun now => Client.answer_get_of_text hused wellFormed_undatedRecord hheld now
  · have hranked : client.server.store.ranked dayConfig.indexKey = [] := by
      rw [Store.ranked, Store.scores, hindexes, Table.get?, List.find?_nil, Option.map_none,
        Option.getD_none, List.mergeSort_nil, List.map_nil]
    refine (client.answer_history dayConfig hused .epoch {}).trans ?_
    rw [hranked]
    exact Query.page_nil {}

end ContractLens.Cache
