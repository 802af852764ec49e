import ContractLens.Proofs.Cache.Fault
import ContractLens.Proofs.Cache.Index
import ContractLens.Proofs.Cache.Operation
/-!
# Going through the history

A history goes through the keys of the index in order. What it answers is the page that the query
asks for among the records of the keys it went through, and it has dropped those of them that have
no text from the index (`run_historyFrom`). It halts before the end of the keys only when the page
is full, when a command fails, or at a text that is no record (`Halted`); this is on every schedule,
so what was found before a fault is still the answer.
-/

namespace ContractLens.Cache

variable [Platform] {config : Config} {now : Timestamp} {query : Query}

/-! ## Pages -/

/-- How many records a query asks for: at least one. -/
def Query.size (query : Query) : Nat := max 1 query.limit.toNat

/-- What is left of the records that match a query after the ones it passes over. -/
def Query.beyond (query : Query) (records : List AnalysisRecord) : List AnalysisRecord :=
  (records.filter query.accepts).drop query.offset.toNat

/-- The records that a query asks for, out of all records in order. -/
def Query.page (query : Query) (records : List AnalysisRecord) : List AnalysisRecord :=
  (query.beyond records).take query.size

omit [Platform] in
theorem Query.size_pos (query : Query) : 0 < query.size := by
  rw [size]
  omega

omit [Platform] in
theorem Query.beyond_append_of_rejected (records : List AnalysisRecord) {record : AnalysisRecord}
    (h : query.accepts record = false) :
    query.beyond (records ++ [record]) = query.beyond records := by
  rw [beyond, List.filter_append, List.filter_cons_of_neg (by simp [h]), List.filter_nil,
    List.append_nil, ← beyond]

omit [Platform] in
/-- A full page stays as it is when more records come. -/
theorem Query.page_append_of_full {records more : List AnalysisRecord}
    (h : query.size ≤ (query.beyond records).length) :
    query.page (records ++ more) = query.page records := by
  have hdropped : (records.filter query.accepts).length - query.offset.toNat =
      (query.beyond records).length := (List.length_drop).symm
  have hpassed : query.offset.toNat ≤ (records.filter query.accepts).length := by
    have := query.size_pos
    omega
  rw [page, beyond, List.filter_append, List.drop_append_of_le_length hpassed,
    List.take_append_of_le_length (by simpa [beyond] using h)]
  rfl

/-! ## Traversals -/

/-- The store with keys dropped from the index. -/
def Store.prune (config : Config) (store : Store) (keys : List String) : Store :=
  keys.foldl (fun store key => store.eraseScore config.indexKey key) store

/-- Whether a key has no text. -/
def Store.lacks (store : Store) (key : String) : Bool := (store.texts.get? key).isNone

/-- Whether the text of a key is no record. -/
def Store.garbled (store : Store) (now : Timestamp) (key : String) : Bool :=
  (store.texts.get? key).any fun text => !(AnalysisRecord.decode now text).isOk

/-- The records of keys, as far as their texts decode. -/
def Store.recordsOf (store : Store) (now : Timestamp) (keys : List String) :
    List AnalysisRecord :=
  keys.filterMap (recordAt? store now)

/-- Why a traversal goes no further, given the page it answers with, the keys that are left and the
commands that failed. -/
inductive Halted (config : Config) (now : Timestamp) (query : Query) (texts : Table String)
    (page : List AnalysisRecord) : List String → List Command → Prop
  /-- No key is left. -/
  | exhausted : Halted config now query texts page [] []
  /-- The page is full. -/
  | full {rest : List String} : page.length = query.size →
    Halted config now query texts page rest []
  /-- The text of the next key was not given. -/
  | unread {key : String} {rest : List String} :
    Halted config now query texts page (key :: rest) [.get key]
  /-- The next key has no text, and could not be dropped. -/
  | unpruned {key : String} {rest : List String} : texts.get? key = none →
    Halted config now query texts page (key :: rest) [.zrem config.indexKey key]
  /-- The text of the next key is no record. -/
  | garbled {key text : String} {rest : List String} : texts.get? key = some text →
    (AnalysisRecord.decode now text).isOk = false →
    Halted config now query texts page (key :: rest) []

/-- A traversal that went through the keys `read` of `read ++ rest`, after the records `passed`. -/
structure Traversal (config : Config) (now : Timestamp) (query : Query) (before : Store)
    (passed : List AnalysisRecord) (read rest : List String) (found : List AnalysisRecord)
    (failed : List Command) (after : Store) : Prop where
  /-- It found the page among the records it passed. -/
  found_eq : found = query.page (passed ++ before.recordsOf now read)
  /-- It went through no text that is no record. -/
  legible : ∀ key ∈ read, before.garbled now key = false
  /-- It dropped the keys without a text, and did nothing else. -/
  after_eq : after = before.prune config (read.filter before.lacks)
  /-- It had to halt where it did. -/
  halted : Halted config now query before.texts found rest failed

/-- A history that has gone through some records and has keys left to go through. -/
def historyAfter (config : Config) (now : Timestamp) (query : Query)
    (passed : List AnalysisRecord) (keys : List String) : Program (List AnalysisRecord) :=
  historyFrom config now query
    (min (passed.filter query.accepts).length query.offset.toNat : Nat) (query.beyond passed) keys

omit [Platform] in
theorem Query.beyond_nil (query : Query) : query.beyond [] = [] := List.drop_nil

omit [Platform] in
theorem Query.page_nil (query : Query) : query.page [] = [] := by
  rw [page, beyond_nil, List.take_nil]

/-- A history starts with no record passed. -/
theorem historyAfter_nil (config : Config) (now : Timestamp) (query : Query)
    (keys : List String) :
    historyAfter config now query [] keys = historyFrom config now query 0 [] keys := by
  rw [historyAfter, query.beyond_nil, List.filter_nil, List.length_nil, Nat.zero_min]
  rfl

omit [Platform] in
theorem page_eq_beyond {passed : List AnalysisRecord}
    (h : (query.beyond passed).length ≤ query.size) : query.page passed = query.beyond passed :=
  List.take_of_length_le h

omit [Platform] in
theorem Query.beyond_append_of_early {passed : List AnalysisRecord} (record : AnalysisRecord)
    (h : (passed.filter query.accepts).length < query.offset.toNat) :
    query.beyond (passed ++ [record]) = query.beyond passed := by
  have hlength : ((passed ++ [record]).filter query.accepts).length ≤ query.offset.toNat := by
    have := List.length_filter_le query.accepts [record]
    rw [List.filter_append, List.length_append]
    simp only [List.length_singleton] at this
    omega
  rw [beyond, beyond, List.drop_of_length_le hlength, List.drop_of_length_le (Nat.le_of_lt h)]

omit [Platform] in
theorem Query.beyond_append_of_accepted {passed : List AnalysisRecord} {record : AnalysisRecord}
    (haccepts : query.accepts record = true)
    (h : query.offset.toNat ≤ (passed.filter query.accepts).length) :
    query.beyond (passed ++ [record]) = query.beyond passed ++ [record] := by
  rw [beyond, beyond, List.filter_append, List.filter_cons_of_pos haccepts, List.filter_nil,
    List.drop_append_of_le_length h]

omit [Platform] in
theorem length_filter_append_of_accepts (passed : List AnalysisRecord) {record : AnalysisRecord}
    (h : query.accepts record = true) :
    ((passed ++ [record]).filter query.accepts).length =
      (passed.filter query.accepts).length + 1 := by
  rw [List.filter_append, List.filter_cons_of_pos h, List.filter_nil, List.length_append]
  rfl

theorem historyAfter_append_of_rejected (config : Config) (now : Timestamp)
    (passed : List AnalysisRecord) {record : AnalysisRecord}
    (h : query.accepts record = false) (keys : List String) :
    historyAfter config now query (passed ++ [record]) keys =
      historyAfter config now query passed keys := by
  have hfilter : (passed ++ [record]).filter query.accepts = passed.filter query.accepts := by
    rw [List.filter_append, List.filter_cons_of_neg (by simp [h]), List.filter_nil,
      List.append_nil]
  rw [historyAfter, query.beyond_append_of_rejected passed h, hfilter]
  rfl

/-- A record that the query passes over is counted. -/
theorem historyAfter_append_of_early (config : Config) (now : Timestamp)
    {passed : List AnalysisRecord} {record : AnalysisRecord}
    (haccepts : query.accepts record = true)
    (hearly : (passed.filter query.accepts).length < query.offset.toNat) (keys : List String) :
    historyAfter config now query (passed ++ [record]) keys =
      historyFrom config now query
        ((min (passed.filter query.accepts).length query.offset.toNat : Nat) + 1)
        (query.beyond passed) keys := by
  rw [historyAfter, query.beyond_append_of_early record hearly,
    length_filter_append_of_accepts passed haccepts]
  congr 1
  omega

/-- A record that the query asks for is found. -/
theorem historyAfter_append_of_accepted (config : Config) (now : Timestamp)
    {passed : List AnalysisRecord} {record : AnalysisRecord}
    (haccepts : query.accepts record = true)
    (hlate : query.offset.toNat ≤ (passed.filter query.accepts).length) (keys : List String) :
    historyAfter config now query (passed ++ [record]) keys =
      historyFrom config now query
        (min (passed.filter query.accepts).length query.offset.toNat : Nat)
        (query.beyond passed ++ [record]) keys := by
  rw [historyAfter, query.beyond_append_of_accepted haccepts hlate,
    length_filter_append_of_accepts passed haccepts]
  congr 1
  omega

omit [Platform] in
/-- A found record that does not overfill the page is on it. -/
theorem Query.page_append_of_accepted {passed : List AnalysisRecord} {record : AnalysisRecord}
    (haccepts : query.accepts record = true)
    (hlate : query.offset.toNat ≤ (passed.filter query.accepts).length)
    (hroom : (query.beyond passed).length < query.size) :
    query.page (passed ++ [record]) = query.beyond passed ++ [record] := by
  have hbeyond := query.beyond_append_of_accepted haccepts hlate
  have hfits : (query.beyond (passed ++ [record])).length ≤ query.size := by
    rw [hbeyond, List.length_append, List.length_singleton]
    exact hroom
  rw [page_eq_beyond hfits, hbeyond]

omit [Platform] in
/-- A page with a record on it is at the limit just when it is full. -/
theorem Query.limit_le_length_iff (query : Query) (found : List AnalysisRecord)
    (record : AnalysisRecord) :
    query.limit ≤ ((found ++ [record]).length : Nat) ↔
      query.size ≤ (found ++ [record]).length := by
  rw [size, List.length_append, List.length_singleton]
  omega

/-- **One key of a history**: a record that is found is passed, and fills the page or does not. -/
theorem historyAfter_cons (config : Config) (now : Timestamp) {passed : List AnalysisRecord}
    (hroom : (query.beyond passed).length < query.size) (key : String) (keys : List String) :
    historyAfter config now query passed (key :: keys) = .issue (.get key) fun
      | .error fault => .note (historyFailed fault.message) (.done (query.beyond passed))
      | .ok none => .issue (.zrem config.indexKey key) fun
        | .error fault => .note (historyFailed fault.message) (.done (query.beyond passed))
        | .ok _ => historyAfter config now query passed keys
      | .ok (some s) =>
        match AnalysisRecord.decode now s with
        | .error failure => .note (historyFailed failure.message) (.done (query.beyond passed))
        | .ok record =>
          if query.size ≤ (query.beyond (passed ++ [record])).length then
            .done (query.page (passed ++ [record]))
          else historyAfter config now query (passed ++ [record]) keys := by
  rw [historyAfter, historyFrom]
  congr 1
  funext answer
  rcases answer with fault | _ | s
  · rfl
  · rfl
  dsimp only
  cases AnalysisRecord.decode now s with
  | error failure => rfl
  | ok record =>
    dsimp only
    cases haccepts : query.accepts record with
    | false =>
      rw [query.beyond_append_of_rejected passed haccepts, if_neg (Nat.not_le.mpr hroom),
        historyAfter_append_of_rejected config now passed haccepts]
      rfl
    | true =>
      simp only [Bool.not_true, Bool.false_eq_true, if_false]
      by_cases hearly : (passed.filter query.accepts).length < query.offset.toNat
      · have hskipped : ((min (passed.filter query.accepts).length query.offset.toNat : Nat) :
            Int) < query.offset := by omega
        rw [if_pos hskipped, query.beyond_append_of_early record hearly,
          if_neg (Nat.not_le.mpr hroom), historyAfter_append_of_early config now haccepts hearly]
      · have hlate := Nat.le_of_not_lt hearly
        have hskipped : ¬ ((min (passed.filter query.accepts).length query.offset.toNat : Nat) :
            Int) < query.offset := by omega
        rw [if_neg hskipped, query.beyond_append_of_accepted haccepts hlate,
          query.page_append_of_accepted haccepts hlate hroom,
          historyAfter_append_of_accepted config now haccepts hlate]
        simp only [query.limit_le_length_iff]

/-! ## Runs -/

theorem Store.recordsOf_cons_of_lacking {store : Store} {key : String}
    (h : store.texts.get? key = none) (keys : List String) :
    store.recordsOf now (key :: keys) = store.recordsOf now keys := by
  rw [recordsOf, List.filterMap_cons_none, ← recordsOf]
  rw [recordAt?, h, Option.bind_none]

theorem Store.recordsOf_cons_of_decode {store : Store} {key text : String} {record : AnalysisRecord}
    (h : store.texts.get? key = some text) (hdecode : AnalysisRecord.decode now text = .ok record)
    (keys : List String) :
    store.recordsOf now (key :: keys) = record :: store.recordsOf now keys := by
  rw [recordsOf, List.filterMap_cons_some, ← recordsOf]
  rw [recordAt?, h, Option.bind_some, hdecode]
  rfl

omit [Platform] in
theorem Store.prune_cons (store : Store) (key : String) (keys : List String) :
    store.prune config (key :: keys) = (store.eraseScore config.indexKey key).prune config keys :=
  rfl

omit [Platform] in
theorem Store.score_prune (store : Store) (keys : List String) (key : String) :
    ((store.prune config keys).scores config.indexKey).get? key =
      if key ∈ keys then none else (store.scores config.indexKey).get? key := by
  induction keys generalizing store with
  | nil => rfl
  | cons other keys ih =>
    rw [Store.prune_cons, ih, Store.score_eraseScore]
    by_cases hkeys : key ∈ keys
    · rw [if_pos hkeys, if_pos (List.mem_cons_of_mem other hkeys)]
    · by_cases hother : other = key
      · rw [if_neg hkeys, if_pos hother, if_pos (hother ▸ List.mem_cons_self)]
      · have hnot : key ∉ other :: keys := fun hmem =>
          (List.mem_cons.mp hmem).elim (fun he => hother he.symm) hkeys
        rw [if_neg hkeys, if_neg hother, if_neg hnot]

section

variable {before after : Store} {passed found : List AnalysisRecord} {key : String}
  {read rest : List String} {failed : List Command}

/-- A traversal may halt before its first key. -/
theorem Traversal.halt (hroom : (query.beyond passed).length < query.size)
    (hstore : after = before)
    (hhalted : Halted config now query before.texts (query.beyond passed) rest failed) :
    Traversal config now query before passed [] rest (query.beyond passed) failed after where
  found_eq := by
    show query.beyond passed = query.page (passed ++ [])
    rw [List.append_nil, page_eq_beyond (Nat.le_of_lt hroom)]
  legible := fun _ hkey => absurd hkey List.not_mem_nil
  after_eq := hstore
  halted := hhalted

/-- A key without a text is dropped, and the traversal goes on. -/
theorem Traversal.cons_of_lacking (htext : before.texts.get? key = none)
    (h : Traversal config now query (before.eraseScore config.indexKey key) passed read rest found
      failed after) :
    Traversal config now query before passed (key :: read) rest found failed after where
  found_eq := by
    rw [Store.recordsOf_cons_of_lacking htext]
    exact h.found_eq
  legible := by
    have hkey : before.garbled now key = false := by rw [Store.garbled, htext, Option.any_none]
    exact List.forall_mem_cons.mpr ⟨hkey, h.legible⟩
  after_eq := by
    have hlacks : before.lacks key = true := by rw [Store.lacks, htext]; rfl
    rw [List.filter_cons_of_pos hlacks, Store.prune_cons]
    exact h.after_eq
  halted := h.halted

/-- A record is passed, and the traversal goes on. -/
theorem Traversal.cons_of_decode {text : String} {record : AnalysisRecord}
    (htext : before.texts.get? key = some text)
    (hdecode : AnalysisRecord.decode now text = .ok record)
    (h : Traversal config now query before (passed ++ [record]) read rest found failed after) :
    Traversal config now query before passed (key :: read) rest found failed after where
  found_eq := by
    rw [Store.recordsOf_cons_of_decode htext hdecode, h.found_eq, List.append_assoc,
      List.singleton_append]
  legible := by
    have hkey : before.garbled now key = false := by
      rw [Store.garbled, htext, Option.any_some, hdecode]
      rfl
    exact List.forall_mem_cons.mpr ⟨hkey, h.legible⟩
  after_eq := by
    have hlacks : before.lacks key = false := by rw [Store.lacks, htext]; rfl
    rw [List.filter_cons_of_neg (by simp [hlacks])]
    exact h.after_eq
  halted := h.halted

end

/-- **A history answers with the page among the records it passed**, whatever fails, and halts only
where it has to. -/
theorem exists_traversal (config : Config) (now : Timestamp) (schedule : Schedule)
    (keys : List String) {passed : List AnalysisRecord} (server : Server)
    (hroom : (query.beyond passed).length < query.size) :
    ∃ read rest, keys = read ++ rest ∧ Traversal config now query server.store passed read rest
      (server.run schedule (historyAfter config now query passed keys)).1
      (server.failed schedule (historyAfter config now query passed keys))
      (server.run schedule (historyAfter config now query passed keys)).2.2.store := by
  induction keys generalizing passed server with
  | nil => exact ⟨[], [], rfl, .halt hroom rfl .exhausted⟩
  | cons key keys ih =>
    rw [historyAfter_cons config now hroom, Server.run_issue, Server.failed_issue]
    rcases server.take_ok_cases schedule (.get key) rfl with
      ⟨fault, hanswer, hstore⟩ | ⟨hanswer, hstore⟩
    · rw [hanswer]
      exact ⟨[], key :: keys, rfl, .halt hroom hstore .unread⟩
    generalize (server.take schedule (.get key)).2 = asked at hstore ⊢
    rw [hanswer]
    replace hstore : asked.store = server.store := hstore
    cases htext : server.store.texts.get? key with
    | none =>
      dsimp only
      rw [Server.run_issue, Server.failed_issue]
      rcases asked.take_ok_cases schedule (.zrem config.indexKey key) rfl with
        ⟨fault, hanswer, hpruned⟩ | ⟨hanswer, hpruned⟩
      · rw [hanswer]
        exact ⟨[], key :: keys, rfl, .halt hroom (hpruned.trans hstore) (.unpruned htext)⟩
      · generalize (asked.take schedule (.zrem config.indexKey key)).2 = pruned at hpruned ⊢
        replace hpruned : pruned.store = server.store.eraseScore config.indexKey key := by
          rw [hpruned, hstore]
          rfl
        rw [hanswer]
        obtain ⟨read, rest, hsplit, h⟩ := ih pruned hroom
        rw [hpruned] at h
        exact ⟨key :: read, rest, by rw [hsplit, List.cons_append], h.cons_of_lacking htext⟩
    | some text =>
      dsimp only
      cases hdecode : AnalysisRecord.decode now text with
      | error failure =>
        exact ⟨[], key :: keys, rfl,
          .halt hroom hstore (.garbled htext (by rw [hdecode]; rfl))⟩
      | ok record =>
        dsimp only
        split
        · rename_i hfull
          have hpage : Traversal config now query server.store (passed ++ [record]) [] keys
              (query.page (passed ++ [record])) [] asked.store := by
            refine ⟨?_, fun _ hkey => absurd hkey List.not_mem_nil, hstore,
              .full (List.length_take_of_le hfull)⟩
            rw [Store.recordsOf, List.filterMap_nil, List.append_nil]
          exact ⟨[key], keys, rfl, hpage.cons_of_decode htext hdecode⟩
        · rename_i hmore
          obtain ⟨read, rest, hsplit, h⟩ := ih asked (Nat.lt_of_not_le hmore)
          rw [hstore] at h
          exact ⟨key :: read, rest, by rw [hsplit, List.cons_append],
            h.cons_of_decode htext hdecode⟩

/-- A history answers with nothing when it is not given the keys; else it goes through them. -/
theorem run_historyRecords_cases (config : Config) (now : Timestamp) (query : Query)
    (schedule : Schedule) (server : Server) :
    ((server.run schedule (historyRecords config now query)).1 = [] ∧
        server.failed schedule (historyRecords config now query) = [.zrevrange config.indexKey]) ∨
      ∃ read rest, server.store.ranked config.indexKey = read ++ rest ∧
        Traversal config now query server.store [] read rest
          (server.run schedule (historyRecords config now query)).1
          (server.failed schedule (historyRecords config now query))
          (server.run schedule (historyRecords config now query)).2.2.store := by
  rw [historyRecords, Server.run_issue, Server.failed_issue]
  rcases server.take_ok_cases schedule (.zrevrange config.indexKey) rfl with
    ⟨fault, hanswer, -⟩ | ⟨hanswer, hstore⟩
  · rw [hanswer]
    exact .inl ⟨rfl, rfl⟩
  · generalize (server.take schedule (.zrevrange config.indexKey)).2 = listed at hstore ⊢
    replace hstore : listed.store = server.store := hstore
    rw [hanswer, ← hstore]
    dsimp only
    rw [← historyAfter_nil]
    refine .inr (exists_traversal config now schedule (listed.store.ranked config.indexKey)
      listed ?_)
    rw [query.beyond_nil]
    exact query.size_pos

end ContractLens.Cache
