import ContractLens.Proofs.Cache.Unkept
/-!
# The limit of a history

A history looks at its limit when it has found a record. So it stops at its limit where that is one
or more, and else at the first record that it finds (`limited_history`); with a greater limit it
gives the same records first. This is so on every schedule: a fault ends a history earlier, never
later. A limit of none is passed by a single record (`found_beyond_limit`).
-/

namespace ContractLens.Cache

section Limit

variable [Platform] {config : Config}

/-- The same query with a greater limit. -/
def Query.extended (query : Query) (more : Nat) : Query :=
  { query with limit := query.limit + more }

/-- A history with a greater limit starts with what was found so far, and is cut off at the end of
the page. -/
theorem run_historyFrom_extended (config : Config) (now : Timestamp) (query : Query) (more : Nat)
    (schedule : Schedule) (server : Server) (skipped : Int) (found : List AnalysisRecord)
    (keys : List String) :
    let whole := (server.run schedule
      (historyFrom config now (query.extended more) skipped found keys)).1
    found <+: whole ∧ (found.length < query.size →
      (server.run schedule (historyFrom config now query skipped found keys)).1 =
        whole.take query.size) := by
  -- what has been found is the answer wherever both histories end
  have hends : ∀ found : List AnalysisRecord,
      found <+: found ∧ (found.length < query.size → found = found.take query.size) :=
    fun found => ⟨List.prefix_rfl, fun h => (List.take_of_length_le (Nat.le_of_lt h)).symm⟩
  induction keys generalizing server skipped found with
  | nil => exact hends found
  | cons key keys ih =>
    simp only [historyFrom, Server.run_issue]
    generalize (server.take schedule (.get key)).2 = asked
    generalize (server.take schedule (.get key)).1 = answer
    rcases answer with fault | _ | text
    · exact hends found
    · simp only [Server.run_issue]
      generalize (asked.take schedule (.zrem config.indexKey key)).1 = dropped
      cases dropped with
      | error fault => exact hends found
      | ok _ => exact ih _ skipped found
    dsimp only
    cases AnalysisRecord.decode now text with
    | error failure => exact hends found
    | ok record =>
      have haccepts : (query.extended more).accepts record = query.accepts record := rfl
      have hoffset : (query.extended more).offset = query.offset := rfl
      have hlimit : (query.extended more).limit = query.limit + more := rfl
      simp only [haccepts, hoffset, hlimit]
      split
      · exact ih asked skipped found
      split
      · exact ih asked (skipped + 1) found
      obtain ⟨hstart, hcut⟩ := ih asked skipped (found ++ [record])
      have hnext : found <+: found ++ [record] := List.prefix_append found [record]
      have hlength : (found ++ [record]).length = found.length + 1 := List.length_append
      by_cases hfull : query.limit ≤ ((found ++ [record]).length : Nat)
      · -- the page is full: the longer history goes on behind it, if at all
        have hsize := (query.limit_le_length_iff found record).mp hfull
        rw [if_pos hfull]
        split
        · exact ⟨hnext, fun hroom => (List.take_of_length_le (hlength ▸ hroom)).symm⟩
        · refine ⟨hnext.trans hstart, fun hroom => ?_⟩
          have hpage : query.size = (found ++ [record]).length := by omega
          rw [hpage]
          exact List.prefix_iff_eq_take.mp hstart
      · have hroom := Nat.lt_of_not_le (mt (query.limit_le_length_iff found record).mpr hfull)
        rw [if_neg hfull, if_neg (by omega)]
        exact ⟨hnext.trans hstart, fun _ => hcut hroom⟩

/-- A history is what one with a greater limit gives, cut off at the end of the page. -/
theorem run_historyRecords_extended (config : Config) (now : Timestamp) (query : Query)
    (more : Nat) (schedule : Schedule) (server : Server) :
    (server.run schedule (historyRecords config now query)).1 =
      (server.run schedule (historyRecords config now (query.extended more))).1.take
        query.size := by
  simp only [historyRecords, Server.run_issue]
  generalize (server.take schedule (.zrevrange config.indexKey)).1 = listed
  cases listed with
  | error fault => exact List.take_nil.symm
  | ok keys =>
    exact (run_historyFrom_extended config now query more schedule _ 0 [] keys).2 query.size_pos

/-- **A history ends at its limit**, or at the first record where the limit is lower than that,
whatever the store holds and whichever commands fail. What a greater limit adds comes after it. -/
theorem Client.limited_history (config : Config) (schedule : Schedule) (client : Client)
    (now : Timestamp) (query : Query) :
    ((client.answer config schedule (.history now query)).length : Int) ≤ max 1 query.limit ∧
      ∀ more, client.answer config schedule (.history now query) =
        (client.answer config schedule (.history now (query.extended more))).take query.size := by
  have hcut : ∀ more, client.answer config schedule (.history now query) =
      (client.answer config schedule (.history now (query.extended more))).take query.size := by
    intro more
    rw [answer, answer, Call.operation_apply config id, Call.operation_apply config id,
      Server.run_bind, Server.run_bind]
    split
    · rw [Server.run_bind, Server.run_bind]
      exact run_historyRecords_extended config now query more schedule _
    · exact List.take_nil.symm
  refine ⟨?_, hcut⟩
  have hlength : (client.answer config schedule (.history now query)).length ≤ query.size := by
    rw [hcut 0]
    exact List.length_take_le _ _
  rw [Query.size] at hlength
  omega

end Limit

/-- **A limit of none is passed**: the one record that there is comes in a history that may have no
record. -/
theorem found_beyond_limit :
    factoryClient.answer dayConfig .calm (.history .epoch { limit := 0 }) = [factoryRecord] ∧
      ¬ ((factoryClient.answer dayConfig .calm
        (.history .epoch { limit := 0 })).length : Int) ≤ 0 := by
  have hfound : factoryClient.answer dayConfig .calm (.history .epoch { limit := 0 }) =
      [factoryRecord] :=
    Client.answer_history_of_text (by decide) wellFormed_factoryRecord ranked_factoryClient
      text_factoryClient .epoch { limit := 0 }
  refine ⟨hfound, ?_⟩
  rw [hfound]
  decide

end ContractLens.Cache
