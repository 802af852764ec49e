import ContractLens.Bytecode.Risk
import ContractLens.Proofs.Number.NumberText
import ContractLens.Proofs.Table
import Mathlib.Data.List.Basic
/-!
# Findings on deployed code

A signal that is given has one finding, a signal that is not has none, and a finding is told by its
words from those of the other signals (`voices_of_finding?`). So an assessment counts signals
(`countsSignals_assess`): how often an instruction occurs is not counted, and the two thresholds for
self-destruction choose the words of its finding only. The words may name the count, and there is no
assessment when it is too long to be written (`assess_of_not_written`).
-/

namespace ContractLens

theorem Severity.ofCount_cases (n : Nat) :
    (n ≤ 1 → Severity.ofCount n = .low) ∧ (n = 2 → Severity.ofCount n = .medium) ∧
      (3 ≤ n → Severity.ofCount n = .high) ∧ Severity.ofCount n ≠ .critical := by
  rw [Severity.ofCount]
  split
  · exact ⟨by omega, by omega, fun _ => rfl, nofun⟩
  split
  · rename_i htwo
    have htwo : n = 2 := Int.ofNat_inj.mp (beq_iff_eq.mp htwo)
    exact ⟨by omega, fun _ => rfl, by omega, nofun⟩
  · rename_i htwo
    have htwo : n ≠ 2 := fun h => htwo (beq_iff_eq.mpr (congrArg Int.ofNat h))
    exact ⟨fun _ => rfl, fun h => absurd h htwo, by omega, nofun⟩

namespace Risk

/-- What code can be a sign of. -/
inductive Signal where
  /-- The contract can destroy itself. -/
  | destruction
  /-- The contract runs the code of another in its own place. -/
  | delegation
  /-- The contract can make others. -/
  | creation
  /-- The contract calls others and writes to its storage. -/
  | reentrancy
  /-- The contract has many functions and none that controls access. -/
  | openAccess
  deriving DecidableEq

namespace Signal

/-- The signals in the order of their findings. -/
def all : List Signal := [destruction, delegation, creation, reentrancy, openAccess]

/-- What the findings of a signal start with. -/
def openings : Signal → List String
  | destruction => ["CRITICAL: Excessive SELFDESTRUCT opcodes (",
      "HIGH: Multiple SELFDESTRUCT opcodes (", "Contract can self-destruct"]
  | delegation => ["Contract uses delegatecall - potential proxy pattern"]
  | creation => ["Contract can create new contracts"]
  | reentrancy => ["Potential reentrancy vulnerability"]
  | openAccess => ["No apparent access control mechanisms"]

/-- Whether a text is a finding of a signal. -/
def voices (s : Signal) (risk : String) : Bool :=
  s.openings.any fun opening => opening.toList.isPrefixOf risk.toList

/-- Whether the counts and the functions of a code give a signal. -/
def Given (thresholds : Thresholds) (counts : Table Int) (selectors : List Selector) :
    Signal → Prop
  | destruction => 0 < countOf counts "SELFDESTRUCT"
  | delegation => 0 < countOf counts "DELEGATECALL"
  | creation => 0 < countOf counts "CREATE" ∨ 0 < countOf counts "CREATE2"
  | reentrancy => 0 < countOf counts "CALL" ∧ 0 < countOf counts "SSTORE"
  | openAccess => thresholds.accessControlFunctions < selectors.length ∧
      ∀ s ∈ selectors, s.selector ∉ Selector.accessControlGroup

/-- The finding that a signal has in an assessment. -/
def finding? (thresholds : Thresholds) (counts : Table Int) (selectors : List Selector) :
    Signal → Option Finding
  | destruction => selfDestruction thresholds (countOf counts "SELFDESTRUCT")
  | delegation => signal (counted counts "DELEGATECALL")
      ⟨"Contract uses delegatecall - potential proxy pattern",
        "Verify delegatecall usage is secure"⟩
  | creation => signal (counted counts "CREATE" || counted counts "CREATE2")
      ⟨"Contract can create new contracts", "Verify contract creation logic"⟩
  | reentrancy => signal (counted counts "CALL" && counted counts "SSTORE")
      ⟨"Potential reentrancy vulnerability", "Implement reentrancy guards"⟩
  | openAccess =>
      signal (thresholds.accessControlFunctions < selectors.length && !controlsAccess selectors)
        ⟨"No apparent access control mechanisms", "Add access control to privileged functions"⟩

end Signal

variable {thresholds : Thresholds} {counts : Table Int} {selectors : List Selector}

/-- The risks are those of the findings of the signals, in order. -/
theorem risks_eq (thresholds : Thresholds) (counts : Table Int) (selectors : List Selector) :
    (rate thresholds counts selectors).risks =
      (Signal.all.filterMap (Signal.finding? thresholds counts selectors)).map (·.risk) :=
  rfl

theorem Signal.mem_all (s : Signal) : s ∈ all := by
  cases s <;> decide

theorem mem_risks_iff {risk : String} :
    risk ∈ (rate thresholds counts selectors).risks ↔
      ∃ s : Signal, ∃ found ∈ s.finding? thresholds counts selectors, found.risk = risk := by
  rw [risks_eq, List.mem_map]
  constructor
  · rintro ⟨found, hfound, rfl⟩
    obtain ⟨s, -, hs⟩ := List.mem_filterMap.mp hfound
    exact ⟨s, found, hs, rfl⟩
  · rintro ⟨s, found, hs, rfl⟩
    exact ⟨found, List.mem_filterMap.mpr ⟨s, s.mem_all, hs⟩, rfl⟩

/-- There are as many findings as signals that have one. -/
theorem length_risks (thresholds : Thresholds) (counts : Table Int) (selectors : List Selector) :
    (rate thresholds counts selectors).risks.length =
      Signal.all.countP fun s => (s.finding? thresholds counts selectors).isSome := by
  rw [risks_eq, List.length_map, List.length_filterMap_eq_countP]

/-! ## Words -/

theorem eq_of_mem_signal {present : Bool} {finding found : Finding}
    (h : found ∈ signal present finding) : found = finding := by
  rw [signal] at h
  split at h
  · exact (Option.mem_some_iff.mp h).symm
  · cases h

/-- A finding starts with an opening of its signal. -/
theorem exists_opening {s : Signal} {found : Finding}
    (h : found ∈ s.finding? thresholds counts selectors) :
    ∃ opening ∈ s.openings, opening.toList <+: found.risk.toList := by
  cases s with
  | destruction =>
    have hnumbered : ∀ opening number tail : String,
        opening.toList <+: (opening ++ number ++ tail).toList := by
      intro opening number tail
      rw [String.toList_append, String.toList_append, List.append_assoc]
      exact List.prefix_append _ _
    rw [Signal.finding?, selfDestruction] at h
    split at h
    · cases h
      exact ⟨_, List.mem_cons_self, hnumbered _ _ _⟩
    split at h
    · cases h
      exact ⟨_, List.mem_cons_of_mem _ List.mem_cons_self, hnumbered _ _ _⟩
    split at h
    · cases h
      exact ⟨_, List.mem_cons_of_mem _ (List.mem_cons_of_mem _ List.mem_cons_self),
        List.prefix_rfl⟩
    · cases h
  | _ =>
    rw [eq_of_mem_signal h]
    exact ⟨_, List.mem_cons_self, List.prefix_rfl⟩

/-- No opening of a signal is the beginning of an opening of another. -/
theorem Signal.openings_apart {s t : Signal} (h : s ≠ t) :
    ∀ opening ∈ s.openings, ∀ other ∈ t.openings, ¬ opening.toList <+: other.toList := by
  have hall : ∀ s ∈ all, ∀ t ∈ all, s ≠ t → ∀ opening ∈ s.openings, ∀ other ∈ t.openings,
      ¬ opening.toList <+: other.toList := by
    decide +kernel
  exact hall s s.mem_all t t.mem_all h

/-- **A finding is told by its words from those of the other signals.** -/
theorem voices_of_finding? {s : Signal} {found : Finding}
    (h : found ∈ s.finding? thresholds counts selectors) (t : Signal) :
    t.voices found.risk = (s == t) := by
  obtain ⟨opening, hopening, hstarts⟩ := exists_opening h
  by_cases hst : s = t
  · subst hst
    rw [beq_self_eq_true]
    exact List.any_eq_true.mpr ⟨opening, hopening, List.isPrefixOf_iff_prefix.mpr hstarts⟩
  · rw [beq_eq_false_iff_ne.mpr hst]
    refine List.any_eq_false.mpr fun other hother hvoiced => ?_
    -- of two beginnings of one text the shorter is the beginning of the other
    rcases List.prefix_or_prefix_of_prefix hstarts (List.isPrefixOf_iff_prefix.mp hvoiced)
      with hshorter | hlonger
    · exact Signal.openings_apart hst opening hopening other hother hshorter
    · exact Signal.openings_apart (Ne.symm hst) other hother opening hopening hlonger

/-! ## Counting signals -/

/-- How many of the findings are of a signal. -/
def contribution (s : Signal) (risks : List String) : Nat := risks.countP s.voices

theorem Signal.count_all (s : Signal) : all.count s = 1 := by
  cases s <;> rfl

/-- **A signal contributes its own finding and no other.** -/
theorem contribution_rate (s : Signal) :
    contribution s (rate thresholds counts selectors).risks =
      if (s.finding? thresholds counts selectors).isSome then 1 else 0 := by
  have hvoices : ∀ t ∈ Signal.all,
      ((t.finding? thresholds counts selectors).map (s.voices ∘ (·.risk))).getD false = true ↔
        (t == s && (s.finding? thresholds counts selectors).isSome) = true := by
    intro t _
    rw [Bool.and_eq_true, beq_iff_eq]
    constructor
    · intro h
      cases hfound : t.finding? thresholds counts selectors with
      | none =>
        rw [hfound] at h
        cases h
      | some found =>
        rw [hfound] at h
        have hts : t = s := beq_iff_eq.mp ((voices_of_finding? hfound s).symm.trans h)
        exact ⟨hts, by rw [← hts, hfound]; rfl⟩
    · rintro ⟨rfl, hsome⟩
      obtain ⟨found, hfound⟩ := Option.isSome_iff_exists.mp hsome
      rw [hfound]
      exact (voices_of_finding? hfound t).trans (beq_self_eq_true t)
  rw [contribution, risks_eq, List.countP_map, List.countP_filterMap, List.countP_congr hvoices]
  cases (s.finding? thresholds counts selectors).isSome with
  | true => simpa [List.count] using Signal.count_all s
  | false => simp

/-! ## Which signals are given -/

theorem isSome_signal {present : Bool} {finding : Finding} :
    (signal present finding).isSome = present := by
  cases present <;> rfl

theorem isSome_selfDestruction {count : Int} :
    (selfDestruction thresholds count).isSome = true ↔
      thresholds.selfDestructCritical < count ∨ thresholds.selfDestructHigh < count ∨
        count ≠ 0 := by
  rw [selfDestruction]
  split_ifs with hcritical hhigh hcount <;> simp_all

theorem countOf_nonneg (hcounts : ∀ entry ∈ counts, 0 ≤ entry.2) (name : String) :
    0 ≤ countOf counts name := by
  rw [countOf]
  cases hvalue : Table.get? counts name with
  | none => exact Int.le_refl 0
  | some value => exact hcounts _ (Table.mem_of_get?_eq_some hvalue)

theorem counted_iff (hcounts : ∀ entry ∈ counts, 0 ≤ entry.2) {name : String} :
    counted counts name = true ↔ 0 < countOf counts name := by
  have := countOf_nonneg hcounts name
  rw [counted, bne_iff_ne]
  omega

theorem controlsAccess_eq_false_iff :
    controlsAccess selectors = false ↔
      ∀ s ∈ selectors, s.selector ∉ Selector.accessControlGroup := by
  rw [controlsAccess, List.any_eq_false]
  simp only [List.contains_iff_mem]

/-- **A signal other than self-destruction has a finding where it is given.** -/
theorem isSome_finding?_iff (hcounts : ∀ entry ∈ counts, 0 ≤ entry.2) {s : Signal}
    (hs : s ≠ .destruction) :
    (s.finding? thresholds counts selectors).isSome = true ↔
      s.Given thresholds counts selectors := by
  cases s with
  | destruction => exact absurd rfl hs
  | delegation => rw [Signal.finding?, isSome_signal, counted_iff hcounts, Signal.Given]
  | creation =>
    rw [Signal.finding?, isSome_signal, Bool.or_eq_true, counted_iff hcounts,
      counted_iff hcounts, Signal.Given]
  | reentrancy =>
    rw [Signal.finding?, isSome_signal, Bool.and_eq_true, counted_iff hcounts,
      counted_iff hcounts, Signal.Given]
  | openAccess =>
    rw [Signal.finding?, isSome_signal, Bool.and_eq_true, decide_eq_true_eq, Bool.not_eq_true',
      controlsAccess_eq_false_iff, Signal.Given]

/-- Self-destruction has a finding where it is counted, whatever the thresholds. -/
theorem isSome_destruction (h : 0 < countOf counts "SELFDESTRUCT") :
    (Signal.destruction.finding? thresholds counts selectors).isSome = true :=
  isSome_selfDestruction.mpr (.inr (.inr (by omega)))

/-- Where the thresholds are not below zero, that is the only place. -/
theorem isSome_destruction_iff (hcounts : ∀ entry ∈ counts, 0 ≤ entry.2)
    (hhigh : 0 ≤ thresholds.selfDestructHigh) (hcritical : 0 ≤ thresholds.selfDestructCritical) :
    (Signal.destruction.finding? thresholds counts selectors).isSome = true ↔
      0 < countOf counts "SELFDESTRUCT" := by
  have hcount := countOf_nonneg hcounts "SELFDESTRUCT"
  rw [Signal.finding?, isSome_selfDestruction]
  omega

/-! ## Assessments -/

/-- An assessment that counts signals. -/
structure CountsSignals (thresholds : Thresholds) (counts : Table Int)
    (selectors : List Selector) (r : RiskAssessment) : Prop where
  /-- Each finding has its recommendation. -/
  paired : r.risks.length = r.recommendations.length
  /-- There are at most as many findings as signals. -/
  atMost : r.risks.length ≤ 5
  /-- Each finding is one of a single signal. -/
  told : ∀ risk ∈ r.risks, ∃! s : Signal, s.voices risk = true
  /-- A signal that is given contributes one finding, self-destruction under any thresholds. -/
  given : ∀ s : Signal, s.Given thresholds counts selectors → contribution s r.risks = 1
  /-- A signal that is not given contributes none; self-destruction only where neither threshold is
  below zero. -/
  not_given : ∀ s : Signal, ¬ s.Given thresholds counts selectors →
    (s = .destruction → 0 ≤ thresholds.selfDestructHigh ∧ 0 ≤ thresholds.selfDestructCritical) →
      contribution s r.risks = 0
  /-- At most one finding is of low severity. -/
  low : r.risks.length ≤ 1 → r.severity = .low
  /-- Two findings are of medium severity. -/
  medium : r.risks.length = 2 → r.severity = .medium
  /-- Three findings or more are of high severity. -/
  high : 3 ≤ r.risks.length → r.severity = .high
  /-- No count of findings is critical. -/
  not_critical : r.severity ≠ .critical

theorem severity_rate (thresholds : Thresholds) (counts : Table Int)
    (selectors : List Selector) : (rate thresholds counts selectors).severity =
      .ofCount (rate thresholds counts selectors).risks.length := by
  rw [rate, List.length_map]

theorem countsSignals (thresholds : Thresholds) (selectors : List Selector)
    (hcounts : ∀ entry ∈ counts, 0 ≤ entry.2) :
    CountsSignals thresholds counts selectors (rate thresholds counts selectors) := by
  obtain ⟨hlow, hmedium, hhigh, hcritical⟩ :=
    Severity.ofCount_cases (rate thresholds counts selectors).risks.length
  rw [← severity_rate] at hlow hmedium hhigh hcritical
  refine ⟨?paired, ?atMost, ?told, ?given, ?not_given, hlow, hmedium, hhigh, hcritical⟩
  case paired => rw [rate, List.length_map, List.length_map]
  case atMost =>
    rw [length_risks]
    exact List.countP_le_length
  case told =>
    intro risk hrisk
    obtain ⟨s, found, hfound, rfl⟩ := mem_risks_iff.mp hrisk
    refine ⟨s, (voices_of_finding? hfound s).trans (beq_self_eq_true s), fun t ht => ?_⟩
    exact (beq_iff_eq.mp ((voices_of_finding? hfound t).symm.trans ht)).symm
  case given =>
    intro s hs
    rw [contribution_rate, if_pos]
    by_cases hdestruction : s = .destruction
    · subst hdestruction
      exact isSome_destruction hs
    · exact (isSome_finding?_iff hcounts hdestruction).mpr hs
  case not_given =>
    intro s hs hthresholds
    rw [contribution_rate, if_neg]
    by_cases hdestruction : s = .destruction
    · subst hdestruction
      obtain ⟨hhigh, hcritical⟩ := hthresholds rfl
      exact mt (isSome_destruction_iff hcounts hhigh hcritical).mp hs
    · exact mt (isSome_finding?_iff hcounts hdestruction).mp hs

/-- Thresholds for self-destruction that are not below zero do not matter for how many findings
there are. -/
theorem length_risks_congr {other : Thresholds} (hcounts : ∀ entry ∈ counts, 0 ≤ entry.2)
    (hhigh : 0 ≤ thresholds.selfDestructHigh) (hcritical : 0 ≤ thresholds.selfDestructCritical)
    (hhigh' : 0 ≤ other.selfDestructHigh) (hcritical' : 0 ≤ other.selfDestructCritical)
    (haccess : other.accessControlFunctions = thresholds.accessControlFunctions) :
    (rate other counts selectors).risks.length =
      (rate thresholds counts selectors).risks.length := by
  rw [length_risks, length_risks]
  refine List.countP_congr fun s _ => ?_
  cases s with
  | destruction =>
    rw [isSome_destruction_iff hcounts hhigh hcritical,
      isSome_destruction_iff hcounts hhigh' hcritical']
  | openAccess => rw [Signal.finding?, Signal.finding?, haccess]
  | _ => exact Iff.rfl

/-! ## Counts that can be written -/

/-- The count that the finding on self-destruction names, if it names one, can be written. -/
def Written (thresholds : Thresholds) (counts : Table Int) : Prop :=
  ∀ count ∈ named? thresholds counts, Json.Short count

theorem written_of_short (thresholds : Thresholds)
    (h : Json.Short (countOf counts "SELFDESTRUCT")) : Written thresholds counts := by
  intro count hcount
  rw [named?] at hcount
  split at hcount
  · cases hcount
    exact h
  · cases hcount

/-- Such a count leaves the assessment to the findings. -/
theorem assess_of_written (h : Written thresholds counts) :
    assess thresholds counts selectors = .ok (rate thresholds counts selectors) := by
  rw [assess]
  cases hnamed : named? thresholds counts with
  | none => rfl
  | some count => rw [Option.map_some, numberText_of_short (h count hnamed)]

/-- Without, there is no assessment. -/
theorem assess_of_not_written (h : ¬ Written thresholds counts) :
    assess thresholds counts selectors = .error .overlong := by
  obtain ⟨count, hnamed, hlong⟩ : ∃ count, named? thresholds counts = some count ∧
      ¬ Json.Short count := by
    simpa [Written] using h
  rw [assess, hnamed, Option.map_some, numberText_of_not_short hlong]

/-- **An assessment counts signals**, not occurrences: each that is given has one finding and the
others have none, and the number of findings decides the severity. So thresholds for
self-destruction, as long as they are not below zero, change neither. There is an assessment unless
a finding names a count that is too long to be written. -/
theorem countsSignals_assess (thresholds : Thresholds) (selectors : List Selector)
    (hcounts : ∀ entry ∈ counts, 0 ≤ entry.2) (hwritten : Written thresholds counts) :
    ∃ r, assess thresholds counts selectors = .ok r ∧
      CountsSignals thresholds counts selectors r ∧
      ∀ other : Thresholds, other.accessControlFunctions = thresholds.accessControlFunctions →
        0 ≤ thresholds.selfDestructHigh → 0 ≤ thresholds.selfDestructCritical →
        0 ≤ other.selfDestructHigh → 0 ≤ other.selfDestructCritical → Written other counts →
          ∃ r', assess other counts selectors = .ok r' ∧ r'.risks.length = r.risks.length ∧
            r'.severity = r.severity := by
  refine ⟨_, assess_of_written hwritten, countsSignals thresholds selectors hcounts,
    fun other haccess hhigh hcritical hhigh' hcritical' hother =>
      ⟨_, assess_of_written hother, ?_⟩⟩
  have hlength : (rate other counts selectors).risks.length =
      (rate thresholds counts selectors).risks.length :=
    length_risks_congr hcounts hhigh hcritical hhigh' hcritical' haccess
  exact ⟨hlength, by rw [severity_rate, severity_rate, hlength]⟩

/-- Counts of a contract that destroys itself, calls others and writes to its storage. -/
def drainCounts : Table Int := [("CALL", 7), ("SSTORE", 2), ("SELFDESTRUCT", 3)]

/-- Thresholds of which the one for excess lies below the other, and below zero. -/
def invertedThresholds : Thresholds := { selfDestructHigh := 20, selfDestructCritical := -1 }

/-- The contract has two findings under such thresholds. -/
theorem countsSignals_assess_drain :
    (∀ entry ∈ drainCounts, 0 ≤ entry.2) ∧ Written invertedThresholds drainCounts ∧
      ∃ r, assess invertedThresholds drainCounts [] = .ok r ∧
        CountsSignals invertedThresholds drainCounts [] r := by
  have hcounts : ∀ entry ∈ drainCounts, 0 ≤ entry.2 := by decide
  have hwritten : Written invertedThresholds drainCounts := written_of_short _ (by decide)
  obtain ⟨r, hr, hsignals, -⟩ := countsSignals_assess invertedThresholds [] hcounts hwritten
  exact ⟨hcounts, hwritten, r, hr, hsignals⟩

/-- Counts of a contract that can destroy itself in more places than can be written. -/
def endlessCounts : Table Int := [("SELFDESTRUCT", endless)]

/-- **Too many self-destructions have no assessment.** -/
theorem assess_endlessCounts :
    (∀ entry ∈ endlessCounts, 0 ≤ entry.2) ∧
      assess {} endlessCounts [] = .error .overlong := by
  have hpos : (100 : Int) < endless := by decide +kernel
  have hnonneg : 0 ≤ endless := Int.le_of_lt (Int.lt_trans (by decide) hpos)
  refine ⟨List.forall_mem_singleton.mpr hnonneg, assess_of_not_written fun h => ?_⟩
  have hnamed : named? {} endlessCounts = some endless := if_pos (.inl hpos)
  exact not_short_endless (h endless hnamed)

end Risk

end ContractLens
