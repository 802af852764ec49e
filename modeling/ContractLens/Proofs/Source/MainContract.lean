import ContractLens.Proofs.Text.Keyword
import ContractLens.Source.Parsed
/-!
# Which contract is the main one

The choice goes down a list of rules, and each takes the first contract that it speaks for
(`First`): a name that holds a telling word, then a set of callers that no other is larger than,
then a list of functions that no other is longer than (`Greatest`). A scan that keeps the best
contract so far, and gives it up only for one that is strictly better, finds the first of the
greatest (`leads_firstGreatest`).

`Preferred` lists the rules for several contracts, `Chosen` those for every list, and the main
contract is what they say (`chosen_iff`).
-/

namespace ContractLens

variable {α : Type}

/-! ## The first of the greatest -/

/-- An item is the first of a list with a property. -/
def First (holds : α → Prop) (items : List α) (item : α) : Prop :=
  ∃ before after, items = before ++ item :: after ∧ holds item ∧ ∀ other ∈ before, ¬ holds other

/-- No item of a list has more weight. -/
def Greatest (weight : α → Nat) (items : List α) (item : α) : Prop :=
  ∀ other ∈ items, weight other ≤ weight item

theorem First.mem {holds : α → Prop} {items : List α} {item : α} (h : First holds items item) :
    item ∈ items := by
  obtain ⟨before, after, rfl, -, -⟩ := h
  exact List.mem_append_right before List.mem_cons_self

theorem First.holds {holds : α → Prop} {items : List α} {item : α} (h : First holds items item) :
    holds item := by
  obtain ⟨before, after, -, hitem, -⟩ := h
  exact hitem

/-- Only one item is the first. -/
theorem First.unique {holds : α → Prop} {items : List α} {item other : α}
    (h : First holds items item) (h' : First holds items other) : item = other := by
  obtain ⟨before, after, rfl, hitem, hbefore⟩ := h
  obtain ⟨before', after', hsplit, hother, hbefore'⟩ := h'
  rcases List.append_eq_append_iff.mp hsplit with ⟨more, hmore, hrest⟩ | ⟨more, hmore, hrest⟩
  · cases more with
    | nil => exact (List.cons.inj hrest).1
    | cons next more =>
      have hnext : item = next := (List.cons.inj hrest).1
      exact absurd hitem (hbefore' item (by rw [hmore, hnext]; simp))
  · cases more with
    | nil => exact (List.cons.inj hrest).1.symm
    | cons next more =>
      have hnext : other = next := (List.cons.inj hrest).1
      exact absurd hother (hbefore other (by rw [hmore, hnext]; simp))

theorem first_of_find? {p : α → Bool} {items : List α} {item : α}
    (h : items.find? p = some item) : First (p · = true) items item := by
  obtain ⟨hitem, before, after, hsplit, hbefore⟩ := List.find?_eq_some_iff_append.mp h
  refine ⟨before, after, hsplit, hitem, fun other hother hp => ?_⟩
  have hnot := hbefore other hother
  rw [hp] at hnot
  cases hnot

/-- All earlier items of the list weigh less than an item, and no later one weighs more. -/
def Leads (weight : α → Nat) (items : List α) (item : α) : Prop :=
  ∃ before after, items = before ++ item :: after ∧ (∀ other ∈ before, weight other < weight item) ∧
    ∀ other ∈ after, weight other ≤ weight item

variable {weight : α → Nat} {items : List α} {item : α}

theorem Leads.greatest (h : Leads weight items item) : Greatest weight items item := by
  obtain ⟨before, after, rfl, hbefore, hafter⟩ := h
  intro other hother
  rcases List.mem_append.mp hother with hother | hother
  · exact Nat.le_of_lt (hbefore other hother)
  · rcases List.mem_cons.mp hother with rfl | hother
    · exact Nat.le_refl _
    · exact hafter other hother

theorem Leads.first (h : Leads weight items item) : First (Greatest weight items) items item := by
  have hgreatest := h.greatest
  obtain ⟨before, after, hsplit, hbefore, -⟩ := h
  refine ⟨before, after, hsplit, hgreatest, fun other hother hall => ?_⟩
  exact Nat.not_le_of_lt (hbefore other hother) (hall item (by rw [hsplit]; simp))

/-- An item in front that weighs less changes nothing. -/
theorem Leads.cons_of_lt {best : α} (h : Leads weight items item)
    (hlt : weight best < weight item) : Leads weight (best :: items) item := by
  obtain ⟨before, after, rfl, hbefore, hafter⟩ := h
  exact ⟨best :: before, after, rfl, List.forall_mem_cons.mpr ⟨hlt, hbefore⟩, hafter⟩

/-- Nor does an item right behind one that weighs no less. -/
theorem Leads.cons_cons_of_le {best next : α} (h : Leads weight (best :: items) item)
    (hle : weight next ≤ weight best) : Leads weight (best :: next :: items) item := by
  obtain ⟨before, after, hsplit, hbefore, hafter⟩ := h
  cases before with
  | nil =>
    obtain ⟨rfl, rfl⟩ := List.cons.inj hsplit
    exact ⟨[], next :: items, rfl, by simp, List.forall_mem_cons.mpr ⟨hle, hafter⟩⟩
  | cons first before =>
    obtain ⟨rfl, rfl⟩ := List.cons.inj hsplit
    obtain ⟨hbest, hrest⟩ := List.forall_mem_cons.mp hbefore
    refine ⟨best :: next :: before, after, rfl, ?_, hafter⟩
    exact List.forall_mem_cons.mpr ⟨hbest, List.forall_mem_cons.mpr
      ⟨Nat.lt_of_le_of_lt hle hbest, hrest⟩⟩

/-- **The scan finds the first of the greatest.** -/
theorem leads_firstGreatest (weight : α → Nat) (best : α) (items : List α) :
    Leads weight (best :: items) (firstGreatest weight best items) := by
  induction items generalizing best with
  | nil => exact ⟨[], [], rfl, by simp, by simp⟩
  | cons item items ih =>
    rw [firstGreatest]
    split
    case isTrue hlt =>
      have hitem := (ih item).greatest item List.mem_cons_self
      exact (ih item).cons_of_lt (Nat.lt_of_lt_of_le hlt hitem)
    case isFalse hle => exact (ih best).cons_cons_of_le (Nat.le_of_not_lt hle)

/-! ## The rules -/

/-- A name that holds one of the telling words, in any case. -/
def HoldsMainKeyword (name : String) : Prop :=
  ∃ word ∈ mainKeywords, word.toList <:+: Text.lower name.toList

/-- The contracts that create a contract; one without a place in the call graph has none. -/
def callers (graph : CallGraph) (contract : Contract) : NameSet :=
  match Table.get? graph contract.name with
  | some node => node.calledBy
  | none => ∅

/-- Some contract creates it. -/
def Called (graph : CallGraph) (contract : Contract) : Prop :=
  ∃ caller, caller ∈ callers graph contract

/-- **The rules for several contracts**: the first that speaks for any contract decides. -/
inductive Preferred (contracts : List Contract) (graph : CallGraph) (contract : Contract) : Prop
  /-- The first with a telling name. -/
  | named : First (HoldsMainKeyword ·.name) contracts contract →
      Preferred contracts graph contract
  /-- Else, if any is created by another, the first that no other is created by more than. -/
  | called : (∀ other ∈ contracts, ¬ HoldsMainKeyword other.name) →
      (∃ other ∈ contracts, Called graph other) →
      First (Greatest (fun other => (callers graph other).size) contracts) contracts contract →
      Preferred contracts graph contract
  /-- Else the first that no other has more functions than. -/
  | largest : (∀ other ∈ contracts, ¬ HoldsMainKeyword other.name) →
      (∀ other ∈ contracts, ¬ Called graph other) →
      First (Greatest (fun other => other.functions.length) contracts) contracts contract →
      Preferred contracts graph contract

/-- The name that the rules give to a list of contracts: none if it is empty, the only one if there
is one, else that of the contract they prefer. -/
def Chosen (contracts : List Contract) (graph : CallGraph) (name : Option String) : Prop :=
  match contracts with
  | [] => name = none
  | [only] => name = some only.name
  | first :: second :: rest =>
    ∃ contract, Preferred (first :: second :: rest) graph contract ∧ name = some contract.name

theorem hasMainKeyword_iff (name : String) :
    hasMainKeyword name = true ↔ HoldsMainKeyword name := by
  simp only [hasMainKeyword, HoldsMainKeyword, List.any_eq_true, Text.contains_iff]

theorem references_eq (graph : CallGraph) (contract : Contract) :
    references graph contract = (callers graph contract).size := by
  rw [references, callers]
  cases Table.get? graph contract.name <;> rfl

theorem called_iff (graph : CallGraph) (contract : Contract) :
    Called graph contract ↔ 0 < (callers graph contract).size := by
  rw [NameSet.size, List.length_pos_iff_exists_mem]
  rfl

variable {contracts : List Contract} {graph : CallGraph}

/-- The rules prefer one contract only. -/
theorem Preferred.unique {contract other : Contract} (h : Preferred contracts graph contract)
    (h' : Preferred contracts graph other) : contract = other := by
  cases h with
  | named hfirst =>
    cases h' with
    | named hfirst' => exact hfirst.unique hfirst'
    | called hnames => exact absurd hfirst.holds (hnames contract hfirst.mem)
    | largest hnames => exact absurd hfirst.holds (hnames contract hfirst.mem)
  | called hnames hcalled hfirst =>
    cases h' with
    | named hfirst' => exact absurd hfirst'.holds (hnames other hfirst'.mem)
    | called _ _ hfirst' => exact hfirst.unique hfirst'
    | largest _ hnone =>
      obtain ⟨created, hmem, hcalled⟩ := hcalled
      exact absurd hcalled (hnone created hmem)
  | largest hnames hnone hfirst =>
    cases h' with
    | named hfirst' => exact absurd hfirst'.holds (hnames other hfirst'.mem)
    | called _ hcalled =>
      obtain ⟨created, hmem, hcalled⟩ := hcalled
      exact absurd hcalled (hnone created hmem)
    | largest _ _ hfirst' => exact hfirst.unique hfirst'

/-- Of several contracts the main one is the one that the rules prefer. -/
theorem exists_preferred (first second : Contract) (rest : List Contract) (graph : CallGraph) :
    ∃ contract, Preferred (first :: second :: rest) graph contract ∧
      mainContract? (first :: second :: rest) graph = some contract.name := by
  unfold mainContract?
  dsimp only
  split
  case h_1 contract hfound =>
    have hfirst := first_of_find? hfound
    simp only [hasMainKeyword_iff] at hfirst
    exact ⟨contract, .named hfirst, rfl⟩
  case h_2 hnone =>
    have hnames : ∀ other ∈ first :: second :: rest, ¬ HoldsMainKeyword other.name := by
      intro other hother hholds
      exact List.find?_eq_none.mp hnone other hother ((hasMainKeyword_iff other.name).mpr hholds)
    have hmost := leads_firstGreatest (references graph) first (second :: rest)
    have hreferences : references graph = fun other => (callers graph other).size :=
      funext (references_eq graph)
    generalize firstGreatest (references graph) first (second :: rest) = referenced at hmost ⊢
    rw [hreferences] at hmost ⊢
    split
    case isTrue hpos =>
      have hcalled : Called graph referenced := (called_iff graph referenced).mpr hpos
      exact ⟨_, .called hnames ⟨_, hmost.first.mem, hcalled⟩ hmost.first, rfl⟩
    case isFalse hzero =>
      -- the greatest of all counts of callers is zero
      have hnone : ∀ other ∈ first :: second :: rest, ¬ Called graph other := by
        intro other hother hcalled
        have hpos := (called_iff graph other).mp hcalled
        exact hzero (Nat.lt_of_lt_of_le hpos (hmost.greatest other hother))
      exact ⟨_, .largest hnames hnone (leads_firstGreatest _ first (second :: rest)).first, rfl⟩

theorem chosen_iff (contracts : List Contract) (graph : CallGraph) (name : Option String) :
    Chosen contracts graph name ↔ mainContract? contracts graph = name := by
  match contracts with
  | [] => exact eq_comm
  | [only] => exact eq_comm
  | first :: second :: rest =>
    obtain ⟨contract, hpreferred, hmain⟩ := exists_preferred first second rest graph
    constructor
    · rintro ⟨other, hother, rfl⟩
      rw [hmain, hother.unique hpreferred]
    · rintro rfl
      exact ⟨contract, hpreferred, hmain⟩

theorem Preferred.mem {contract : Contract} (h : Preferred contracts graph contract) :
    contract ∈ contracts := by
  cases h with
  | named hfirst => exact hfirst.mem
  | called _ _ hfirst => exact hfirst.mem
  | largest _ _ hfirst => exact hfirst.mem

/-- A name is that of a contract of the list, and there is none only for the empty list. -/
def OneOf (contracts : List Contract) : Option String → Prop
  | some name => ∃ contract ∈ contracts, contract.name = name
  | none => contracts = []

theorem Chosen.oneOf {name : Option String} (h : Chosen contracts graph name) :
    OneOf contracts name := by
  match contracts with
  | [] =>
    cases h
    rfl
  | [only] =>
    cases h
    exact ⟨only, List.mem_cons_self, rfl⟩
  | first :: second :: rest =>
    obtain ⟨contract, hpreferred, rfl⟩ := h
    exact ⟨contract, hpreferred.mem, rfl⟩

/-- **The main contract is what the rules choose**, for every list of contracts and every call
graph; and that of a source set is one of its contracts. -/
theorem chosen_mainContract :
    (∀ contracts graph name, mainContract? contracts graph = name ↔ Chosen contracts graph name) ∧
      ∀ files, OneOf (ParsedSources.ofFiles files).contracts
        (ParsedSources.ofFiles files).mainContract := by
  refine ⟨fun contracts graph name => (chosen_iff contracts graph name).symm, fun files => ?_⟩
  have hchosen := (chosen_iff (ParsedSources.ofFiles files).contracts
    (ParsedSources.ofFiles files).callGraph _).mpr rfl
  exact hchosen.oneOf

end ContractLens
