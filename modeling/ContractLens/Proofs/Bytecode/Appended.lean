import ContractLens.Proofs.Bytecode.Coherence
import ContractLens.Proofs.Text.Lowered
/-!
# Appended code

Code in normal form keeps its normal form when something is appended to it
(`exists_normalize_append`), and the functions found in it come first among those found in the whole
(`extract_prefix`). So nothing that is appended hides what the code shows (`shown_append`): counts
only grow, the kind of contract is at least as telling, and an upgradeable contract stays one.
-/

namespace ContractLens

open Text

/-! ## Functions -/

namespace Selector

/-- The first eight characters are the same when something is appended to them. -/
theorem window?_append {code : List Char} (h : 8 ≤ code.length) (rest : List Char) :
    window? (code ++ rest) = window? code := by
  rw [window?, window?, List.take_append_of_le_length h]

/-- What stands in code stands there when something is appended, and comes first. -/
theorem occurrences_prefix (code rest : List Char) :
    occurrences code <+: occurrences (code ++ rest) := by
  by_cases hlength : code.length < 8
  · rw [occurrences_of_short hlength]
    exact List.nil_prefix
  have hwindow := window?_append (Nat.le_of_not_lt hlength) rest
  match code with
  | [] => exact absurd (by decide : 0 < 8) hlength
  | [_] => exact absurd (by decide : 1 < 8) hlength
  | high :: low :: tail =>
    have ih := occurrences_prefix tail rest
    rw [List.cons_append, List.cons_append] at hwindow ⊢
    rw [occurrences, occurrences, hwindow]
    split
    · exact (List.prefix_cons_inj _).mpr ih
    · exact ih

theorem prefix_foldl_firsts (found selectors : List Selector) :
    found <+: selectors.foldl (fun found s =>
      if found.any (·.selector == s.selector) then found else found ++ [s]) found := by
  induction selectors generalizing found with
  | nil => exact List.prefix_rfl
  | cons s selectors ih =>
    rw [List.foldl_cons]
    split
    · exact ih found
    · exact (List.prefix_append found [s]).trans (ih _)

/-- **The functions of code come first among those of the code with anything appended.** -/
theorem extract_prefix (code rest : List Char) : extract code <+: extract (code ++ rest) := by
  obtain ⟨more, hmore⟩ := occurrences_prefix code rest
  rw [extract, extract, ← hmore, firsts, firsts, List.foldl_append]
  exact prefix_foldl_firsts _ more

end Selector

/-! ## Kinds of contract -/

namespace Archetype

/-- The place of a kind, the most telling first. -/
def rank : Archetype → Nat
  | token => 0
  | singleTokens => 1
  | multiToken => 2
  | owned => 3
  | proxy => 4
  | custom => 5

/-- What tells each kind but the last, in their order. -/
def signs : List (List String → Bool) := [
  fun present => Selector.tokenGroup.all present.contains,
  fun present => present.contains Selector.singleTokenOwner &&
    Selector.singleTokenTransfers.any present.contains,
  fun present => present.contains Selector.multiTokenBalance &&
    Selector.multiTokenTransfers.any present.contains,
  fun present => Selector.ownershipGroup.any present.contains,
  fun present => Selector.proxyAdminGroup.any present.contains]

/-- The kind is that of the first sign. -/
theorem rank_ofSelectors (present : List String) :
    (ofSelectors present).rank = signs.findIdx fun sign => sign present := by
  simp only [ofSelectors, signs, List.findIdx_cons, List.findIdx_nil]
  split_ifs with htoken hsingle hmulti howned hproxy <;>
    simp only [*, cond_true, cond_false, rank]

/-- A sign does not go away when there are more functions. -/
theorem sign_of_subset {sign : List String → Bool} (hsign : sign ∈ signs)
    {present more : List String} (h : present ⊆ more) (hpresent : sign present = true) :
    sign more = true := by
  have hcontains : ∀ selector, present.contains selector = true → more.contains selector = true :=
    fun selector hselector => List.contains_iff_mem.mpr (h (List.contains_iff_mem.mp hselector))
  have hany : ∀ group : List String, group.any present.contains = true →
      group.any more.contains = true := fun group hgroup => by
    obtain ⟨selector, hmem, hselector⟩ := List.any_eq_true.mp hgroup
    exact List.any_eq_true.mpr ⟨selector, hmem, hcontains selector hselector⟩
  have hboth : ∀ (selector : String) (group : List String),
      (present.contains selector && group.any present.contains) = true →
        (more.contains selector && group.any more.contains) = true := fun selector group hboth => by
    rw [Bool.and_eq_true] at hboth ⊢
    exact ⟨hcontains _ hboth.1, hany _ hboth.2⟩
  simp only [signs, List.mem_cons, List.not_mem_nil, or_false] at hsign
  rcases hsign with rfl | rfl | rfl | rfl | rfl
  · refine List.all_eq_true.mpr fun selector hselector => hcontains selector ?_
    exact List.all_eq_true.mp hpresent selector hselector
  · exact hboth _ _ hpresent
  · exact hboth _ _ hpresent
  · exact hany _ hpresent
  · exact hany _ hpresent

/-- **With more functions a contract is of a kind at least as telling.** -/
theorem rank_ofSelectors_le {present more : List String} (h : present ⊆ more) :
    (ofSelectors more).rank ≤ (ofSelectors present).rank := by
  rw [rank_ofSelectors, rank_ofSelectors]
  exact List.findIdx_le_findIdx fun sign hsign => sign_of_subset hsign h

end Archetype

/-! ## Normal forms -/

namespace Code

theorem lowered_normalize (code : List Char) : Lowered (normalize code) := by
  have hlowered : Lowered (lower (code.filter fun c => !isBlank c)) :=
    lowered_lowerFrom (fun c hc => by simpa using (List.mem_filter.mp hc).2) false
  rw [normalize]
  cases hdrop : dropStart? ['0', 'x'] (lower (code.filter fun c => !isBlank c)) with
  | none => exact hlowered
  | some rest =>
    rw [dropStart?_eq_some_iff.mp hdrop] at hlowered
    exact fun c hc => hlowered c (List.mem_append_right _ hc)

/-- A lowered text stays as it is when what follows it is brought into normal form with it. -/
theorem exists_lower_append {code : List Char} (h : Lowered code) (rest : List Char) :
    ∃ cased, lower ((code ++ rest).filter fun c => !isBlank c) =
      code ++ lowerFrom cased (rest.filter fun c => !isBlank c) := by
  have hkept : code.filter (fun c => !isBlank c) = code :=
    List.filter_eq_self.mpr fun c hc => by rw [(h c hc).2]; rfl
  rw [List.filter_append, hkept]
  exact exists_lowerFrom_append h false _

theorem lower_of_lowered {code : List Char} (h : Lowered code) :
    lower (code.filter fun c => !isBlank c) = code := by
  obtain ⟨cased, hlower⟩ := exists_lower_append h []
  rw [List.append_nil] at hlower
  exact hlower.trans (List.append_nil code)

/-- Whether the mark stands in front of whole bytes does not depend on what follows them. -/
theorem exists_unmarked_append {code : List Char} (heven : Even code.length) (more : List Char) :
    Even ((dropStart? ['0', 'x'] code).getD code).length ∧
      ∃ rest, (dropStart? ['0', 'x'] (code ++ more)).getD (code ++ more) =
        (dropStart? ['0', 'x'] code).getD code ++ rest := by
  match code, heven with
  | [], heven => exact ⟨heven, _, rfl⟩
  | [_], heven => exact absurd heven Nat.not_even_one
  | first :: second :: tail, heven =>
    have htail : Even tail.length := by simpa [Nat.even_add_one] using heven
    by_cases hmark : first = '0' ∧ second = 'x'
    · obtain ⟨rfl, rfl⟩ := hmark
      exact ⟨htail, more, rfl⟩
    · have hnone : ∀ following, dropStart? ['0', 'x'] (first :: second :: following) = none := by
        intro following
        refine Option.eq_none_iff_forall_ne_some.mpr fun left hleft => hmark ?_
        have htext := dropStart?_eq_some_iff.mp hleft
        simp only [List.cons_append, List.cons.injEq] at htext
        exact ⟨htext.1, htext.2.1⟩
      rw [List.cons_append, List.cons_append, hnone, hnone]
      exact ⟨heven, more, rfl⟩

/-- **A lowered text of whole bytes keeps its normal form**, whatever is appended to it. -/
theorem exists_normalize_append {code : List Char} (h : Lowered code) (heven : Even code.length)
    (rest : List Char) : Even (normalize code).length ∧
      ∃ more, normalize (code ++ rest) = normalize code ++ more := by
  obtain ⟨cased, hlower⟩ := exists_lower_append h rest
  rw [normalize, normalize, hlower, lower_of_lowered h]
  exact exists_unmarked_append heven _

/-! ## What is shown -/

/-- What code shows is still shown when something is appended to it. -/
structure Shown (code rest : List Char) : Prop where
  /-- The counts add up. -/
  counts : ∀ name, Risk.countOf (Opcode.count (code ++ rest)) name =
    Risk.countOf (Opcode.count code) name + Risk.countOf (Opcode.count rest) name
  /-- The functions of the code come first. -/
  selectors : Selector.extract code <+: Selector.extract (code ++ rest)
  /-- The kind of contract is at least as telling. -/
  kind : (Archetype.ofSelectors ((Selector.extract (code ++ rest)).map (·.selector))).rank ≤
    (Archetype.ofSelectors ((Selector.extract code).map (·.selector))).rank
  /-- An upgradeable contract stays one. -/
  upgradeable : isUpgradeable code (Selector.extract code) = true →
    isUpgradeable (code ++ rest) (Selector.extract (code ++ rest)) = true

/-- **Nothing that is appended to code hides what it shows**, where the code is in normal form and
of whole bytes. -/
theorem shown_append {code : List Char} (hnormal : ∃ text, normalize text = code)
    (heven : Even code.length) (rest : List Char) : Shown code rest := by
  have hselectors := Selector.extract_prefix code rest
  refine ⟨Opcode.countOf_count_append heven rest, hselectors, ?_, ?_⟩
  · exact Archetype.rank_ofSelectors_le (hselectors.map _).subset
  · intro hupgradeable
    obtain ⟨text, rfl⟩ := hnormal
    obtain ⟨hwhole, more, hmore⟩ := exists_normalize_append (lowered_normalize text) heven rest
    rw [isUpgradeable_iff] at hupgradeable ⊢
    rw [hmore, Opcode.all_append hwhole]
    rcases hupgradeable with hdelegates | ⟨s, hs, hadmin⟩
    · exact .inl (List.mem_append_left _ hdelegates)
    · exact .inr ⟨s, hselectors.subset hs, hadmin⟩

/-- Code that delegates still does with a text behind it that is no code. -/
theorem shown_append_delegation : Shown "60f4".toList " Xyz".toList :=
  shown_append ⟨"0x60F4".toList, by decide +kernel⟩ (by decide) _

end Code

end ContractLens
