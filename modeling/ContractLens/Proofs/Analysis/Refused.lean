import ContractLens.Analysis.Lookup
import ContractLens.Proofs.Fetch.Address
/-!
# Texts that are no address

A text is taken for an address if it is the mark and forty digits, or that and the end of a line
(`isValid_iff_exact`). Every other text is refused where it comes in: an attempt to fetch it, and a
call to analyse it, end with the same failure and leave everything as it was (`screened`). The end
of a line is no part of an address, and is let through all the same (`validate_endedAddress`).
-/

namespace ContractLens.Address

/-- The digits of base sixteen. -/
def hexDigits : List Char := "0123456789abcdefABCDEF".toList

/-- An address as it should be: the mark, and forty digits of base sixteen. -/
def Exact (s : String) : Prop :=
  ∃ digits : List Char, s.toList = '0' :: 'x' :: digits ∧ digits.length = 40 ∧
    ∀ c ∈ digits, c ∈ hexDigits

/-- An address with the end of a line after it. -/
def Line (s : String) : Prop := ∃ address, Exact address ∧ s = address ++ "\n"

theorem isHexDigit_iff {c : Char} : isHexDigit c = true ↔ c ∈ hexDigits := by
  constructor
  · intro h
    have hmem : ∀ n : Fin 128, isHexDigit (Char.ofNat n) = true → Char.ofNat n ∈ hexDigits := by
      decide
    exact Text.forall_ascii (p := fun c => isHexDigit c = true → c ∈ hexDigits) hmem
      (toNat_lt_of_isHexDigit h) h
  · intro h
    have hall : hexDigits.all isHexDigit = true := by decide
    exact List.all_eq_true.mp hall c h

theorem all_isHexDigit_iff {digits : List Char} :
    digits.all isHexDigit = true ↔ ∀ c ∈ digits, c ∈ hexDigits := by
  simp only [List.all_eq_true, isHexDigit_iff]

/-- **A text passes for an address if it is one, or one with the end of a line after it.** -/
theorem isValid_iff_exact {s : String} : isValid s = true ↔ Exact s ∨ Line s := by
  rw [isValid_iff]
  constructor
  · rintro ⟨digits, ending, hs, hlength, hall, rfl | rfl⟩
    · exact .inl ⟨digits, by rw [hs, List.append_nil], hlength, all_isHexDigit_iff.mp hall⟩
    · refine .inr ⟨String.ofList ('0' :: 'x' :: digits), ⟨digits, String.toList_ofList,
        hlength, all_isHexDigit_iff.mp hall⟩, String.toList_inj.mp ?_⟩
      rw [hs, String.toList_append, String.toList_ofList]
      rfl
  · rintro (⟨digits, hs, hlength, hall⟩ | ⟨address, ⟨digits, hs, hlength, hall⟩, rfl⟩)
    · exact ⟨digits, [], by rw [hs, List.append_nil], hlength, all_isHexDigit_iff.mpr hall,
        .inl rfl⟩
    · refine ⟨digits, ['\n'], ?_, hlength, all_isHexDigit_iff.mpr hall, .inr rfl⟩
      rw [String.toList_append, hs]
      rfl

section Screened

variable [Platform]

/-- What becomes of a text that is given for an address. -/
structure Screened (s : String) : Prop where
  /-- An address passes as it is. -/
  passed : Exact s → validate s = .ok s
  /-- So does one with the end of a line after it. -/
  line : Line s → validate s = .ok s
  /-- Any other text is refused. -/
  refused : ¬ Exact s → ¬ Line s → validate s = .error (.invalidAddress s)
  /-- An attempt to fetch it makes no request, and logs nothing. -/
  unfetched : ¬ Exact s → ¬ Line s → ∀ net settings chainId trace,
    (Fetch.resolve net settings chainId s).run trace = (.error (.invalidAddress s), trace)
  /-- A call to analyse it issues no command and makes no request. -/
  unanalysed : ¬ Exact s → ¬ Line s → ∀ (office : Office) around chainId useCache desk,
    (office.analyzeAddress around chainId s useCache).run desk =
      (.error (.invalidAddress s), desk)

/-- **Only addresses get through, and addresses with the end of a line after them.** -/
theorem screened (s : String) : Screened s := by
  have hvalid (h : Exact s ∨ Line s) : validate s = .ok s := if_pos (isValid_iff_exact.mpr h)
  have hrefused (hexact : ¬ Exact s) (hline : ¬ Line s) :
      validate s = .error (.invalidAddress s) :=
    if_neg fun h => (isValid_iff_exact.mp h).elim hexact hline
  refine ⟨fun h => hvalid (.inl h), fun h => hvalid (.inr h), hrefused, ?_, ?_⟩
  · intro hexact hline net settings chainId trace
    unfold Fetch.resolve
    rw [hrefused hexact hline]
    rfl
  · intro hexact hline office around chainId useCache desk
    rw [Office.analyzeAddress, hrefused hexact hline]
    rfl

end Screened

/-- An address with the end of a line after it. -/
def endedAddress : String := "0x00000000000000000000000000000000000000aa\n"

/-- **A text gets through that is no address.** -/
theorem validate_endedAddress :
    validate endedAddress = .ok endedAddress ∧ ¬ Exact endedAddress := by
  refine ⟨rfl, ?_⟩
  rintro ⟨digits, hdigits, hlength, -⟩
  have hlong : endedAddress.toList.length = 43 := by decide
  rw [hdigits, List.length_cons, List.length_cons, hlength] at hlong
  cases hlong

end ContractLens.Address
