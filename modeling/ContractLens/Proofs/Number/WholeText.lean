import ContractLens.Number.WholeText
import ContractLens.Proofs.Calendar.ReadBack
import ContractLens.Proofs.Number.Digits
/-!
# Whole numbers in free text

A natural number that is written out is read back, as long as it has no more digits than a reader
takes (`wholeNumber?_intText`); and no number that is read has more (`natAbs_wholeNumber?`).
-/

namespace ContractLens

theorem isBlank_of_isDigit {c : Char} (h : c.isDigit = true) : Text.isBlank c = false := by
  simp only [Char.isDigit, Bool.and_eq_true, decide_eq_true_eq] at h
  have hlow : 48 ≤ c.toNat := h.1
  have hhigh : c.toNat ≤ 57 := h.2
  simp [Text.isBlank]
  omega

theorem splitSign_of_digits {digits : List Char} (h : ∀ c ∈ digits, c.isDigit = true) :
    Schema.splitSign digits = (false, digits) := by
  unfold Schema.splitSign
  split
  · exact absurd (h '-' List.mem_cons_self) (by decide)
  · exact absurd (h '+' List.mem_cons_self) (by decide)
  · rfl

theorem dropUnderscores?_of_digits {digits : List Char} (hne : digits ≠ [])
    (h : ∀ c ∈ digits, c.isDigit = true) : Schema.dropUnderscores? digits = some digits := by
  have hdigit : ∀ {c : Char}, c.isDigit = true → (c == '_') = false :=
    fun hc => beq_false_of_ne fun he => absurd (he ▸ hc) (by decide)
  -- after the first digit no underscore is pending
  have hgo : ∀ (mark : Bool) (c : Char) (digits : List Char),
      (∀ d ∈ c :: digits, d.isDigit = true) →
        Schema.dropUnderscores?.go mark (c :: digits) = some (c :: digits) := by
    intro mark c digits
    induction digits generalizing mark c with
    | nil =>
      intro h
      rw [Schema.dropUnderscores?.go, hdigit (h c List.mem_cons_self)]
      rfl
    | cons d digits ih =>
      intro h
      rw [Schema.dropUnderscores?.go, hdigit (h c List.mem_cons_self),
        ih false d fun e he => h e (List.mem_cons_of_mem c he)]
      rfl
  obtain ⟨c, rest, rfl⟩ := List.exists_cons_of_ne_nil hne
  exact hgo _ c rest h

theorem digitsValue?_of_digits {digits : List Char} (hne : digits ≠ [])
    (h : ∀ c ∈ digits, c.isDigit = true) :
    digitsValue? digits = some (Nat.ofDigitChars 10 digits 0) := by
  have hvalues : digits.mapM Text.digitValue? = some (digits.map fun c => c.toNat - '0'.toNat) := by
    clear hne
    induction digits with
    | nil => rfl
    | cons c digits ih =>
      have hc : Text.digitValue? c = some (c.toNat - '0'.toNat) := if_pos (h c List.mem_cons_self)
      rw [List.mapM_cons, hc, ih fun d hd => h d (List.mem_cons_of_mem c hd)]
      rfl
  rw [digitsValue?, List.isEmpty_eq_false_iff.mpr hne, hvalues, Option.map_some,
    List.foldl_map, Nat.ofDigitChars]
  simp only [Bool.false_eq_true, if_false, Nat.mul_comm]

/-- **A natural number is read back from its text**, unless it has too many digits. -/
theorem wholeNumber?_intText (n : Nat) :
    wholeNumber? (intText n) =
      if Json.maxIntegerDigits < (natDigits n).length then none else some (n : Int) := by
  have hdigits : ∀ c ∈ natDigits n, c.isDigit = true := fun _ => isDigit_of_mem_natDigits
  have htext : (intText n).toList = natDigits n := by
    rw [intText, String.toList_ofList, intDigits, if_neg (by omega), Int.natAbs_natCast]
  have htrim : Text.trim (natDigits n) = natDigits n :=
    Schema.trimBy_of_forall fun c hc => isBlank_of_isDigit (hdigits c hc)
  rw [wholeNumber?, htext, htrim, splitSign_of_digits hdigits]
  simp only [dropUnderscores?_of_digits (natDigits_ne_nil n) hdigits, Option.bind_eq_bind,
    Option.bind_some, digitsValue?_of_digits (natDigits_ne_nil n) hdigits, ofDigitChars_natDigits,
    Bool.false_eq_true]
  rfl

theorem wholeNumber?_intText_of_lt {n : Nat} (h : n < 10 ^ Json.maxIntegerDigits) :
    wholeNumber? (intText n) = some (n : Int) := by
  have hshort : (natDigits n).length ≤ Json.maxIntegerDigits :=
    (Nat.length_toDigits_le_iff (by decide) (by decide)).mpr h
  rw [wholeNumber?_intText, if_neg (Nat.not_lt.mpr hshort)]

/-! ## How large a number is -/

theorem digitValue?_lt {c : Char} {d : Nat} (h : Text.digitValue? c = some d) : d < 10 := by
  unfold Text.digitValue? at h
  split at h
  · rename_i hdigit
    cases h
    simp only [Char.isDigit, Bool.and_eq_true, decide_eq_true_eq] at hdigit
    have hhigh : c.toNat ≤ 57 := hdigit.2
    have hzero : '0'.toNat = 48 := rfl
    omega
  split at h
  · cases h
  · obtain ⟨row, -, rfl⟩ := Option.map_eq_some_iff.mp h
    exact Nat.mod_lt _ (by decide)

theorem foldl_digits_lt {values : List Nat} (h : ∀ d ∈ values, d < 10) (start : Nat) :
    values.foldl (fun n d => n * 10 + d) start < (start + 1) * 10 ^ values.length := by
  induction values generalizing start with
  | nil => exact Nat.lt_of_lt_of_eq (Nat.lt_succ_self start) (Nat.mul_one _).symm
  | cons d values ih =>
    obtain ⟨hd, hvalues⟩ := List.forall_mem_cons.mp h
    have hnext : start * 10 + d + 1 ≤ (start + 1) * 10 := by omega
    calc values.foldl (fun n d => n * 10 + d) (start * 10 + d)
        < (start * 10 + d + 1) * 10 ^ values.length := ih hvalues _
      _ ≤ (start + 1) * 10 * 10 ^ values.length := Nat.mul_le_mul_right _ hnext
      _ = (start + 1) * 10 ^ (values.length + 1) := by rw [Nat.pow_succ', Nat.mul_assoc]

theorem digits_of_mapM {cs : List Char} {values : List Nat}
    (h : cs.mapM Text.digitValue? = some values) :
    values.length = cs.length ∧ ∀ d ∈ values, d < 10 := by
  induction cs generalizing values with
  | nil =>
    cases h
    exact ⟨rfl, nofun⟩
  | cons c cs ih =>
    rw [List.mapM_cons] at h
    obtain ⟨d, hd, h⟩ := Option.bind_eq_some_iff.mp h
    obtain ⟨rest, hrest, h⟩ := Option.bind_eq_some_iff.mp h
    cases h
    obtain ⟨hlength, hlow⟩ := ih hrest
    exact ⟨congrArg (· + 1) hlength, List.forall_mem_cons.mpr ⟨digitValue?_lt hd, hlow⟩⟩

theorem digitsValue?_lt {cs : List Char} {n : Nat} (h : digitsValue? cs = some n) :
    n < 10 ^ cs.length := by
  unfold digitsValue? at h
  split at h
  · cases h
  obtain ⟨values, hvalues, rfl⟩ := Option.map_eq_some_iff.mp h
  obtain ⟨hlength, hlow⟩ := digits_of_mapM hvalues
  have hbound := foldl_digits_lt hlow 0
  rwa [hlength, Nat.zero_add, Nat.one_mul] at hbound

/-- **A number that is read has no more digits than a reader takes.** -/
theorem natAbs_wholeNumber? {s : String} {n : Int} (h : wholeNumber? s = some n) :
    n.natAbs < 10 ^ Json.maxIntegerDigits := by
  unfold wholeNumber? at h
  generalize Schema.splitSign (Text.trim s.toList) = parts at h
  obtain ⟨negative, body⟩ := parts
  obtain ⟨digits, -, h⟩ := Option.bind_eq_some_iff.mp h
  split at h
  · cases h
  rename_i hdigits
  obtain ⟨_, hvalue, rfl⟩ := Option.map_eq_some_iff.mp h
  obtain ⟨value, hcount, hcast⟩ := Option.bind_eq_some_iff.mp hvalue
  cases hcast
  have hlarge : value < 10 ^ Json.maxIntegerDigits :=
    Nat.lt_of_lt_of_le (digitsValue?_lt hcount)
      (Nat.pow_le_pow_right (by decide) (Nat.le_of_not_lt hdigits))
  cases negative with
  | false => exact hlarge
  | true => exact (Int.natAbs_neg value).symm ▸ hlarge

end ContractLens
