import ContractLens.Number.Decimal
import Mathlib.Algebra.Ring.Nat
import Mathlib.Data.List.Induction
/-!
# Digits of whole numbers

The digits of a number give the number back, also with zeros in front (`ofDigitChars_padZeros`);
digits with no such zero are those of the number they give (`natDigits_ofDigitChars`). Distinct
whole numbers have distinct texts (`intText_injective`). Of digits in base sixteen the last one is
the remainder (`hexDigits_succ`).
-/

namespace ContractLens

theorem natDigits_ne_nil (n : Nat) : natDigits n ≠ [] := Nat.toDigits_ne_nil

theorem isDigit_of_mem_natDigits {n : Nat} {c : Char} (h : c ∈ natDigits n) : c.isDigit = true :=
  Nat.isDigit_of_mem_toDigits (by decide) (by decide) h

theorem ofDigitChars_natDigits (n : Nat) : Nat.ofDigitChars 10 (natDigits n) 0 = n :=
  Nat.ofDigitChars_ten_toDigits

/-- No digits of a positive number start with a zero. -/
theorem head_natDigits_ne {n : Nat} (h : 0 < n) : (natDigits n).head? ≠ some '0' := by
  induction n using Nat.strongRecOn with
  | ind n ih =>
    rcases Nat.lt_or_ge n 10 with hlt | hge
    · rw [natDigits, Nat.toDigits_of_lt_base hlt]
      simp only [List.head?_cons, ne_eq, Option.some.injEq, Nat.digitChar_eq_zero]
      omega
    · have hq : (natDigits (n / 10)).head? ≠ some '0' :=
        ih (n / 10) (Nat.div_lt_self h (by decide)) (Nat.div_pos hge (by decide))
      obtain ⟨c, rest, hc⟩ := List.exists_cons_of_ne_nil (natDigits_ne_nil (n / 10))
      rw [natDigits, Nat.toDigits_of_base_le (by decide) hge]
      rw [natDigits] at hc hq
      rw [hc] at hq ⊢
      simpa using hq

theorem digitChar_toNat_sub {c : Char} (h : c.isDigit = true) :
    c.toNat - 48 < 10 ∧ Nat.digitChar (c.toNat - 48) = c := by
  simp only [Char.isDigit, Bool.and_eq_true, decide_eq_true_eq] at h
  have hlow : 48 ≤ c.toNat := h.1
  have hhigh : c.toNat ≤ 57 := h.2
  have hall : ∀ k : Fin 10, Nat.digitChar k = Char.ofNat (k + 48) := by decide
  have hc := hall ⟨c.toNat - 48, by omega⟩
  refine ⟨by omega, ?_⟩
  rw [hc, Nat.sub_add_cancel hlow, Char.ofNat_toNat]

/-- **Digits without needless zeros in front are those of the number that they name.** -/
theorem natDigits_ofDigitChars {digits : List Char} (hne : digits ≠ [])
    (hdigits : ∀ c ∈ digits, c.isDigit = true)
    (hzero : digits.head? = some '0' → digits = ['0']) :
    natDigits (Nat.ofDigitChars 10 digits 0) = digits := by
  -- the last digit is the remainder, and the ones before it are those of the quotient
  induction digits using List.reverseRecOn with
  | nil => exact absurd rfl hne
  | append_singleton digits c ih =>
    obtain ⟨hlt, hc⟩ := digitChar_toNat_sub (hdigits c (by simp))
    have hvalue : Nat.ofDigitChars 10 (digits ++ [c]) 0 =
        10 * Nat.ofDigitChars 10 digits 0 + (c.toNat - 48) := by
      rw [Nat.ofDigitChars_append, Nat.ofDigitChars_cons, Nat.ofDigitChars_nil]
      rfl
    rw [hvalue, natDigits]
    cases digits with
    | nil =>
      rw [Nat.ofDigitChars_nil, Nat.mul_zero, Nat.zero_add, Nat.toDigits_of_lt_base hlt, hc]
      rfl
    | cons first digits =>
      have hfirst : first ≠ '0' := by
        rintro rfl
        exact absurd (hzero rfl) (by simp)
      have hquotient := ih (List.cons_ne_nil first digits)
        (fun d hd => hdigits d (List.mem_append_left _ hd))
        fun h => absurd (Option.some.inj h) hfirst
      generalize hq : Nat.ofDigitChars 10 (first :: digits) 0 = quotient at hquotient ⊢
      have hpos : 0 < quotient := by
        refine Nat.pos_of_ne_zero ?_
        rintro rfl
        rw [natDigits, Nat.toDigits_zero] at hquotient
        exact hfirst (List.cons.inj hquotient).1.symm
      have hdiv : (10 * quotient + (c.toNat - 48)) / 10 = quotient := by omega
      have hmod : (10 * quotient + (c.toNat - 48)) % 10 = c.toNat - 48 := by omega
      rw [Nat.toDigits_of_base_le (by decide) (by omega), hdiv, hmod, hc, ← natDigits, hquotient]

/-- A written number starts with a minus sign or a digit. -/
theorem intDigits_head (n : Int) :
    ∃ c digits, intDigits n = c :: digits ∧ (c = '-' ∨ c.isDigit = true) ∧
      ∀ d ∈ digits, d.isDigit = true := by
  have hd : ∀ d ∈ natDigits n.natAbs, d.isDigit = true := fun d => isDigit_of_mem_natDigits
  by_cases hneg : n < 0
  · exact ⟨'-', natDigits n.natAbs, by rw [intDigits, if_pos hneg], Or.inl rfl, hd⟩
  · obtain ⟨c, digits, hc⟩ := List.exists_cons_of_ne_nil (natDigits_ne_nil n.natAbs)
    rw [hc] at hd
    exact ⟨c, digits, by rw [intDigits, if_neg hneg, hc], Or.inr (hd c (by simp)),
      fun d h => hd d (by simp [h])⟩

/-- The whole number written by a sign and digits. -/
def signedValue : List Char → Int
  | '-' :: digits => -(Nat.ofDigitChars 10 digits 0 : Int)
  | digits => Nat.ofDigitChars 10 digits 0

theorem signedValue_intDigits (n : Int) : signedValue (intDigits n) = n := by
  have hval := ofDigitChars_natDigits n.natAbs
  by_cases hneg : n < 0
  · rw [intDigits, if_pos hneg, signedValue, hval]
    omega
  · obtain ⟨c, digits, hc⟩ := List.exists_cons_of_ne_nil (natDigits_ne_nil n.natAbs)
    have hd : c.isDigit = true := isDigit_of_mem_natDigits (n := n.natAbs) (by rw [hc]; simp)
    rw [intDigits, if_neg hneg, hc]
    unfold signedValue
    split
    · rename_i h
      rw [(List.cons.inj h).1] at hd
      exact absurd hd (by decide)
    · rw [← hc, hval]
      omega

theorem intText_injective {m n : Int} (h : intText m = intText n) : m = n := by
  rw [← signedValue_intDigits m, ← signedValue_intDigits n, String.ofList_injective h]

/-! ## Zeros in front -/

theorem length_padZeros {width : Nat} {digits : List Char} (h : digits.length ≤ width) :
    (padZeros width digits).length = width := by
  simp only [padZeros, List.length_append, List.length_replicate]
  omega

theorem ofDigitChars_padZeros (width : Nat) (digits : List Char) :
    Nat.ofDigitChars 10 (padZeros width digits) 0 = Nat.ofDigitChars 10 digits 0 := by
  rw [padZeros, Nat.ofDigitChars_append, Nat.ofDigitChars_replicate_zero, Nat.mul_zero]

theorem isDigit_of_mem_padZeros {width n : Nat} {c : Char}
    (h : c ∈ padZeros width (natDigits n)) : c.isDigit = true := by
  rcases List.mem_append.mp h with h | h
  · rw [(List.mem_replicate.mp h).2]
    rfl
  · exact isDigit_of_mem_natDigits h

/-- **Padded digits fill their width and give the number back.** -/
theorem padZeros_natDigits {width n : Nat} (hw : 0 < width) (h : n < 10 ^ width) :
    (padZeros width (natDigits n)).length = width ∧
      (∀ c ∈ padZeros width (natDigits n), c.isDigit = true) ∧
      Nat.ofDigitChars 10 (padZeros width (natDigits n)) 0 = n :=
  ⟨length_padZeros ((Nat.length_toDigits_le_iff (by decide) hw).mpr h),
    fun _ => isDigit_of_mem_padZeros,
    (ofDigitChars_padZeros width _).trans (ofDigitChars_natDigits n)⟩

/-! ## Base sixteen -/

/-- The last of several digits in base sixteen. -/
theorem hexDigits_succ {width : Nat} (hw : 0 < width) (n : Nat) :
    hexDigits (width + 1) n = hexDigits width (n / 16) ++ [Nat.digitChar (n % 16)] := by
  obtain ⟨width, rfl⟩ : ∃ w, width = w + 1 := ⟨width - 1, by omega⟩
  by_cases h : n < 16
  · have hdiv : n / 16 = 0 := Nat.div_eq_of_lt h
    rw [hexDigits, hexDigits, Nat.toDigits_of_lt_base h, hdiv, Nat.mod_eq_of_lt h,
      Nat.toDigits_zero]
    simp [padZeros, List.replicate_succ']
  · rw [hexDigits, hexDigits, Nat.toDigits_of_base_le (by decide) (Nat.le_of_not_lt h)]
    simp [padZeros]

theorem hexDigits_four {n : Nat} (h : n < 0x10000) :
    hexDigits 4 n = [Nat.digitChar (n / 4096), Nat.digitChar (n / 256 % 16),
      Nat.digitChar (n / 16 % 16), Nat.digitChar (n % 16)] := by
  have hfirst : hexDigits 1 (n / 4096) = [Nat.digitChar (n / 4096)] := by
    rw [hexDigits, Nat.toDigits_of_lt_base (by omega)]
    rfl
  rw [hexDigits_succ (by decide), hexDigits_succ (by decide), hexDigits_succ (by decide)]
  simp only [Nat.div_div_eq_div_mul, hfirst]
  rfl

end ContractLens
