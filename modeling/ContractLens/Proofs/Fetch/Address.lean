import ContractLens.Fetch.Address
import ContractLens.Proofs.Text.Ascii
import Mathlib.Data.List.Forall2
/-!
# Spellings of an address

The digits of an address count in either case. Another spelling of an address is an address as well
(`isValid_of_recased`) and has the same lower-case form (`lowerString_of_recased`), which is what
its record is kept under.
-/

namespace ContractLens.Address

/-- The same digit, perhaps in the other case, or the same character. -/
def SameDigit (c d : Char) : Prop :=
  c = d ∨ isHexDigit c = true ∧ isHexDigit d = true ∧ c.toLower = d.toLower

/-- Texts that differ in nothing but the case of digits of base sixteen. -/
def Recased (s t : String) : Prop := List.Forall₂ SameDigit s.toList t.toList

instance (c d : Char) : Decidable (SameDigit c d) := inferInstanceAs (Decidable (_ ∨ _))

instance (s t : String) : Decidable (Recased s t) :=
  inferInstanceAs (Decidable (List.Forall₂ SameDigit s.toList t.toList))

theorem toNat_lt_of_isHexDigit {c : Char} (h : isHexDigit c = true) : c.toNat < 128 := by
  have hle : ∀ d : Char, d.toNat < 128 → c ≤ d → c.toNat < 128 := fun d hd hcd =>
    Nat.lt_of_le_of_lt (UInt32.le_iff_toNat_le.mp hcd) hd
  rw [isHexDigit, Json.hexValue?] at h
  split at h
  · rename_i hrange
    exact hle '9' (by decide) (by simpa using (Bool.and_eq_true_iff.mp hrange).2)
  split at h
  · rename_i hrange
    exact hle 'f' (by decide) (by simpa using (Bool.and_eq_true_iff.mp hrange).2)
  split at h
  · rename_i hrange
    exact hle 'F' (by decide) (by simpa using (Bool.and_eq_true_iff.mp hrange).2)
  · cases h

theorem toLower_toLower {c : Char} (hc : c.toNat < 128) : c.toLower.toLower = c.toLower :=
  Text.forall_ascii (p := fun c => c.toLower.toLower = c.toLower) (by decide) hc

theorem toNat_toLower_lt {c : Char} (hc : c.toNat < 128) : c.toLower.toNat < 128 :=
  Text.forall_ascii (p := fun c => c.toLower.toNat < 128) (by decide) hc

theorem eq_zero_of_sameDigit {d : Char} (h : SameDigit '0' d) : d = '0' := by
  rcases h with h | ⟨-, hd, hlower⟩
  · exact h.symm
  · have hzero : ∀ n : Fin 128, '0'.toLower = (Char.ofNat n).toLower → Char.ofNat n = '0' := by
      decide
    exact Text.forall_ascii (p := fun d => '0'.toLower = d.toLower → d = '0') hzero
      (toNat_lt_of_isHexDigit hd) hlower

theorem eq_of_sameDigit {c d : Char} (hc : isHexDigit c = false) (h : SameDigit c d) : d = c := by
  rcases h with h | ⟨hhex, -, -⟩
  · exact h.symm
  · rw [hc] at hhex
    cases hhex

theorem isHexDigit_of_sameDigit {c d : Char} (hc : isHexDigit c = true) (h : SameDigit c d) :
    isHexDigit d = true := by
  rcases h with h | ⟨-, hd, -⟩
  · rwa [← h]
  · exact hd

/-! ## The parts of an address -/

/-- An address is its mark, forty digits, and perhaps the end of a line. -/
theorem isValid_iff {s : String} :
    isValid s = true ↔ ∃ digits ending : List Char, s.toList = '0' :: 'x' :: digits ++ ending ∧
      digits.length = 40 ∧ digits.all isHexDigit = true ∧ (ending = [] ∨ ending = ['\n']) := by
  rw [isValid]
  constructor
  · intro h
    split at h
    · rename_i digits hdigits
      obtain ⟨hlength, hall⟩ := Bool.and_eq_true_iff.mp h
      have hlength : digits.length = 40 := by simpa using hlength
      rw [dropLineEnd] at hdigits
      split at hdigits
      · rename_i hend
        have hend : s.toList.getLast? = some '\n' := by simpa using hend
        refine ⟨digits, ['\n'], ?_, hlength, hall, .inr rfl⟩
        rw [← hdigits]
        exact (List.dropLast_append_getLast? '\n' hend).symm
      · exact ⟨digits, [], by simpa using hdigits, hlength, hall, .inl rfl⟩
    · cases h
  · rintro ⟨digits, ending, hs, hlength, hall, hending⟩
    have hdrop : dropLineEnd s.toList = '0' :: 'x' :: digits := by
      rw [hs, dropLineEnd]
      rcases hending with rfl | rfl
      · have hlast : ('0' :: 'x' :: digits ++ []).getLast? ≠ some '\n' := by
          intro hlast
          have hmem := List.mem_of_getLast? hlast
          rw [List.append_nil, List.mem_cons, List.mem_cons] at hmem
          rcases hmem with h | h | h
          · exact absurd h (by decide)
          · exact absurd h (by decide)
          · exact absurd (List.all_eq_true.mp hall _ h) (by decide)
        rw [if_neg (by simpa using hlast), List.append_nil]
      · rw [List.getLast?_concat, if_pos (beq_self_eq_true _), List.dropLast_concat]
    rw [hdrop]
    simp [hlength, hall]

theorem toNat_lt_of_isValid {s : String} (h : isValid s = true) :
    ∀ c ∈ s.toList, c.toNat < 128 := by
  obtain ⟨digits, ending, hs, -, hall, hending⟩ := isValid_iff.mp h
  intro c hc
  rw [hs, List.cons_append, List.cons_append, List.mem_cons, List.mem_cons, List.mem_append] at hc
  rcases hc with rfl | rfl | hc | hc
  · decide
  · decide
  · exact toNat_lt_of_isHexDigit (List.all_eq_true.mp hall c hc)
  · rcases hending with rfl | rfl
    · cases hc
    · cases List.mem_singleton.mp hc
      decide

theorem lowerString_of_isValid {s : String} (h : isValid s = true) :
    Text.lowerString s = String.ofList (s.toList.map Char.toLower) := by
  rw [Text.lowerString, Text.lower_of_ascii (toNat_lt_of_isValid h)]

/-- The lower-case form of an address is its own lower-case form. -/
theorem lowerString_lowerString {s : String} (h : isValid s = true) :
    Text.lowerString (Text.lowerString s) = Text.lowerString s := by
  have hascii := toNat_lt_of_isValid h
  rw [lowerString_of_isValid h, Text.lowerString, String.toList_ofList, Text.lower_of_ascii]
  · rw [List.map_map]
    exact congrArg String.ofList
      (List.map_congr_left fun c hc => toLower_toLower (hascii c hc))
  · intro c hc
    obtain ⟨d, hd, rfl⟩ := List.mem_map.mp hc
    exact toNat_toLower_lt (hascii d hd)

/-! ## Other spellings -/

theorem all_isHexDigit_of_recased {cs ds : List Char} (h : List.Forall₂ SameDigit cs ds)
    (hall : cs.all isHexDigit = true) : ds.all isHexDigit = true := by
  induction h with
  | nil => rfl
  | cons hcd _ ih =>
    rw [List.all_cons, Bool.and_eq_true_iff] at hall ⊢
    exact ⟨isHexDigit_of_sameDigit hall.1 hcd, ih hall.2⟩

/-- **Another spelling of an address is an address.** -/
theorem isValid_of_recased {s t : String} (h : isValid s = true) (hst : Recased s t) :
    isValid t = true := by
  obtain ⟨digits, ending, hs, hlength, hall, hending⟩ := isValid_iff.mp h
  rw [Recased, hs, List.cons_append, List.cons_append] at hst
  -- the mark stays as it is, and so does the end of the line
  obtain ⟨zero, rest, hzero, hrest, ht⟩ := List.forall₂_cons_left_iff.mp hst
  obtain ⟨ex, rest', hex, hrest', rfl⟩ := List.forall₂_cons_left_iff.mp hrest
  obtain rfl := eq_zero_of_sameDigit hzero
  obtain rfl : ex = 'x' := eq_of_sameDigit (by decide) hex
  -- splitting goes by the left list, so the relation is turned around for it
  have hflip := hrest'.flip
  have hdigits := (List.forall₂_take_append _ digits ending hflip).flip
  have hlast := (List.forall₂_drop_append _ digits ending hflip).flip
  refine isValid_iff.mpr ⟨rest'.take digits.length, rest'.drop digits.length, ?_, ?_, ?_, ?_⟩
  · rw [ht, List.cons_append, List.cons_append, List.take_append_drop]
  · rw [← hdigits.length_eq, hlength]
  · exact all_isHexDigit_of_recased hdigits hall
  · rcases hending with rfl | rfl
    · exact .inl (List.forall₂_nil_left_iff.mp hlast)
    · obtain ⟨c, none, hc, hnone, hdrop⟩ := List.forall₂_cons_left_iff.mp hlast
      rw [hdrop, List.forall₂_nil_left_iff.mp hnone, eq_of_sameDigit (by decide) hc]
      exact .inr rfl

theorem map_toLower_of_recased {cs ds : List Char} (h : List.Forall₂ SameDigit cs ds) :
    ds.map Char.toLower = cs.map Char.toLower := by
  induction h with
  | nil => rfl
  | cons hcd _ ih =>
    rw [List.map_cons, List.map_cons, ih]
    rcases hcd with rfl | ⟨-, -, hlower⟩
    · rfl
    · rw [hlower]

/-- **The spellings of an address have one lower-case form.** -/
theorem lowerString_of_recased {s t : String} (h : isValid s = true) (hst : Recased s t) :
    Text.lowerString t = Text.lowerString s := by
  rw [lowerString_of_isValid h, lowerString_of_isValid (isValid_of_recased h hst),
    map_toLower_of_recased hst]

end ContractLens.Address
