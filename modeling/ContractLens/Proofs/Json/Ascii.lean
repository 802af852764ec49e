import ContractLens.Proofs.Json.Written
import ContractLens.Proofs.Text.Utf8
/-!
# Values in files

A layout that escapes what is outside ASCII writes values without binary numbers in ASCII alone, and
without carriage returns, whatever their texts hold (`safe_write`): a file gives such a value back
character by character.
-/

namespace ContractLens.Json

open Utf8

/-- A layout that writes in ASCII. -/
structure Layout.InAscii (layout : Layout) : Prop where
  /-- Other characters are escaped. -/
  escapes : layout.ascii = true
  /-- None of them stands between two items. -/
  separator : Safe layout.separator
  /-- None of them stands between a name and its value. -/
  colon : Safe layout.colon

theorem Layout.inAscii_indented : Layout.indented.InAscii :=
  ⟨rfl, by decide, by decide⟩

/-! ## Tokens -/

theorem safe_unitEscape {unit : Nat} (h : unit < 0x10000) : Safe (unitEscape unit) := by
  have hdigit : ∀ n < 16, SafeChar (Nat.digitChar n) := by decide
  rw [unitEscape, hexDigits_four h]
  simp only [safe_cons]
  exact ⟨by decide, by decide, hdigit _ (by omega), hdigit _ (by omega), hdigit _ (by omega),
    hdigit _ (by omega), safe_nil⟩

theorem safe_unicodeEscape (c : Char) : Safe (unicodeEscape c) := by
  have hbound := toNat_lt_of_valid c
  unfold unicodeEscape
  split
  · exact safe_unitEscape ‹_›
  · exact safe_append.mpr ⟨safe_unitEscape (by omega), safe_unitEscape (by omega)⟩

theorem safe_writeChar (c : Char) : Safe (writeChar true c) := by
  have hshort : ∀ d : Char, SafeChar d → Safe ['\\', d] := fun d hd =>
    safe_cons.mpr ⟨by decide, safe_cons.mpr ⟨hd, safe_nil⟩⟩
  unfold writeChar
  split
  · rename_i hmark
    refine hshort c ?_
    rcases Bool.or_eq_true_iff.mp hmark with hc | hc <;> rw [beq_iff_eq.mp hc] <;> decide
  iterate 5
    split
    · exact hshort _ (by decide)
  split
  · exact safe_unicodeEscape c
  · rename_i hplain
    refine safe_cons.mpr ⟨?_, safe_nil⟩
    simp only [Bool.true_and, Bool.or_eq_true, decide_eq_true_eq] at hplain
    have hlow : 0x20 ≤ c.toNat := by omega
    exact ⟨by omega, fun hc => absurd (hc ▸ hlow) (by decide)⟩

theorem safe_writeText (cs : List Char) : Safe (writeText true cs) := by
  rw [writeText, safe_cons, safe_append, safe_cons]
  refine ⟨by decide, fun c hc => ?_, by decide, safe_nil⟩
  obtain ⟨d, -, hd⟩ := List.mem_flatMap.mp hc
  exact safe_writeChar d c hd

theorem safe_of_isDigit {c : Char} (h : c.isDigit = true) : SafeChar c := by
  simp only [Char.isDigit, Bool.and_eq_true, decide_eq_true_eq] at h
  have hlow : 48 ≤ c.toNat := h.1
  have hhigh : c.toNat ≤ 57 := h.2
  exact ⟨by omega, fun hc => absurd (hc ▸ hlow) (by decide)⟩

theorem safe_intDigits (n : Int) : Safe (intDigits n) := by
  obtain ⟨c, digits, hn, hc, hdigits⟩ := intDigits_head n
  rw [hn, safe_cons]
  refine ⟨?_, fun d hd => safe_of_isDigit (hdigits d hd)⟩
  rcases hc with rfl | hc
  · decide
  · exact safe_of_isDigit hc

theorem safe_lineBreak (layout : Layout) (level : Nat) : Safe (lineBreak layout level) := by
  unfold lineBreak
  split
  · exact safe_nil
  · refine safe_cons.mpr ⟨by decide, fun c hc => ?_⟩
    rw [(List.mem_replicate.mp hc).2]
    decide

/-! ## Values -/

theorem safe_bracketed {layout : Layout} (hl : layout.InAscii) (level : Nat)
    {opening closing : Char} (hopening : SafeChar opening) (hclosing : SafeChar closing)
    {items : List (List Char)} (h : ∀ item ∈ items, Safe item) :
    Safe (bracketed layout level opening closing items) := by
  have hbreak := safe_lineBreak layout
  cases items with
  | nil => exact safe_cons.mpr ⟨hopening, safe_cons.mpr ⟨hclosing, safe_nil⟩⟩
  | cons first rest =>
    obtain ⟨hfirst, hrest⟩ := List.forall_mem_cons.mp h
    simp only [bracketed, safe_cons, safe_append]
    refine ⟨hopening, ⟨⟨⟨hbreak _, hfirst⟩, fun c hc => ?_⟩, hbreak _⟩, hclosing, safe_nil⟩
    obtain ⟨item, hitem, hc⟩ := List.mem_flatMap.mp hc
    exact safe_append.mpr ⟨safe_append.mpr ⟨hl.separator, hbreak _⟩, hrest item hitem⟩ c hc

/-- **Values without binary numbers are written in ASCII.** -/
theorem safe_writeAt {layout : Layout} (hl : layout.InAscii) {j : Json} (h : Exact j)
    (level : Nat) : Safe (writeAt layout level j) := by
  induction h generalizing level with
  | null => exact (by decide : Safe "null".toList)
  | bool b =>
    cases b with
    | true => exact (by decide : Safe "true".toList)
    | false => exact (by decide : Safe "false".toList)
  | int n => exact safe_intDigits n
  | text s =>
    rw [writeAt, hl.escapes]
    exact safe_writeText s.toList
  | @list items _ ih =>
    rw [writeAt, writeItems_eq_map]
    refine safe_bracketed hl level (by decide) (by decide) fun item hitem => ?_
    obtain ⟨j, hj, rfl⟩ := List.mem_map.mp hitem
    exact ih j hj (level + 1)
  | @object members _ ih =>
    rw [writeAt, writeMembers_eq_map]
    refine safe_bracketed hl level (by decide) (by decide) fun item hitem => ?_
    obtain ⟨member, hmember, rfl⟩ := List.mem_map.mp hitem
    rw [writeMember, hl.escapes, safe_append, safe_append]
    exact ⟨⟨safe_writeText _, hl.colon⟩, ih member hmember (level + 1)⟩

theorem safe_write {layout : Layout} (hl : layout.InAscii) {j : Json} (h : Exact j) :
    Safe (j.write layout).toList := by
  rw [write, String.toList_ofList]
  exact safe_writeAt hl h 0

end ContractLens.Json
