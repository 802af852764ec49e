import ContractLens.Text.Utf8
/-!
# Text that files give back

In UTF-8 a character of ASCII is one byte, and such bytes are read as the text that they are of
(`decode_toUTF8`). Without carriage returns its lines are left as they are too
(`unifyLines_of_safe`), so that a file gives such text back as it was written.
-/

namespace ContractLens.Utf8

/-- A character of ASCII other than a carriage return. -/
def SafeChar (c : Char) : Prop := c.toNat < 0x80 ∧ c ≠ '\r'

instance (c : Char) : Decidable (SafeChar c) := inferInstanceAs (Decidable (_ ∧ _))

/-- Text that a file gives back as it was written. -/
def Safe (cs : List Char) : Prop := ∀ c ∈ cs, SafeChar c

instance (cs : List Char) : Decidable (Safe cs) := List.decidableBAll _ cs

theorem safe_nil : Safe [] := fun _ hc => absurd hc List.not_mem_nil

theorem safe_append {cs ds : List Char} : Safe (cs ++ ds) ↔ Safe cs ∧ Safe ds :=
  List.forall_mem_append

theorem safe_cons {c : Char} {cs : List Char} : Safe (c :: cs) ↔ SafeChar c ∧ Safe cs :=
  List.forall_mem_cons

/-! ## Bytes of a text -/

theorem toList_loop (bytes : ByteArray) (i : Nat) (done : List UInt8) :
    ByteArray.toList.loop bytes i done = done.reverse ++ bytes.data.toList.drop i := by
  fun_induction ByteArray.toList.loop bytes i done with
  | case1 i done hlt ih =>
    have hlength : i < bytes.data.toList.length := by simpa using hlt
    have hget : bytes.get! i = bytes.data.toList[i] := by
      cases bytes with
      | mk data => exact getElem!_pos data i hlt
    rw [ih, List.drop_eq_getElem_cons hlength, hget, List.reverse_cons, List.append_assoc]
    rfl
  | case2 i done hge =>
    have hdrop : bytes.data.toList.drop i = [] :=
      List.drop_eq_nil_of_le (by simpa using Nat.le_of_not_lt hge)
    rw [hdrop, List.append_nil]

/-- The bytes of a text are those of its characters. -/
theorem toList_toUTF8 (s : String) : s.toUTF8.toList = s.toList.flatMap String.utf8EncodeChar := by
  have hbytes : s.toUTF8 = (s.toList.flatMap String.utf8EncodeChar).toByteArray :=
    String.utf8Encode_toList.symm
  rw [hbytes, ByteArray.toList, toList_loop, List.toList_data_toByteArray]
  rfl

theorem utf8EncodeChar_of_safeChar {c : Char} (h : SafeChar c) :
    String.utf8EncodeChar c = [c.toNat.toUInt8] := by
  have hsize : c.utf8Size = 1 := by
    rw [Char.utf8Size_eq_one_iff, UInt32.le_iff_toNat_le]
    exact Nat.le_of_lt_succ h.1
  rw [String.utf8EncodeChar_eq_singleton hsize]
  rfl

/-! ## Reading -/

theorem start_of_ascii {b : Nat} (h : b < 0x80) (position : Nat) :
    start position b = ([.char (Char.ofNat b)], none) := by
  rw [start, firstByte?, if_pos h]

theorem readFrom_safe {cs : List Char} (h : Safe cs) (position : Nat) :
    readFrom position none (cs.map fun c => c.toNat.toUInt8) = cs.map .char := by
  induction cs generalizing position with
  | nil => rfl
  | cons c cs ih =>
    obtain ⟨⟨hc, -⟩, hcs⟩ := safe_cons.mp h
    have hbyte : c.toNat.toUInt8.toNat = c.toNat := by
      rw [Nat.toUInt8_eq, UInt8.toNat_ofNat']
      omega
    rw [List.map_cons, readFrom, hbyte, start_of_ascii hc, Char.ofNat_toNat, List.map_cons]
    exact congrArg (.char c :: ·) (ih hcs (position + 1))

theorem strictly_chars (cs : List Char) : strictly (cs.map .char) = .ok cs := by
  induction cs with
  | nil => rfl
  | cons c cs ih =>
    rw [List.map_cons, strictly, ih]
    rfl

/-- **The bytes of text in ASCII are read as the text.** -/
theorem decode_toUTF8 {s : String} (h : Safe s.toList) : decode s.toUTF8.toList = .ok s.toList := by
  have hbytes : s.toUTF8.toList = s.toList.map fun c => c.toNat.toUInt8 := by
    rw [toList_toUTF8, List.flatMap_def,
      List.map_congr_left fun c hc => utf8EncodeChar_of_safeChar (h c hc), ← List.flatMap_def,
      ← List.map_eq_flatMap]
  rw [decode, read, hbytes, readFrom_safe h, strictly_chars]

/-- **Lines that end in line feeds stay as they are.** -/
theorem unifyLines_of_safe {cs : List Char} (h : Safe cs) : unifyLines cs = cs := by
  have hafter : unifyLinesAfter false cs = cs := by
    induction cs with
    | nil => rfl
    | cons c cs ih =>
      obtain ⟨⟨-, hc⟩, hcs⟩ := safe_cons.mp h
      rw [unifyLinesAfter, beq_false_of_ne hc, Bool.and_false, ih hcs]
      rfl
  exact hafter

end ContractLens.Utf8
