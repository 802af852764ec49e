import ContractLens.Analysis.Record
import Mathlib.Data.List.TakeWhile
/-!
# Records that can be stored

A record is stored as its compact text unless half a pair of units stands in one of its texts
(`encoded_eq_ok_iff`). A half comes from an escape: the escapes of different halves are read as
different characters (`unitChar_inj`), and each of them as a half (`isHalf_unitChar`).
-/

namespace ContractLens

variable [Platform]

namespace Json

/-- Whether a unit is half a pair. -/
def IsHalf (unit : Nat) : Prop := 0xD800 ≤ unit ∧ unit ≤ 0xDFFF

/-- The number of the character that stands for a half. -/
theorem unitChar_of_isHalf {unit : Nat} (h : IsHalf unit) :
    (unitChar unit).toNat = Platform.halves + (unit - 0xD800) := by
  obtain ⟨hlow, hhigh⟩ := h
  have hprivate := Platform.halves_private
  have hvalid : (Platform.halves + (unit - 0xD800)).isValidChar := .inr (by omega)
  rw [unitChar, if_pos (by simp [hlow, hhigh]), Platform.half, Char.ofNat, dif_pos hvalid]
  rfl

/-- An escape of half a pair is read as a character that stands for a half. -/
theorem isHalf_unitChar {unit : Nat} (h : IsHalf unit) :
    Platform.isHalf (unitChar unit) = true := by
  have hnumber := unitChar_of_isHalf h
  obtain ⟨hlow, hhigh⟩ := h
  rw [Platform.isHalf, hnumber, Bool.and_eq_true, decide_eq_true_eq, decide_eq_true_eq]
  omega

/-- Different halves are different characters. -/
theorem unitChar_inj {unit other : Nat} (h : IsHalf unit) (hother : IsHalf other)
    (heq : unitChar unit = unitChar other) : unit = other := by
  have hnumber := unitChar_of_isHalf h
  have hnumber' := unitChar_of_isHalf hother
  rw [heq, hnumber'] at hnumber
  obtain ⟨hlow, -⟩ := h
  obtain ⟨hlow', -⟩ := hother
  omega

theorem halvesFault?_eq_none_iff {cs : List Char} :
    halvesFault? cs = none ↔ ∀ c ∈ cs, Platform.isHalf c = false := by
  rw [halvesFault?]
  constructor
  · intro h
    split at h
    · rename_i hnone
      intro c hc
      have hall := List.dropWhile_eq_nil_iff.mp hnone c hc
      simpa using hall
    · cases h
  · intro h
    rw [List.dropWhile_eq_nil_iff.mpr fun c hc => by rw [h c hc]; rfl]

theorem unwritable?_eq_none_iff {value : Json} :
    value.unwritable? = none ↔
      ∀ cs ∈ value.textsWithin, ∀ c ∈ cs, Platform.isHalf c = false := by
  rw [unwritable?, List.findSome?_eq_none_iff]
  exact forall₂_congr fun _ _ => halvesFault?_eq_none_iff

end Json

namespace AnalysisRecord

/-- What is stored of a record is its text. -/
theorem encode_eq_of_encoded {r : AnalysisRecord} {text : String} (h : r.encoded = .ok text) :
    r.encode = text := by
  rw [encoded] at h
  split at h
  · cases h
  · exact Except.ok.inj h

/-- **A record is stored as its text**, if no half of a pair stands in one of its texts. -/
theorem encoded_eq_ok_iff {r : AnalysisRecord} :
    r.encoded = .ok r.encode ↔
      ∀ cs ∈ (r.toJson .wire).textsWithin, ∀ c ∈ cs, Platform.isHalf c = false := by
  rw [← Json.unwritable?_eq_none_iff, encoded]
  cases (r.toJson .wire).unwritable? with
  | none => simp
  | some reason => simp

/-- A record is stored as its text, if a check of all its texts finds no half. -/
theorem encoded_of_all {r : AnalysisRecord}
    (h : (r.toJson .wire).textsWithin.all (fun cs => cs.all (!Platform.isHalf ·)) = true) :
    r.encoded = .ok r.encode := by
  refine encoded_eq_ok_iff.mpr fun cs hcs c hc => ?_
  have hchar := List.all_eq_true.mp (List.all_eq_true.mp h cs hcs) c hc
  simpa using hchar

end AnalysisRecord

end ContractLens
