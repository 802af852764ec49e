import ContractLens.Calendar.Reader
import ContractLens.Proofs.Number.Digits
import Mathlib.Data.List.TakeDrop
/-!
# Points in time are read back

The text of a point in time is read back as the same point, in the same zone or in none, down to the
microsecond (`timestamp_toText`). Each part of the text is settled for any text that follows it.
-/

namespace ContractLens.Schema

/-! ## Dates -/

theorem exists_twoDigits {n : Nat} (h : n < 100) :
    ∃ a b, padZeros 2 (natDigits n) = [a, b] ∧ twoDigits? a b = some n := by
  obtain ⟨hlen, hdigits, hval⟩ := padZeros_natDigits (n := n) (by decide : 0 < 2) h
  match hp : padZeros 2 (natDigits n), hlen with
  | [a, b], _ =>
    rw [hp] at hdigits hval
    exact ⟨a, b, rfl, by simp [twoDigits?, hdigits a, hdigits b, hval]⟩

theorem exists_fourDigits {n : Nat} (h : n < 10000) :
    ∃ a b c d, padZeros 4 (natDigits n) = [a, b, c, d] ∧
      [a, b, c, d].all Char.isDigit = true ∧ Nat.ofDigitChars 10 [a, b, c, d] 0 = n := by
  obtain ⟨hlen, hdigits, hval⟩ := padZeros_natDigits (n := n) (by decide : 0 < 4) h
  match hp : padZeros 4 (natDigits n), hlen with
  | [a, b, c, d], _ =>
    rw [hp] at hdigits hval
    exact ⟨a, b, c, d, rfl, List.all_eq_true.mpr hdigits, hval⟩

theorem daysInMonth_le (year month : Nat) : daysInMonth year month ≤ 31 := by
  unfold daysInMonth
  split_ifs <;> omega

theorem readDate_dateText (date : Date) (rest : List Char) :
    readDate (Timestamp.dateText date.year date.month date.day ++ rest) =
      .ok (date.year, date.month, date.day, rest) := by
  obtain ⟨hy1, hy, hm1, hm, hd1, hd⟩ := date.valid
  have hd31 := daysInMonth_le date.year date.month
  obtain ⟨y1, y2, y3, y4, hyear, hall, hyval⟩ := exists_fourDigits (n := date.year) (by omega)
  obtain ⟨m1, m2, hmonth, hmval⟩ := exists_twoDigits (n := date.month) (by omega)
  obtain ⟨d1, d2, hday, hdval⟩ := exists_twoDigits (n := date.day) (by omega)
  have hmonths : ¬ (date.month = 0 ∨ 12 < date.month) := by omega
  have hdays : ¬ (date.day = 0 ∨ daysInMonth date.year date.month < date.day) := by omega
  simp only [Timestamp.dateText, hyear, hmonth, hday, List.cons_append, List.nil_append, readDate,
    hall, hmval, hdval, hyval]
  simp [hmonths, hdays]

theorem of?_date (date : Date) : Date.of? date.year date.month date.day = some date := by
  rw [Date.of?, dif_pos date.valid]

/-! ## Times of day -/

theorem of?_time (time : TimeOfDay) :
    TimeOfDay.of? time.hour time.minute time.second time.micro = some time := by
  rw [TimeOfDay.of?, dif_pos time.valid]

/-- What may follow the seconds: nothing, or a character that is no part of them. -/
def EndsSeconds (rest : List Char) : Prop :=
  ∀ c ∈ rest.head?, c.isDigit = false ∧ c ≠ '.' ∧ c ≠ ','

theorem readSeconds?_plain {a b : Char} {second : Nat} (hs : twoDigits? a b = some second)
    {rest : List Char} (hr : EndsSeconds rest) :
    readSeconds? (':' :: a :: b :: rest) = some (second, 0, rest) := by
  cases rest with
  | nil => simp [readSeconds?, hs]
  | cons c rest =>
    obtain ⟨-, hpoint, hcomma⟩ := hr c rfl
    simp [readSeconds?, hs, hpoint, hcomma]

theorem fractionMicros_six {digits : List Char} (h : digits.length = 6) :
    fractionMicros digits = Nat.ofDigitChars 10 digits 0 := by
  rw [fractionMicros, List.take_append_of_le_length (by omega), List.take_of_length_le (by omega)]

theorem readSeconds?_fraction {a b : Char} {second : Nat} (hs : twoDigits? a b = some second)
    {digits rest : List Char} (hlen : digits.length = 6)
    (hd : ∀ c ∈ digits, c.isDigit = true) (hr : EndsSeconds rest) :
    readSeconds? (':' :: a :: b :: '.' :: (digits ++ rest)) =
      some (second, Nat.ofDigitChars 10 digits 0, rest) := by
  have hspan : (digits ++ rest).span Char.isDigit = (digits, rest) := by
    rw [List.span_eq_takeWhile_dropWhile, List.takeWhile_append_of_pos hd,
      List.dropWhile_append_of_pos hd]
    cases rest with
    | nil => simp
    | cons c rest => simp [(hr c rfl).1]
  cases digits with
  | nil => cases hlen
  | cons d digits =>
    have hlong : ¬ 9 < (d :: digits).length := by omega
    simp only [readSeconds?, hs, Option.bind_eq_bind, Option.bind_some, beq_self_eq_true,
      Bool.true_or, if_true, hspan, if_neg hlong, fractionMicros_six hlen]

theorem readSeconds?_written (time : TimeOfDay) {rest : List Char} (hr : EndsSeconds rest) :
    readSeconds? (':' :: (padZeros 2 (natDigits time.second) ++
      (Timestamp.fractionText time.micro ++ rest))) = some (time.second, time.micro, rest) := by
  obtain ⟨-, -, hsecond, hmicro⟩ := time.valid
  obtain ⟨a, b, hab, hs⟩ := exists_twoDigits (n := time.second) (by omega)
  by_cases hzero : time.micro = 0
  · rw [hab, hzero]
    exact readSeconds?_plain hs hr
  -- six digits are written, so that none is cut off and none is made up
  · obtain ⟨hlen, hdigits, hval⟩ := padZeros_natDigits (by decide : 0 < 6) hmicro
    have hsome := readSeconds?_fraction hs hlen hdigits hr
    rw [hval] at hsome
    simpa [hab, Timestamp.fractionText, hzero] using hsome

/-! ## Zones -/

theorem endsSeconds_zoneText (zone : Zone) : EndsSeconds (Timestamp.zoneText zone) := by
  intro c hc
  rw [Timestamp.zoneText] at hc
  split at hc
  · cases hc
    decide
  · split at hc <;> (cases hc; decide)

/-- A plus, hours and minutes are a zone east of the universal time. -/
theorem readZone?_east {a b c d : Char} {hours minutes : Nat}
    (hhours : twoDigits? a b = some hours) (hminutes : twoDigits? c d = some minutes)
    (hlast : minutes ≤ 59) {total : Int} (htotal : total = hours * 60 + minutes)
    (hvalid : total.natAbs < 1440) :
    readZone? ['+', a, b, ':', c, d] = some (some ⟨total, hvalid⟩) := by
  subst htotal
  have hlast' : ¬ 59 < minutes := by omega
  simp only [readZone?, hhours, hminutes, hlast', beq_self_eq_true, if_true, if_false,
    Option.bind_eq_bind, Option.bind_some, dif_pos hvalid]

/-- A minus, hours and minutes are a zone west of the universal time. -/
theorem readZone?_west {a b c d : Char} {hours minutes : Nat}
    (hhours : twoDigits? a b = some hours) (hminutes : twoDigits? c d = some minutes)
    (hlast : minutes ≤ 59) {total : Int} (htotal : total = -(hours * 60 + minutes))
    (hvalid : total.natAbs < 1440) :
    readZone? ['-', a, b, ':', c, d] = some (some ⟨total, hvalid⟩) := by
  subst htotal
  have hlast' : ¬ 59 < minutes := by omega
  have hplus : ('-' == '+') = false := by decide
  simp only [readZone?, hhours, hminutes, hlast', hplus, beq_self_eq_true, Bool.false_eq_true,
    if_true, if_false, Option.bind_eq_bind, Option.bind_some, dif_pos hvalid]

theorem readZone?_zoneText (zone : Zone) :
    readZone? (Timestamp.zoneText zone) = some (some zone) := by
  obtain ⟨minutes, hvalid⟩ := zone
  by_cases hzero : minutes = 0
  · subst hzero
    rfl
  -- the sign stands in front, and the digits are those of the size
  · obtain ⟨a, b, hab, hhours⟩ := exists_twoDigits (n := minutes.natAbs / 60) (by omega)
    obtain ⟨c, d, hcd, hminutes⟩ := exists_twoDigits (n := minutes.natAbs % 60) (by omega)
    have hlast : minutes.natAbs % 60 ≤ 59 := by omega
    by_cases hneg : minutes < 0
    · have htext : Timestamp.zoneText ⟨minutes, hvalid⟩ = ['-', a, b, ':', c, d] := by
        simp [Timestamp.zoneText, hzero, hneg, hab, hcd]
      rw [htext]
      exact readZone?_west hhours hminutes hlast (by omega) hvalid
    · have htext : Timestamp.zoneText ⟨minutes, hvalid⟩ = ['+', a, b, ':', c, d] := by
        simp [Timestamp.zoneText, hzero, hneg, hab, hcd]
      rw [htext]
      exact readZone?_east hhours hminutes hlast (by omega) hvalid

/-- The text of a zone, or nothing where there is none. -/
def zoneEnd (zone : Option Zone) : List Char :=
  match zone with
  | some zone => Timestamp.zoneText zone
  | none => []

theorem toText_eq (t : Timestamp) :
    t.toText = Timestamp.dateText t.date.year t.date.month t.date.day ++ 'T' ::
      (Timestamp.clockText t.time.hour t.time.minute t.time.second ++
        Timestamp.fractionText t.time.micro ++ zoneEnd t.zone) := by
  obtain ⟨date, time, zone⟩ := t
  cases zone <;> rfl

theorem endsSeconds_zoneEnd (zone : Option Zone) : EndsSeconds (zoneEnd zone) := by
  cases zone with
  | none =>
    intro c hc
    cases hc
  | some zone => exact endsSeconds_zoneText zone

theorem readZone?_zoneEnd (zone : Option Zone) : readZone? (zoneEnd zone) = some zone := by
  cases zone with
  | none => rfl
  | some zone => exact readZone?_zoneText zone

/-! ## Whole texts -/

theorem readTime?_written (time : TimeOfDay) (zone : Option Zone) :
    readTime? (Timestamp.clockText time.hour time.minute time.second ++
      Timestamp.fractionText time.micro ++ zoneEnd zone) = some (time, zone) := by
  obtain ⟨hhour, hminute, -, -⟩ := time.valid
  obtain ⟨a, b, hab, hh⟩ := exists_twoDigits (n := time.hour) (by omega)
  obtain ⟨c, d, hcd, hm⟩ := exists_twoDigits (n := time.minute) (by omega)
  have hs := readSeconds?_written time (endsSeconds_zoneEnd zone)
  simp only [Timestamp.clockText, hab, hcd, List.cons_append, List.nil_append, List.append_assoc,
    readTime?, hh, hm, hs, of?_time, readZone?_zoneEnd, Option.bind_eq_bind, Option.bind_some,
    Option.pure_def]

theorem readMoment?_toText (t : Timestamp) : readMoment? t.toText = some t := by
  have hdate := readDate_dateText t.date ('T' ::
    (Timestamp.clockText t.time.hour t.time.minute t.time.second ++
      Timestamp.fractionText t.time.micro ++ zoneEnd t.zone))
  rw [toText_eq]
  simp only [readMoment?, hdate, of?_date, readTime?_written, beq_self_eq_true, Bool.true_or,
    if_true, Option.bind_eq_bind, Option.bind_some, Option.pure_def]

theorem dropWhile_of_forall {p : Char → Bool} {cs : List Char} (h : ∀ c ∈ cs, p c = false) :
    cs.dropWhile p = cs := by
  cases cs with
  | nil => rfl
  | cons c cs => rw [List.dropWhile_cons_of_neg (by simp [h c])]

theorem trimBy_of_forall {p : Char → Bool} {cs : List Char} (h : ∀ c ∈ cs, p c = false) :
    Text.trimBy p cs = cs := by
  rw [Text.trimBy, dropWhile_of_forall h,
    dropWhile_of_forall fun c hc => h c (List.mem_reverse.mp hc), List.reverse_reverse]

theorem isWhiteSpace_of_isDigit {c : Char} (h : c.isDigit = true) :
    Text.isWhiteSpace c = false := by
  simp only [Char.isDigit, Bool.and_eq_true, decide_eq_true_eq] at h
  have hlow : 48 ≤ c.toNat := h.1
  have hhigh : c.toNat ≤ 57 := h.2
  simp [Text.isWhiteSpace, Text.isBlank]
  omega

theorem not_isWhiteSpace_padZeros (width n : Nat) :
    ∀ c ∈ padZeros width (natDigits n), Text.isWhiteSpace c = false :=
  fun _ hc => isWhiteSpace_of_isDigit (isDigit_of_mem_padZeros hc)

theorem not_isWhiteSpace_zoneEnd (zone : Option Zone) :
    ∀ c ∈ zoneEnd zone, Text.isWhiteSpace c = false := by
  cases zone with
  | none => simp [zoneEnd]
  | some zone =>
    rw [zoneEnd, Timestamp.zoneText]
    have hsign : Text.isWhiteSpace (if zone.minutes < 0 then '-' else '+') = false := by
      split <;> decide
    split
    · exact List.forall_mem_singleton.mpr (by decide)
    · simp only [List.forall_mem_cons, List.forall_mem_append]
      exact ⟨hsign, not_isWhiteSpace_padZeros _ _, by decide, not_isWhiteSpace_padZeros _ _⟩

theorem not_isWhiteSpace_fractionText (micro : Nat) :
    ∀ c ∈ Timestamp.fractionText micro, Text.isWhiteSpace c = false := by
  rw [Timestamp.fractionText]
  split
  · simp
  · simp only [List.forall_mem_cons]
    exact ⟨by decide, not_isWhiteSpace_padZeros _ _⟩

/-- No blank stands in the text of a point in time. -/
theorem not_isWhiteSpace_toText (t : Timestamp) :
    ∀ c ∈ t.toText, Text.isWhiteSpace c = false := by
  have hnum := not_isWhiteSpace_padZeros
  rw [toText_eq, Timestamp.dateText, Timestamp.clockText]
  simp only [List.forall_mem_append, List.forall_mem_cons]
  exact ⟨⟨hnum _ _, by decide, hnum _ _, by decide, hnum _ _⟩, by decide,
    ⟨⟨hnum _ _, by decide, hnum _ _, by decide, hnum _ _⟩, not_isWhiteSpace_fractionText _⟩,
    not_isWhiteSpace_zoneEnd _⟩

/-- **A point in time is read back from its text.** -/
theorem timestamp_toText (t : Timestamp) :
    timestamp (.text (String.ofList t.toText)) = .accepted t := by
  simp only [timestamp, readTimeText, String.toList_ofList,
    trimBy_of_forall (not_isWhiteSpace_toText t), readMoment?_toText]

end ContractLens.Schema
