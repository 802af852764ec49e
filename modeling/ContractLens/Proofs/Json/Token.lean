import ContractLens.Json.Reader
import ContractLens.Json.Writer
import ContractLens.Proofs.Number.Digits
import Mathlib.Data.List.TakeDrop
/-!
# Numbers and texts

The grammar of the tokens that vary: `Numeral` holds the parts of a number, and `Chars` says which
text the characters between two quotation marks stand for. A token is read for what it means,
whatever follows it (`readNumber_numeral`, `readText_chars`); the one number that is refused is
whole and has more digits than the reader takes.

Whole numbers and texts are written in this grammar (`Numeral.chars_ofInt`,
`chars_flatMap_writeChar`).
-/

namespace ContractLens.Json

/-! ## Numbers -/

/-- What may stand after a value: nothing, a comma, a closing bracket or a blank. -/
def Follows (rest : List Char) : Prop :=
  ∀ c ∈ rest.head?, c = ',' ∨ c = ']' ∨ c = '\x7d' ∨ isSpace c = true

theorem Follows.cases {rest : List Char} (h : Follows rest) {c : Char} (hc : c ∈ rest.head?) :
    c = ',' ∨ c = ']' ∨ c = '\x7d' ∨ c = ' ' ∨ c = '\n' ∨ c = '\t' ∨ c = '\r' := by
  simpa [isSpace, or_assoc] using h c hc

/-- A run of digits with at least one of them. -/
structure Digits (cs : List Char) : Prop where
  /-- There is one. -/
  ne_nil : cs ≠ []
  /-- Nothing else is among them. -/
  isDigit : ∀ c ∈ cs, c.isDigit = true

/-- The power of ten behind a number. -/
structure Power where
  /-- The mark in front of it. -/
  mark : Char
  /-- The sign, if one is written. -/
  sign : List Char
  /-- The digits. -/
  digits : List Char
  isMark : mark = 'e' ∨ mark = 'E'
  isSign : sign = [] ∨ sign = ['+'] ∨ sign = ['-']
  isDigits : Digits digits

/-- A power of ten as it is written. -/
def Power.chars (power : Power) : List Char := power.mark :: (power.sign ++ power.digits)

/-- The exponent that is meant. -/
def Power.value (power : Power) : Int :=
  let magnitude : Int := Nat.ofDigitChars 10 power.digits 0
  if power.sign = ['-'] then -magnitude else magnitude

/-- The parts of a number. -/
structure Numeral where
  /-- Whether a minus sign stands in front. -/
  negative : Bool
  /-- The digits before the point. -/
  whole : List Char
  /-- The digits after the point; without any there is no point. -/
  fraction : List Char
  /-- The power of ten, if one is written. -/
  power : Option Power
  isWhole : Digits whole
  /-- Only a single zero stands in front. -/
  leading : whole.head? = some '0' → whole = ['0']
  isFraction : ∀ c ∈ fraction, c.isDigit = true

namespace Numeral

/-- The point and the digits after it. -/
def fractionChars (n : Numeral) : List Char :=
  if n.fraction.isEmpty then [] else '.' :: n.fraction

/-- The power of ten as it is written. -/
def powerChars (n : Numeral) : List Char := (n.power.map Power.chars).getD []

/-- What is behind the digits before the point. -/
def tail (n : Numeral) : List Char := n.fractionChars ++ n.powerChars

/-- A number as it is written. -/
def chars (n : Numeral) : List Char := Binary64.signText n.negative ++ (n.whole ++ n.tail)

/-- Whether a number has neither a point nor a power of ten. -/
def isInteger (n : Numeral) : Bool := n.fraction.isEmpty && n.power.isNone

/-- The whole number written before the point. -/
def integer (n : Numeral) : Int :=
  let magnitude : Int := Nat.ofDigitChars 10 n.whole 0
  if n.negative then -magnitude else magnitude

/-- The value of a number: exact when it is whole, else the binary number next to it. -/
def value (n : Numeral) : Json :=
  if n.isInteger then int n.integer
  else float (.ofDecimal n.negative (Nat.ofDigitChars 10 (n.whole ++ n.fraction) 0)
    ((n.power.map Power.value).getD 0 - n.fraction.length))

end Numeral

theorem takeDigits_append {digits rest : List Char} (hd : ∀ c ∈ digits, c.isDigit = true)
    (hr : ∀ c ∈ rest.head?, c.isDigit = false) : takeDigits (digits ++ rest) = (digits, rest) := by
  rw [takeDigits, List.span_eq_takeWhile_dropWhile, List.takeWhile_append_of_pos hd,
    List.dropWhile_append_of_pos hd]
  cases rest with
  | nil => simp
  | cons c rest => simp [hr c (by simp)]

theorem takeWhole?_append {digits rest : List Char} (hd : Digits digits)
    (hzero : digits.head? = some '0' → digits = ['0'])
    (hr : ∀ c ∈ rest.head?, c.isDigit = false) :
    takeWhole? (digits ++ rest) = some (digits, rest) := by
  have hall := takeDigits_append hd.isDigit hr
  obtain ⟨c, more, rfl⟩ := List.exists_cons_of_ne_nil hd.ne_nil
  rw [List.cons_append] at hall ⊢
  unfold takeWhole?
  split
  · rename_i h
    obtain ⟨rfl, rfl⟩ := List.cons.inj h
    rw [(List.cons.inj (hzero rfl)).2]
    rfl
  · rename_i h
    obtain ⟨rfl, rfl⟩ := List.cons.inj h
    rw [if_pos (hd.isDigit _ List.mem_cons_self), hall]
  · rename_i h
    cases h

theorem takeFraction_of_ne {rest : List Char} (h : rest.head? ≠ some '.') :
    takeFraction rest = ([], rest) := by
  unfold takeFraction
  split
  · exact absurd rfl h
  · rfl

theorem takeFraction_append {digits rest : List Char} (hd : Digits digits)
    (hr : ∀ c ∈ rest.head?, c.isDigit = false) :
    takeFraction ('.' :: (digits ++ rest)) = (digits, rest) := by
  have htake := takeDigits_append hd.isDigit hr
  obtain ⟨c, more, rfl⟩ := List.exists_cons_of_ne_nil hd.ne_nil
  simp only [takeFraction, htake]

theorem takeExponent_of_ne {rest : List Char} (h : ∀ c ∈ rest.head?, c ≠ 'e' ∧ c ≠ 'E') :
    takeExponent rest = (none, rest) := by
  cases rest with
  | nil => rfl
  | cons c rest =>
    obtain ⟨h1, h2⟩ := h c (by simp)
    simp [takeExponent, h1, h2]

theorem takeExponent_append (power : Power) {rest : List Char}
    (hr : ∀ c ∈ rest.head?, c.isDigit = false) :
    takeExponent (power.chars ++ rest) = (some power.value, rest) := by
  obtain ⟨mark, sign, digits, hmark, hsign, hdigits⟩ := power
  have htake := takeDigits_append hdigits.isDigit hr
  obtain ⟨c, more, rfl⟩ := List.exists_cons_of_ne_nil hdigits.ne_nil
  have hc : c.isDigit = true := hdigits.isDigit c List.mem_cons_self
  have hplain : ∀ sign : Char, sign.isDigit = false → c ≠ sign := by
    rintro sign h rfl
    rw [h] at hc
    cases hc
  have hmarked : (mark == 'e' || mark == 'E') = true := by simpa using hmark
  rw [List.cons_append] at htake
  rcases hsign with rfl | rfl | rfl
  · simp [Power.chars, Power.value, takeExponent, hmarked, htake, hplain '-' rfl, hplain '+' rfl]
  · simp [Power.chars, Power.value, takeExponent, hmarked, htake]
  · simp [Power.chars, Power.value, takeExponent, hmarked, htake]


namespace Numeral

variable (n : Numeral) {rest : List Char}

theorem head_powerChars (hr : Follows rest) {c : Char} (hc : c ∈ (n.powerChars ++ rest).head?) :
    (n.power = none → c ≠ 'e' ∧ c ≠ 'E') ∧ c ≠ '.' ∧ c ≠ 'I' ∧ c.isDigit = false := by
  rw [powerChars] at hc
  cases hp : n.power with
  | none =>
    rw [hp] at hc
    rcases hr.cases hc with rfl | rfl | rfl | rfl | rfl | rfl | rfl <;> decide
  | some power =>
    rw [hp] at hc
    obtain rfl : power.mark = c := Option.some.inj hc
    refine ⟨nofun, ?_⟩
    rcases power.isMark with h | h <;> rw [h] <;> decide

theorem head_tail (hr : Follows rest) {c : Char} (hc : c ∈ (n.tail ++ rest).head?) :
    c ≠ 'I' ∧ c.isDigit = false := by
  rw [tail, fractionChars, List.append_assoc] at hc
  split at hc
  · exact (n.head_powerChars hr hc).2.2
  · obtain rfl : '.' = c := Option.some.inj hc
    decide

/-- The parts of a number are taken off its text one after the other. -/
theorem takeFraction_tail (hr : Follows rest) :
    takeFraction (n.tail ++ rest) = (n.fraction, n.powerChars ++ rest) := by
  rw [tail, fractionChars, List.append_assoc]
  by_cases hf : n.fraction = []
  · rw [hf, List.isEmpty_nil, if_pos rfl, List.nil_append]
    exact takeFraction_of_ne fun h => (n.head_powerChars hr h).2.1 rfl
  · rw [if_neg (by simpa using hf), List.cons_append]
    exact takeFraction_append ⟨hf, n.isFraction⟩ fun c hc => (n.head_powerChars hr hc).2.2.2

theorem takeExponent_powerChars (hr : Follows rest) :
    takeExponent (n.powerChars ++ rest) = (n.power.map Power.value, rest) := by
  have hdigit : ∀ c ∈ rest.head?, c.isDigit = false := by
    intro c hc
    rcases hr.cases hc with rfl | rfl | rfl | rfl | rfl | rfl | rfl <;> rfl
  rw [powerChars]
  cases hp : n.power with
  | none =>
    refine takeExponent_of_ne fun c hc => (n.head_powerChars hr ?_).1 hp
    rw [powerChars, hp]
    exact hc
  | some power => exact takeExponent_append power hdigit

/-- The sign in front is the minus sign that the reader looks for. -/
theorem sign_eq {unsigned body : List Char} {negative : Bool} (hu : unsigned.head? ≠ some '-')
    (h : (match Binary64.signText n.negative ++ unsigned with
      | '-' :: body => (true, body)
      | body => (false, body)) = (negative, body)) : negative = n.negative ∧ body = unsigned := by
  cases hn : n.negative with
  | true =>
    rw [hn] at h
    obtain ⟨rfl, rfl⟩ := Prod.mk.inj h
    exact ⟨rfl, rfl⟩
  | false =>
    rw [hn] at h
    simp only [Binary64.signText, Bool.false_eq_true, if_false, List.nil_append] at h
    split at h
    · exact absurd rfl hu
    · obtain ⟨rfl, rfl⟩ := Prod.mk.inj h
      exact ⟨rfl, rfl⟩

end Numeral

/-- **A number is read from its text**, unless it is whole and has too many digits. -/
theorem readNumber_numeral (n : Numeral) {rest : List Char} (hr : Follows rest) :
    readNumber (n.chars ++ rest) =
      if n.isInteger && decide (maxIntegerDigits < n.whole.length) then
        .error (.hugeInteger n.whole.length)
      else .ok (n.value, rest) := by
  have hwhole := takeWhole?_append n.isWhole n.leading fun c hc => (n.head_tail hr hc).2
  have hminus : (n.whole ++ (n.tail ++ rest)).head? ≠ some '-' := by
    obtain ⟨c, more, hc⟩ := List.exists_cons_of_ne_nil n.isWhole.ne_nil
    have hdigit := n.isWhole.isDigit c (by rw [hc]; exact List.mem_cons_self)
    rw [hc]
    rintro h
    rw [Option.some.inj h] at hdigit
    exact absurd hdigit (by decide)
  rw [Numeral.chars, List.append_assoc, List.append_assoc]
  unfold readNumber
  split
  rename_i negative body h
  obtain ⟨rfl, rfl⟩ := n.sign_eq hminus h
  simp only [hwhole, n.takeFraction_tail hr, n.takeExponent_powerChars hr, Option.isNone_map]
  cases hi : n.fraction.isEmpty && n.power.isNone
  · simp [Numeral.value, Numeral.isInteger, hi]
  · simp [Numeral.value, Numeral.isInteger, hi, Numeral.integer]

/-! ## Texts -/

/-- Four digits in base sixteen, and the UTF-16 unit that they name. -/
inductive FourDigits : List Char → Nat → Prop
  | mk {a b c d : Char} {w x y z : Nat} :
      hexValue? a = some w → hexValue? b = some x → hexValue? c = some y → hexValue? d = some z →
      FourDigits [a, b, c, d] (((w * 16 + x) * 16 + y) * 16 + z)

/-- A text that starts with the escape of a low surrogate. -/
def LowFirst (cs : List Char) : Prop :=
  ∃ digits low rest, cs = '\\' :: 'u' :: (digits ++ rest) ∧ FourDigits digits low ∧
    isLowSurrogate low = true

variable [Platform]

/-- Which text the characters between two quotation marks stand for. -/
inductive Chars : (written meant : List Char) → Prop
  | nil : Chars [] []
  /-- Any character but a quotation mark, a backslash and the controls stands for itself. -/
  | plain {c : Char} {cs s : List Char} :
      c ≠ '\x22' → c ≠ '\\' → 0x20 ≤ c.toNat → Chars cs s → Chars (c :: cs) (c :: s)
  /-- A backslash and a letter. -/
  | short {e c : Char} {cs s : List Char} :
      shortEscape? e = some c → Chars cs s → Chars ('\\' :: e :: cs) (c :: s)
  /-- A single UTF-16 unit. -/
  | unit {digits : List Char} {unit : Nat} {cs s : List Char} :
      FourDigits digits unit → (isHighSurrogate unit = true → ¬ LowFirst cs) → Chars cs s →
      Chars ('\\' :: 'u' :: (digits ++ cs)) (unitChar unit :: s)
  /-- A pair of surrogates. -/
  | pair {first second : List Char} {high low : Nat} {cs s : List Char} :
      FourDigits first high → isHighSurrogate high = true →
      FourDigits second low → isLowSurrogate low = true → Chars cs s →
      Chars ('\\' :: 'u' :: (first ++ '\\' :: 'u' :: (second ++ cs)))
        (Char.ofNat (0x10000 + (high - 0xD800) * 0x400 + (low - 0xDC00)) :: s)

omit [Platform] in
theorem FourDigits.length {digits : List Char} {unit : Nat} (h : FourDigits digits unit) :
    digits.length = 4 := by
  cases h
  rfl

omit [Platform] in
/-- Four digits are read, if a character follows them. -/
theorem readUnit?_append {digits : List Char} {unit : Nat} (h : FourDigits digits unit) (e : Char)
    (rest : List Char) : readUnit? (digits ++ e :: rest) = some (unit, e :: rest) := by
  cases h with
  | mk ha hb hc hd =>
    simp only [List.cons_append, List.nil_append, readUnit?, ha, hb, hc, hd, Option.bind_eq_bind,
      Option.bind_some, Option.pure_def]

/-- In a text, `\\u` is always followed by four digits. -/
theorem Chars.exists_fourDigits {cs s after rest : List Char} (h : Chars cs s)
    (he : cs ++ '\x22' :: rest = '\\' :: 'u' :: after) :
    ∃ digits unit more, cs = '\\' :: 'u' :: (digits ++ more) ∧ FourDigits digits unit ∧
      after = digits ++ (more ++ '\x22' :: rest) := by
  cases h with
  | nil => exact absurd (List.cons.inj he).1 (by decide)
  | plain _ hc _ _ => exact absurd (List.cons.inj he).1 hc
  | short hs _ =>
    rw [(List.cons.inj (List.cons.inj he).2).1] at hs
    cases hs
  | unit hd _ _ =>
    refine ⟨_, _, _, rfl, hd, ?_⟩
    rw [← List.append_assoc]
    exact ((List.cons.inj (List.cons.inj he).2).2).symm
  | pair hd _ _ _ _ =>
    refine ⟨_, _, _, rfl, hd, ?_⟩
    rw [← List.append_assoc]
    exact ((List.cons.inj (List.cons.inj he).2).2).symm

omit [Platform] in
theorem exists_cons_of_append_cons (cs : List Char) (c : Char) (rest : List Char) :
    ∃ e more, cs ++ c :: rest = e :: more := by
  cases cs with
  | nil => exact ⟨c, rest, rfl⟩
  | cons e cs => exact ⟨e, cs ++ c :: rest, rfl⟩

/-- A unit that is not the first one of a pair is read as a character of its own. -/
theorem readUnicodeEscape_unit {digits : List Char} {unit : Nat} {cs s : List Char}
    (h : FourDigits digits unit) (hsingle : isHighSurrogate unit = true → ¬ LowFirst cs)
    (hcs : Chars cs s) (rest : List Char) :
    readUnicodeEscape (digits ++ (cs ++ '\x22' :: rest)) =
      .ok (unitChar unit, cs ++ '\x22' :: rest) := by
  obtain ⟨e, more, hmore⟩ := exists_cons_of_append_cons cs '\x22' rest
  have hread : readUnit? (digits ++ (cs ++ '\x22' :: rest)) =
      some (unit, cs ++ '\x22' :: rest) := by
    rw [hmore]
    exact readUnit?_append h e more
  simp only [readUnicodeEscape, hread]
  split
  · rename_i after hhigh hafter
    -- the escape behind a high surrogate is that of another unit, since no low one follows
    obtain ⟨second, low, behind, rfl, hsecond, rfl⟩ := hcs.exists_fourDigits hafter
    obtain ⟨e, more, hmore⟩ := exists_cons_of_append_cons behind '\x22' rest
    have hlow : isLowSurrogate low = false := by
      refine Bool.eq_false_iff.mpr fun hlow => hsingle hhigh ?_
      exact ⟨second, low, behind, rfl, hsecond, hlow⟩
    split
    · rfl
    · rw [hmore, readUnit?_append hsecond e more]
      simp only [hlow, Bool.false_eq_true, if_false]
  · rfl

/-- A high and a low surrogate, each written as an escape, are read as one character. -/
theorem readUnicodeEscape_pair {first second : List Char} {high low : Nat}
    (hfirst : FourDigits first high) (hhigh : isHighSurrogate high = true)
    (hsecond : FourDigits second low) (hlow : isLowSurrogate low = true) (e : Char)
    (rest : List Char) :
    readUnicodeEscape (first ++ '\\' :: 'u' :: (second ++ e :: rest)) =
      .ok (Char.ofNat (0x10000 + (high - 0xD800) * 0x400 + (low - 0xDC00)), e :: rest) := by
  have hlong : ¬ (second ++ e :: rest).length ≤ 4 := by
    rw [List.length_append, hsecond.length, List.length_cons]
    omega
  simp only [readUnicodeEscape, readUnit?_append hfirst, hhigh, hlong, if_false,
    readUnit?_append hsecond, hlow, if_true]

/-- **A text is read from what is written between its marks.** -/
theorem readText_chars {cs s : List Char} (h : Chars cs s) (start : Nat) (rest done : List Char)
    (fuel : Nat) (hfuel : cs.length < fuel) :
    readText start fuel done (cs ++ '\x22' :: rest) = .ok (done.reverse ++ s, rest) := by
  induction h generalizing fuel done with
  | nil =>
    obtain ⟨fuel, rfl⟩ := Nat.exists_eq_add_of_lt hfuel
    simp [readText]
  | plain hmark hslash hcontrol _ ih =>
    rw [List.length_cons] at hfuel
    obtain ⟨fuel, rfl⟩ : ∃ f, fuel = f + 1 := ⟨fuel - 1, by omega⟩
    have hcontrol := Nat.not_lt.mpr hcontrol
    simp [readText, hmark, hslash, hcontrol, ih _ fuel (by omega)]
  | @short e _ _ _ hescape _ ih =>
    have hu : (e == 'u') = false := by
      refine beq_false_of_ne ?_
      rintro rfl
      cases hescape
    simp only [List.length_cons] at hfuel
    obtain ⟨fuel, rfl⟩ : ∃ f, fuel = f + 1 := ⟨fuel - 1, by omega⟩
    simp [readText, hu, hescape, ih _ fuel (by omega)]
  | unit hd hsingle hcs ih =>
    simp only [List.length_cons, List.length_append] at hfuel
    obtain ⟨fuel, rfl⟩ : ∃ f, fuel = f + 1 := ⟨fuel - 1, by omega⟩
    simp [readText, readUnicodeEscape_unit hd hsingle hcs, ih _ fuel (by omega)]
  | @pair _ _ high low cs _ hfirst hhigh hsecond hlow _ ih =>
    simp only [List.length_cons, List.length_append] at hfuel
    obtain ⟨fuel, rfl⟩ : ∃ f, fuel = f + 1 := ⟨fuel - 1, by omega⟩
    obtain ⟨e, more, hmore⟩ := exists_cons_of_append_cons cs '\x22' rest
    generalize hpair : Char.ofNat (0x10000 + (high - 0xD800) * 0x400 + (low - 0xDC00)) = c
    have hescape := readUnicodeEscape_pair hfirst hhigh hsecond hlow e more
    have hstep := ih (c :: done) fuel (by omega)
    rw [hpair] at hescape
    rw [hmore] at hstep
    simp [readText, hmore, hescape, hstep]

/-! ## Written numbers and texts -/

/-- A whole number in its digits. -/
def Numeral.ofInt (n : Int) : Numeral where
  negative := decide (n < 0)
  whole := natDigits n.natAbs
  fraction := []
  power := none
  isWhole := ⟨natDigits_ne_nil _, fun _ => isDigit_of_mem_natDigits⟩
  leading := fun h => by
    rcases Nat.eq_zero_or_pos n.natAbs with hz | hpos
    · rw [hz]
      rfl
    · exact absurd h (head_natDigits_ne hpos)
  isFraction := fun _ h => absurd h List.not_mem_nil

omit [Platform] in
theorem Numeral.chars_ofInt (n : Int) : (ofInt n).chars = intDigits n := by
  have htail : (ofInt n).tail = [] := rfl
  rw [chars, htail, List.append_nil, intDigits]
  by_cases hneg : n < 0 <;> simp [ofInt, hneg, Binary64.signText]

omit [Platform] in
theorem Numeral.value_ofInt (n : Int) : (ofInt n).value = int n := by
  have hinteger : (ofInt n).isInteger = true := rfl
  rw [value, if_pos hinteger, integer]
  simp only [ofInt, ofDigitChars_natDigits, decide_eq_true_eq]
  refine congrArg int ?_
  split <;> omega

omit [Platform] in
theorem hexValue?_digitChar {n : Nat} (h : n < 16) : hexValue? (Nat.digitChar n) = some n := by
  have hall : ∀ k : Fin 16, hexValue? (Nat.digitChar k) = some k.val := by decide
  exact hall ⟨n, h⟩

omit [Platform] in
theorem fourDigits_hexDigits {n : Nat} (h : n < 0x10000) : FourDigits (hexDigits 4 n) n := by
  have hsum : ((n / 4096 * 16 + n / 256 % 16) * 16 + n / 16 % 16) * 16 + n % 16 = n := by omega
  have hdigits := FourDigits.mk (hexValue?_digitChar (show n / 4096 < 16 by omega))
    (hexValue?_digitChar (show n / 256 % 16 < 16 by omega))
    (hexValue?_digitChar (show n / 16 % 16 < 16 by omega))
    (hexValue?_digitChar (show n % 16 < 16 by omega))
  rwa [hsum, ← hexDigits_four h] at hdigits

omit [Platform] in
theorem toNat_lt_of_valid (c : Char) : c.toNat < 0x110000 := by
  rcases c.valid with hlow | ⟨-, hbound⟩
  · exact Nat.lt_trans hlow (by decide)
  · exact hbound

omit [Platform] in
/-- No character is a surrogate. -/
theorem not_surrogate (c : Char) : ¬ (0xD800 ≤ c.toNat ∧ c.toNat ≤ 0xDFFF) := by
  rcases c.valid with hlow | ⟨hhigh, -⟩
  · have : c.toNat < 0xD800 := hlow
    omega
  · have : 0xDFFF < c.toNat := hhigh
    omega

theorem unitChar_toNat (c : Char) : unitChar c.toNat = c := by
  rw [unitChar, if_neg (by simpa using not_surrogate c), Char.ofNat_toNat]

/-- The escapes of a character stand for it. -/
theorem chars_unicodeEscape (c : Char) {cs s : List Char} (h : Chars cs s) :
    Chars (unicodeEscape c ++ cs) (c :: s) := by
  have hbound := toNat_lt_of_valid c
  unfold unicodeEscape
  split
  · rename_i hlt
    have hsingle : isHighSurrogate c.toNat = true → ¬ LowFirst cs := by
      intro hhigh
      simp only [isHighSurrogate, Bool.and_eq_true, decide_eq_true_eq] at hhigh
      exact absurd ⟨hhigh.1, by omega⟩ (not_surrogate c)
    have hunit := Chars.unit (fourDigits_hexDigits hlt) hsingle h
    rwa [unitChar_toNat] at hunit
  · dsimp only
    generalize hhigh : 0xD800 + (c.toNat - 0x10000) / 0x400 = high
    generalize hlow : 0xDC00 + (c.toNat - 0x10000) % 0x400 = low
    have hhigh' : isHighSurrogate high = true := by
      simp only [isHighSurrogate, Bool.and_eq_true, decide_eq_true_eq]
      omega
    have hlow' : isLowSurrogate low = true := by
      simp only [isLowSurrogate, Bool.and_eq_true, decide_eq_true_eq]
      omega
    have hvalue : 0x10000 + (high - 0xD800) * 0x400 + (low - 0xDC00) = c.toNat := by omega
    have hpair := Chars.pair (fourDigits_hexDigits (n := high) (by omega)) hhigh'
      (fourDigits_hexDigits (n := low) (by omega)) hlow' h
    rw [hvalue, Char.ofNat_toNat] at hpair
    rwa [unitEscape, unitEscape, List.cons_append, List.cons_append, List.cons_append,
      List.cons_append, List.append_assoc, List.cons_append, List.cons_append]

/-- One written character stands for itself. -/
theorem chars_writeChar (ascii : Bool) (c : Char) {cs s : List Char} (h : Chars cs s) :
    Chars (writeChar ascii c ++ cs) (c :: s) := by
  unfold writeChar
  split
  · rename_i hmark
    rcases Bool.or_eq_true_iff.mp hmark with hc | hc <;> rw [beq_iff_eq.mp hc] <;>
      exact .short rfl h
  iterate 5
    split
    · rename_i hc
      rw [beq_iff_eq.mp hc]
      exact .short rfl h
  split
  · exact chars_unicodeEscape c h
  · rename_i hmark _ _ _ _ _ hplain
    simp only [Bool.or_eq_true, beq_iff_eq, decide_eq_true_eq, not_or] at hmark hplain
    exact .plain hmark.1 hmark.2 (Nat.le_of_not_lt hplain.1) h

/-- **What is written between quotation marks stands for the text.** -/
theorem chars_flatMap_writeChar (ascii : Bool) (s : List Char) :
    Chars (s.flatMap (writeChar ascii)) s := by
  induction s with
  | nil => exact .nil
  | cons c s ih =>
    rw [List.flatMap_cons]
    exact chars_writeChar ascii c ih

end ContractLens.Json
