import ContractLens.Proofs.Import.Statement
import ContractLens.Proofs.Text.Seam
/-!
# Reading back written statements

An import statement is written in one of four forms (`Statement.text`), with blanks of any kind and
length where the form has some. Between statements there may be any text in which the keyword does
not stand and after which no word goes on (`Filler`).

A search passes over such a text, since nothing but the keyword starts a statement. At a statement
it reads the path and takes all that was written, whatever comes behind the semicolon
(`statement_text`): so no part of a statement is read as another one, not even a list of names that
looks like one. Hence the paths of a text are those of its statements (`extract_written`).
-/

namespace ContractLens

namespace Import

open Text

/-! ## What is written -/

/-- Blanks, at least one. -/
structure Gap where
  /-- The blanks. -/
  text : List Char
  /-- There is one. -/
  ne : text ≠ []
  /-- They are blanks. -/
  blank : ∀ c ∈ text, isBlank c = true

/-- A name under which something is imported. -/
structure Name where
  /-- The characters. -/
  text : List Char
  /-- There is one. -/
  ne : text ≠ []
  /-- They are word characters. -/
  isWord : ∀ c ∈ text, isWordChar c = true

/-- A path between two quotation marks of one kind. -/
structure Quotation where
  /-- The mark. -/
  mark : Char
  /-- The path. -/
  path : List Char
  /-- The mark is one of the two. -/
  isMark : isQuote mark = true
  /-- The path is not empty. -/
  ne : path ≠ []
  /-- There is no mark in it, of whatever kind. -/
  free : ∀ c ∈ path, isQuote c = false

/-- The path between its marks. -/
def Quotation.text (quotation : Quotation) : List Char :=
  quotation.mark :: (quotation.path ++ [quotation.mark])

/-- A name said behind `as`. -/
structure Label where
  /-- The blanks before `as`. -/
  before : Gap
  /-- The blanks behind it. -/
  after : Gap
  /-- The name. -/
  name : Name

/-- What stands behind the star or the path. -/
def Label.text (label : Label) : List Char :=
  label.before.text ++ (['a', 's'] ++ (label.after.text ++ label.name.text))

/-- A path said behind `from`. -/
structure Origin where
  /-- The blanks before `from`. -/
  before : Gap
  /-- The blanks behind it. -/
  after : Gap
  /-- The path. -/
  source : Quotation

/-- What stands behind the star's name or the braces. -/
def Origin.text (origin : Origin) : List Char :=
  origin.before.text ++ (['f', 'r', 'o', 'm'] ++ (origin.after.text ++ origin.source.text))

/-- The forms of an import, behind the keyword and its blanks. -/
inductive Form where
  /-- All of a file. -/
  | plain (source : Quotation)
  /-- All of it under a name, said behind the path. -/
  | aliased (source : Quotation) (label : Label)
  /-- All of it under a name, said before the path. -/
  | star (label : Label) (origin : Origin)
  /-- What is listed between braces. -/
  | names (list : List Char) (closed : '\x7d' ∉ list) (origin : Origin)

namespace Form

/-- The path that is imported. -/
def source : Form → Quotation
  | .plain source => source
  | .aliased source _ => source
  | .star _ origin => origin.source
  | .names _ _ origin => origin.source

/-- An import as it is written. -/
def text : Form → List Char
  | .plain source => source.text
  | .aliased source label => source.text ++ label.text
  | .star label origin => '*' :: (label.text ++ origin.text)
  | .names list _ origin => '\x7b' :: (list ++ '\x7d' :: origin.text)

end Form

/-- An import statement. -/
structure Statement where
  /-- The blanks behind the keyword. -/
  gap : Gap
  /-- What is imported. -/
  form : Form

namespace Statement

/-- The path that a statement imports. -/
def path (s : Statement) : String := String.ofList s.form.source.path

/-- A statement as it is written, up to its semicolon. -/
def text (s : Statement) : List Char := "import".toList ++ (s.gap.text ++ s.form.text)

end Statement

/-- A text between statements. -/
structure Filler where
  /-- The text. -/
  text : List Char
  /-- The keyword is not in it, not even inside a word. -/
  free : ¬ "import".toList <:+: text
  /-- It is empty, or ends with no word character. -/
  ends : ∀ c ∈ text.getLast?, isWordChar c = false

/-- Statements, each behind a text and ended by a semicolon, and a text behind the last. -/
def written : List (Filler × Statement) → Filler → List Char
  | [], last => last.text
  | (filler, s) :: pieces, last => filler.text ++ (s.text ++ ';' :: written pieces last)

/-! ## The parts of a statement -/

theorem Gap.dropped (gap : Gap) {rest : List Char} (h : ∀ c ∈ rest.head?, isBlank c = false) :
    dropBlanks? (gap.text ++ rest) = some rest :=
  dropBlanks?_eq_some_iff.mpr ⟨gap.text, rfl, gap.ne, gap.blank, h⟩

theorem isBlank_of_isQuote {c : Char} (h : isQuote c = true) : isBlank c = false := by
  rw [isQuote, Bool.or_eq_true, beq_iff_eq, beq_iff_eq] at h
  rcases h with rfl | rfl <;> decide

theorem Quotation.head (quotation : Quotation) (rest : List Char) :
    ∀ c ∈ (quotation.text ++ rest).head?, isBlank c = false :=
  forall_head?_cons (isBlank_of_isQuote quotation.isMark) _

theorem Quotation.read (quotation : Quotation) (rest : List Char) :
    readQuoted? (quotation.text ++ rest) = some (quotation.path, rest) := by
  refine readQuoted?_eq_some_iff.mpr ⟨quotation.mark, quotation.mark, ?_, quotation.isMark,
    quotation.isMark, quotation.ne, quotation.free⟩
  rw [Quotation.text, List.cons_append, List.append_assoc, List.singleton_append]

/-- A label is dropped whole where no word goes on behind it. -/
theorem Label.dropped (label : Label) {rest : List Char}
    (h : ∀ c ∈ rest.head?, isWordChar c = false) :
    dropAlias? (label.text ++ rest) = some rest := by
  have htext : label.text ++ rest =
      label.before.text ++ (['a', 's'] ++ (label.after.text ++ (label.name.text ++ rest))) := by
    simp only [Label.text, List.append_assoc]
  have has : ∀ c ∈ (['a', 's'] ++ (label.after.text ++ (label.name.text ++ rest))).head?,
      isBlank c = false := forall_head?_cons (by decide) _
  have hname : ∀ c ∈ (label.name.text ++ rest).head?, isBlank c = false :=
    forall_head?_append label.name.ne
      (fun c hc => isBlank_of_isWordChar (label.name.isWord c hc)) _
  have htake : takeWord? (label.name.text ++ rest) = some (label.name.text, rest) :=
    takeWord?_eq_some_iff.mpr ⟨rfl, label.name.ne, label.name.isWord, h⟩
  rw [htext]
  simp only [dropAlias?, label.before.dropped has, dropStart?_eq_some_iff.mpr rfl,
    label.after.dropped hname, htake, Option.bind_eq_bind, Option.bind_some]
  rfl

theorem Origin.read (origin : Origin) (rest : List Char) :
    readFrom? (origin.text ++ rest) = some (origin.source.path, rest) := by
  have htext : origin.text ++ rest = origin.before.text ++ (['f', 'r', 'o', 'm'] ++
      (origin.after.text ++ (origin.source.text ++ rest))) := by
    simp only [Origin.text, List.append_assoc]
  have hfrom : ∀ c ∈ (['f', 'r', 'o', 'm'] ++ (origin.after.text ++
      (origin.source.text ++ rest))).head?, isBlank c = false := forall_head?_cons (by decide) _
  rw [htext]
  simp only [readFrom?, origin.before.dropped hfrom, dropStart?_eq_some_iff.mpr rfl,
    origin.after.dropped (origin.source.head rest), origin.source.read, Option.bind_eq_bind,
    Option.bind_some]

/-- The name before `from` ends there. -/
theorem Origin.head (origin : Origin) (rest : List Char) :
    ∀ c ∈ (origin.text ++ rest).head?, isWordChar c = false := by
  rw [Origin.text, List.append_assoc]
  exact forall_head?_append origin.before.ne
    (fun c hc => isWordChar_of_isBlank (origin.before.blank c hc)) _

/-! ## A statement -/

/-- What is read behind the keyword and its blanks. -/
def readForm? (cs : List Char) : Option (List Char × List Char) :=
  match readPlain? cs with
  | some found => some found
  | none =>
    match readStar? cs with
    | some found => some found
    | none => readNames? cs

theorem statement_eq (gap : Gap) {cs : List Char} (h : ∀ c ∈ cs.head?, isBlank c = false) :
    statement false ("import".toList ++ (gap.text ++ cs)) =
      (readForm? cs).map fun found => (String.ofList found.1, found.2) := by
  have hkeyword : keyword "import" false ("import".toList ++ (gap.text ++ cs)) =
      some ((), gap.text ++ cs) := keyword_eq_some_iff.mpr ⟨rfl, rfl⟩
  simp only [statement, hkeyword, gap.dropped h, Option.bind_eq_bind, Option.bind_some,
    readForm?]
  cases readPlain? cs with
  | some found => rfl
  | none =>
    cases readStar? cs with
    | some found => rfl
    | none => cases readNames? cs <;> rfl

theorem readPlain?_eq_none {c : Char} (h : isQuote c = false) (cs : List Char) :
    readPlain? (c :: cs) = none := by
  have hquoted : readQuoted? (c :: cs) = none := if_neg (by rw [h]; decide)
  rw [readPlain?, hquoted]
  rfl

/-- **Each form is read whole**, up to the semicolon. -/
theorem readForm?_text (form : Form) (rest : List Char) :
    readForm? (form.text ++ ';' :: rest) = some (form.source.path, ';' :: rest) := by
  cases form with
  | plain source =>
    have halias : dropAlias? (';' :: rest) = none := rfl
    have hplain : readPlain? (source.text ++ ';' :: rest) = some (source.path, ';' :: rest) := by
      simp only [readPlain?, source.read, halias, Option.bind_eq_bind, Option.bind_some]
      rfl
    rw [readForm?, Form.text, hplain, Form.source]
  | aliased source label =>
    have halias := label.dropped (forall_head?_cons (by decide : isWordChar ';' = false) rest)
    have hplain : readPlain? (source.text ++ (label.text ++ ';' :: rest)) =
        some (source.path, ';' :: rest) := by
      simp only [readPlain?, source.read, halias, Option.bind_eq_bind, Option.bind_some]
      rfl
    rw [readForm?, Form.text, List.append_assoc, hplain, Form.source]
  | star label origin =>
    have hstar : readStar? ('*' :: (label.text ++ (origin.text ++ ';' :: rest))) =
        some (origin.source.path, ';' :: rest) := by
      rw [readStar?, label.dropped (origin.head _)]
      exact origin.read _
    rw [readForm?, Form.text, List.cons_append, readPlain?_eq_none (by decide), List.append_assoc,
      hstar, Form.source]
  | names list closed origin =>
    have hlist : (list ++ '\x7d' :: (origin.text ++ ';' :: rest)).dropWhile (· != '\x7d') =
        '\x7d' :: (origin.text ++ ';' :: rest) :=
      dropWhile_run (fun c hc => bne_iff_ne.mpr fun h => closed (h ▸ hc))
        (forall_head?_cons (by decide) _)
    have hnames : readNames? ('\x7b' :: (list ++ '\x7d' :: (origin.text ++ ';' :: rest))) =
        some (origin.source.path, ';' :: rest) := by
      rw [readNames?, hlist]
      exact origin.read _
    have hstar : ∀ cs, readStar? ('\x7b' :: cs) = none := fun _ => rfl
    rw [readForm?, Form.text, List.cons_append, readPlain?_eq_none (by decide), hstar,
      List.append_assoc, List.cons_append, hnames, Form.source]

theorem Form.head (form : Form) (rest : List Char) :
    ∀ c ∈ (form.text ++ rest).head?, isBlank c = false := by
  cases form with
  | plain source => exact source.head rest
  | aliased source => exact forall_head?_cons (isBlank_of_isQuote source.isMark) _
  | star => exact forall_head?_cons (by decide) _
  | names => exact forall_head?_cons (by decide) _

/-- **A written statement is read up to its semicolon**, whatever comes behind that. -/
theorem statement_text (s : Statement) (rest : List Char) :
    statement false (s.text ++ ';' :: rest) = some (s.path, ';' :: rest) := by
  have htext : s.text ++ ';' :: rest =
      "import".toList ++ (s.gap.text ++ (s.form.text ++ ';' :: rest)) := by
    -- the equation of `text` would have the keyword evaluated
    delta Statement.text
    rw [List.append_assoc, List.append_assoc]
  rw [htext, statement_eq s.gap (s.form.head _), readForm?_text]
  rfl

/-! ## A text of statements -/

/-- Without the keyword no statement starts in a text, also where another text follows it, since no
word goes on there. -/
theorem Filler.statement_eq_none (filler : Filler) {before inner : List Char}
    (htext : filler.text = before ++ inner) (hne : inner ≠ []) (afterWord : Bool)
    (rest : List Char) : statement afterWord (inner ++ rest) = none := by
  refine Option.eq_none_iff_forall_ne_some.mpr fun found hfound => ?_
  obtain ⟨-, clause, hwritten⟩ := written_of_statement hfound
  obtain ⟨opening, closing, left, -, hkeyword⟩ := hwritten.text
  rcases List.append_eq_append_iff.mp hkeyword with ⟨other, hinner, -⟩ | ⟨other, hinner, -⟩
  · -- the text would end inside the keyword, that is with a word character
    have hword : ∀ c ∈ "import".toList, isWordChar c = true := forall_mem_of_all (by decide)
    have hends : isWordChar (inner.getLast hne) = true :=
      hword _ (hinner ▸ List.mem_append_left _ (List.getLast_mem hne))
    rw [filler.ends _ (by rw [htext, List.getLast?_append, List.getLast?_eq_some_getLast hne]; rfl)]
      at hends
    cases hends
  · exact filler.free ⟨before, other, by rw [htext, hinner, List.append_assoc]⟩

theorem Filler.wordBefore_eq_false (filler : Filler) : wordBefore false filler.text = false := by
  rcases List.eq_nil_or_concat filler.text with htext | ⟨cs, c, htext⟩
  · rw [htext]
    rfl
  · rw [List.concat_eq_append] at htext
    rw [htext, wordBefore_concat]
    exact filler.ends c (by rw [htext, List.getLast?_concat]; rfl)

/-- No statement starts at the mark that ends one. -/
theorem statement_semicolon (afterWord : Bool) (rest : List Char) :
    statement afterWord (';' :: rest) = none := by
  cases afterWord <;> rfl

/-- **A search of a written text finds the paths of its statements**, in order. -/
theorem findAll_written (pieces : List (Filler × Statement)) (last : Filler) :
    findAll statement (written pieces last) = pieces.map (·.2.path) := by
  rw [findAll]
  induction pieces with
  | nil =>
    have hlast : findAllFrom statement false 0 (last.text ++ []) = [] :=
      findAllFrom_of_passed fun _ _ htext hne => last.statement_eq_none htext hne _ _
    rwa [List.append_nil] at hlast
  | cons piece pieces ih =>
    obtain ⟨filler, s⟩ := piece
    have hne : s.text ≠ [] := List.cons_ne_nil _ _
    -- the search goes on behind the semicolon, after which no word goes on
    rw [written, findAllFrom_of_passed fun _ _ htext hne =>
        filler.statement_eq_none htext hne _ _, filler.wordBefore_eq_false,
      findAllFrom_of_taken hne (statement_text s _), findAllFrom_of_none (statement_semicolon _ _),
      List.map_cons]
    exact congrArg _ ih

/-- **Reading undoes writing**: the imports of a text are the paths of its statements, each once, in
the order of their first appearance. -/
theorem extract_written (pieces : List (Filler × Statement)) (last : Filler) :
    let paths := pieces.map (·.2.path)
    let found := extract (String.ofList (written pieces last))
    (∀ path, path ∈ found ↔ path ∈ paths) ∧ found.Nodup ∧ InOrder paths found := by
  have hfound : extract (String.ofList (written pieces last)) =
      distinct (pieces.map (·.2.path)) := by
    rw [extract, String.toList_ofList, findAll_written]
  rw [hfound]
  exact ⟨fun _ => mem_distinct, (inOrder_distinct _).nodup, inOrder_distinct _⟩

-- What stands between braces is not read, even if it looks like a statement.
example : extract "import \x7b A, import 'b.sol'; \x7d from 'a.sol'; import 'c.sol';" =
    ["a.sol", "c.sol"] := by
  decide +kernel

end Import

end ContractLens
