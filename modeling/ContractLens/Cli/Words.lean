import ContractLens.Text.Digit
import ContractLens.Text.Quoted
import ContractLens.Text.Scan
/-!
# The words of a command line

A word of a command line is an option, a plain word, or the separator after which all words are
plain. Options are known by a vocabulary: each has names, and takes a value or none. A long name may
be cut short as long as only one name starts that way; its value follows in the next word or after
an equals sign. Short names without a value may share a word, and a value may follow a short name in
the same word.

Reading a command line gives its events in order, up to the first fault: options with their values,
operands, and words that have no place.
-/

namespace ContractLens.Cli

/-- An option. -/
structure OptionSpec (α : Type) where
  /-- The names, each with its dashes. -/
  names : List String
  /-- Whether it takes a value. -/
  valued : Bool
  /-- What it means. -/
  meaning : α

/-- The names of an option in a message. -/
def OptionSpec.title {α : Type} (spec : OptionSpec α) : String := "/".intercalate spec.names

/-- Why a command line cannot be read. -/
inductive WordFault where
  /-- A name is cut so short that several options have it. -/
  | ambiguous (word : String) (names : List String)
  /-- An option has no value. -/
  | valueMissing (title : String)
  /-- An option has a value and takes none. -/
  | valueIgnored (title value : String)
  /-- A value is no whole number. -/
  | notWhole (title value : String)
  /-- A value is none of the choices. -/
  | notChoice (title value : String) (choices : List String)
  /-- Some words have no place. -/
  | unrecognized (words : List String)
  deriving DecidableEq

/-- What is said about a fault. -/
def WordFault.message : WordFault → String
  | ambiguous word names =>
    s!"ambiguous option: {word} could match " ++ ", ".intercalate names
  | valueMissing title => s!"argument {title}: expected one argument"
  | valueIgnored title value =>
    s!"argument {title}: ignored explicit argument " ++ Text.quotedString value
  | notWhole title value => s!"argument {title}: invalid int value: " ++ Text.quotedString value
  | notChoice title value choices =>
    s!"argument {title}: invalid choice: " ++ Text.quotedString value ++ " (choose from " ++
      ", ".intercalate (choices.map Text.quotedString) ++ ")"
  | unrecognized words => "unrecognized arguments: " ++ " ".intercalate words

/-- A value in the word of its option. -/
structure Joined where
  /-- Whether an equals sign stands before it. -/
  equals : Bool
  /-- The value. -/
  value : List Char

/-- What a word is. -/
inductive WordKind (α : Type) where
  /-- A plain word. -/
  | plain
  /-- The separator. -/
  | separator
  /-- An option under one of its names, with the value in its word. -/
  | option (spec : OptionSpec α) (name : String) (joined : Option Joined)
  /-- An option that is not in the vocabulary. -/
  | unknown

/-- What the reading of a command line comes upon. -/
inductive Event (α : Type) where
  /-- An option with its value. -/
  | option (spec : OptionSpec α) (value : Option String)
  /-- An operand. -/
  | operand (word : String)
  /-- A plain word and everything after it. -/
  | command (words : List String)
  /-- A word that has no place. -/
  | stray (word : String)
  /-- A fault. -/
  | fault (f : WordFault)

/-- Which plain words have a place. -/
inductive Operands where
  /-- None, or none any more. -/
  | none
  /-- The first run of them. -/
  | run
  /-- Those of the run that has begun. -/
  | running
  /-- The first one, and everything after it. -/
  | rest
  deriving DecidableEq

/-- Which plain words have a place after an option. -/
def Operands.afterOption : Operands → Operands
  | running => none
  | operands => operands

variable {α : Type}

/-! ## Kinds of words -/

/-- All names of a vocabulary, with their options. -/
def allNames (vocabulary : List (OptionSpec α)) : List (String × OptionSpec α) :=
  vocabulary.flatMap fun spec => spec.names.map fun name => (name, spec)

/-- The option with a name. -/
def named? (vocabulary : List (OptionSpec α)) (name : String) : Option (OptionSpec α) :=
  ((allNames vocabulary).find? (·.1 == name)).map (·.2)

/-- What stands before the first equals sign of a word, and what stands after it. -/
def splitEquals (word : List Char) : List Char × Option (List Char) :=
  (word.takeWhile (· != '='), match word.dropWhile (· != '=') with
    | [] => none
    | _ :: value => some value)

/-- The options whose long name starts like a word; a value may follow an equals sign. -/
def longCandidates (vocabulary : List (OptionSpec α)) (word : List Char) :
    List (String × OptionSpec α × Option Joined) :=
  let (start, value) := splitEquals word
  ((allNames vocabulary).filter fun (name, _) => start.isPrefixOf name.toList).map
    fun (name, spec) => (name, spec, value.map fun value => ⟨true, value⟩)

/-- The options that a word with a single dash may be: one whose short name starts the word, the
value being what follows, or one whose name starts with the word. -/
def shortCandidates (vocabulary : List (OptionSpec α)) (word : List Char) :
    List (String × OptionSpec α × Option Joined) :=
  (allNames vocabulary).filterMap fun (name, spec) =>
    if name.toList == word.take 2 then some (name, spec, some ⟨false, word.drop 2⟩)
    else if word.isPrefixOf name.toList then some (name, spec, none)
    else none

/-- A text without one line feed at its end. -/
def dropLineFeed (cs : List Char) : List Char :=
  match cs.reverse with
  | '\n' :: rest => rest.reverse
  | _ => cs

/-- Whether a character is a decimal digit of any script. -/
def isDigit (c : Char) : Bool := (Text.digitValue? c).isSome

/-- Whether a word is a dash and digits, with a point among them or before them. -/
def isNegativeNumber (word : List Char) : Bool :=
  match dropLineFeed word with
  | '-' :: cs =>
    match cs.dropWhile isDigit with
    | [] => !cs.isEmpty
    | '.' :: after => !after.isEmpty && after.all isDigit
    | _ => false
  | _ => false

/-- What a word is that starts with a dash, is longer, and is no name of an option. -/
def dashedKind (vocabulary : List (OptionSpec α)) (word : List Char) :
    Except WordFault (WordKind α) :=
  let (start, value) := splitEquals word
  match value, named? vocabulary (String.ofList start) with
  | some value, some spec => .ok (.option spec (String.ofList start) (some ⟨true, value⟩))
  | _, _ =>
    let candidates := if word[1]? == some '-' then longCandidates vocabulary word
      else shortCandidates vocabulary word
    match candidates with
    | [(name, spec, joined)] => .ok (.option spec name joined)
    | [] => .ok (if isNegativeNumber word || word.contains ' ' then .plain else .unknown)
    | _ => .error (.ambiguous (String.ofList word) (candidates.map (·.1)))

/-- What a word is. -/
def kindOf (vocabulary : List (OptionSpec α)) (word : String) : Except WordFault (WordKind α) :=
  match word.toList with
  | [] | ['-'] => .ok .plain
  | c :: rest =>
    if c != '-' then .ok .plain
    else match named? vocabulary word with
      | some spec => .ok (.option spec word none)
      | none => dashedKind vocabulary (c :: rest)

/-- The words of a command line with their kinds. -/
def kinds (vocabulary : List (OptionSpec α)) :
    List String → Except WordFault (List (String × WordKind α))
  | [] => .ok []
  | word :: rest =>
    if word == "--" then .ok ((word, .separator) :: rest.map fun word => (word, .plain))
    else do
      let kind ← kindOf vocabulary word
      return (word, kind) :: (← kinds vocabulary rest)

/-! ## Events -/

/-- Whether a name has a single dash. -/
def isShort (name : String) : Bool := name.toList[1]? != some '-'

/-- The events of a word that holds options, and the option at its end that may take a value from
the next word. -/
structure WordEvents (α : Type) where
  /-- The events. -/
  events : List (Event α)
  /-- The option at the end. -/
  last : Option (OptionSpec α)

/-- Events before those of the rest of a word. -/
def WordEvents.after (event : Event α) (rest : WordEvents α) : WordEvents α :=
  { rest with events := event :: rest.events }

/-- The events of an option without a value whose word goes on: the next character is a short name
itself. `rest` are the events of what follows that name. -/
def goOn (vocabulary : List (OptionSpec α)) (spec : OptionSpec α) (short equals : Bool)
    (word : List Char) (rest : OptionSpec α → Except WordFault (WordEvents α)) :
    Except WordFault (WordEvents α) :=
  if !short || equals || word.head? == some '-' then
    .error (.valueIgnored spec.title (String.ofList word))
  else match named? vocabulary (String.ofList ('-' :: word.take 1)) with
    | none => .ok ⟨[.option spec none, .stray (String.ofList ('-' :: word))], none⟩
    | some next => (rest next).map (.after (.option spec none))

/-- The events of an option with a value in its word, which an equals sign may stand before. -/
def joinedEvents (vocabulary : List (OptionSpec α)) (spec : OptionSpec α) (short equals : Bool) :
    List Char → Except WordFault (WordEvents α)
  | [] =>
    if spec.valued then .ok ⟨[.option spec (some "")], none⟩
    else .error (.valueIgnored spec.title "")
  | [c] =>
    if spec.valued then .ok ⟨[.option spec (some (String.ofList [c]))], none⟩
    else goOn vocabulary spec short equals [c] fun next => .ok ⟨[], some next⟩
  | c :: '=' :: value =>
    if spec.valued then .ok ⟨[.option spec (some (String.ofList (c :: '=' :: value)))], none⟩
    else goOn vocabulary spec short equals (c :: '=' :: value) fun next =>
      joinedEvents vocabulary next true true value
  | c :: d :: value =>
    if spec.valued then .ok ⟨[.option spec (some (String.ofList (c :: d :: value)))], none⟩
    else goOn vocabulary spec short equals (c :: d :: value) fun next =>
      joinedEvents vocabulary next true false (d :: value)

/-- The events of the word of an option. -/
def wordEvents (vocabulary : List (OptionSpec α)) (spec : OptionSpec α) (name : String) :
    Option Joined → Except WordFault (WordEvents α)
  | none => .ok ⟨[], some spec⟩
  | some joined => joinedEvents vocabulary spec (isShort name) joined.equals joined.value

/-- The events of a command line. An option that is `pending` takes its value from the next word. -/
def eventsFrom (vocabulary : List (OptionSpec α)) (pending : Option (OptionSpec α))
    (operands : Operands) : List (String × WordKind α) → List (Event α)
  | [] => (pending.map fun spec => Event.fault (.valueMissing spec.title)).toList
  | (word, kind) :: rest =>
    match pending, kind with
    | some spec, .plain =>
      .option spec (some word) :: eventsFrom vocabulary none operands rest
    | some spec, _ => [.fault (.valueMissing spec.title)]
    | none, .unknown => .stray word :: eventsFrom vocabulary none operands.afterOption rest
    | none, .option spec name joined =>
      let operands := operands.afterOption
      match wordEvents vocabulary spec name joined with
      | .error f => [.fault f]
      | .ok ⟨events, none⟩ => events ++ eventsFrom vocabulary none operands rest
      | .ok ⟨events, some last⟩ =>
        if !last.valued then
          events ++ .option last none :: eventsFrom vocabulary none operands rest
        else match rest with
          | (_, .plain) :: _ => events ++ eventsFrom vocabulary (some last) operands rest
          | _ => [.fault (.valueMissing last.title)]
    | none, .plain =>
      match operands with
      | .none => .stray word :: eventsFrom vocabulary none .none rest
      | .rest => [.command (word :: rest.map (·.1))]
      | _ => .operand word :: eventsFrom vocabulary none .running rest
    | none, .separator =>
      match operands, rest with
      | .none, _ | .rest, [] => .stray word :: eventsFrom vocabulary none operands rest
      | .rest, _ => [.command (word :: rest.map (·.1))]
      | _, _ => eventsFrom vocabulary none .running rest

/-- The events of a command line. -/
def events (vocabulary : List (OptionSpec α)) (operands : Operands) (words : List String) :
    List (Event α) :=
  match kinds vocabulary words with
  | .error f => [.fault f]
  | .ok words => eventsFrom vocabulary none operands words

end ContractLens.Cli
