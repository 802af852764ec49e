/-!
# Coloured writing

A text is painted by a control sequence before it and one after it that brings back plain writing.
-/

namespace ContractLens.Cli

/-- A way of writing. -/
inductive Ink where
  /-- Bold letters. -/
  | bold
  /-- Faint letters. -/
  | faint
  /-- Red letters. -/
  | red
  /-- Yellow letters. -/
  | yellow
  /-- Green letters. -/
  | green
  /-- Cyan letters. -/
  | cyan
  /-- Orange letters. -/
  | orange
  deriving DecidableEq

/-- The control sequence that changes to a way of writing. -/
def Ink.code : Ink → String
  | bold => "\x1b[1m"
  | faint => "\x1b[2m"
  | red => "\x1b[91m"
  | yellow => "\x1b[93m"
  | green => "\x1b[92m"
  | cyan => "\x1b[96m"
  | orange => "\x1b[38;5;208m"

/-- The control sequence that brings back plain writing. -/
def plainCode : String := "\x1b[0m"

/-- A painted text; the ways of writing are changed to one after the other. -/
def paint (inks : List Ink) (s : String) : String :=
  String.join (inks.map Ink.code) ++ s ++ plainCode

end ContractLens.Cli
