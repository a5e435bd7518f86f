import KnitBench.Cue
import KnitBench.Text.Blank
import KnitBench.Text.Number

/-! Replay scripts: one command on each line, with comments from `#` on. -/

namespace KnitBench.Script

/-- Why a line of a script is refused. -/
inductive Offence
  | unknownCommand (word : String)
  | missingCount (command : String)
  | invalidCount (word : String)
  | trailingArgument (word : String)
  deriving DecidableEq, Repr

/-- A refused line, numbered from 1. -/
structure Error where
  line : Nat
  offence : Offence
  deriving DecidableEq, Repr

/-- The wording of each offence. -/
def Offence.message : Offence → String
  | unknownCommand w => "unknown command \x60" ++ w ++ "\x60"
  | missingCount c => "\x60" ++ c ++ "\x60 needs a step count"
  | invalidCount w => "invalid step count \x60" ++ w ++ "\x60"
  | trailingArgument w => "unexpected argument \x60" ++ w ++ "\x60"

/-- The wording of a refusal. -/
def Error.message (e : Error) : String := s!"line {e.line}: {e.offence.message}"

/-- A command: how often a cue is given. -/
structure Command where
  count : Nat
  action : Cue.Action
  deriving DecidableEq, Repr

/-- The cues of a command. -/
def Command.cues (c : Command) : List Cue := List.replicate c.count ⟨c.action, 0⟩

/-- Step counts are below this bound. -/
def countBound : Nat := UInt64.size

/-- A command takes no more words than it needs. -/
def endOfLine (c : Command) : List String → Except Offence Command
  | [] => .ok c
  | word :: _ => .error (.trailingArgument word)

/-- Reads the step count of a move. -/
def readMove (name : String) (action : Cue.Action) : List String → Except Offence Command
  | [] => .error (.missingCount name)
  | word :: rest =>
    match Text.readNumeral countBound word with
    | .ok count => endOfLine ⟨count, action⟩ rest
    | .error _ => .error (.invalidCount word)

/-- Reads the words of a line, if there are any. ASCII case is ignored in the command. -/
def readWords : List String → Except Offence (Option Command)
  | [] => .ok none
  | word :: rest =>
    match word.toLower with
    | "right" => (readMove "right" .moveRight rest).map some
    | "left" => (readMove "left" .moveLeft rest).map some
    | "reset" => (endOfLine ⟨1, .reset⟩ rest).map some
    | "trace" => (endOfLine ⟨1, .toggleTrace⟩ rest).map some
    | _ => .error (.unknownCommand word)

/-- Reads one line, without its comment. -/
def readLine (line : List Char) : Except Offence (Option Command) :=
  readWords (Text.words (line.takeWhile (· != '#')))

/-- Reads lines, the first of which has a given number. The first offence ends it. -/
def readLines : Nat → List (List Char) → Except Error (List Command)
  | _, [] => .ok []
  | n, line :: rest =>
    match readLine line with
    | .error offence => .error ⟨n, offence⟩
    | .ok command? => do return command?.toList ++ (← readLines (n + 1) rest)

/-- Reads a script. -/
def parse (source : String) : Except Error (List Command) := readLines 1 (Text.lines source)

/-- The cues that a script gives, in order. -/
def cues (source : String) : Except Error (List Cue) :=
  (parse source).map fun commands => commands.flatMap Command.cues

end KnitBench.Script
