import KnitBench.Setup
import KnitBench.Text.Number

/-! The command line: its commands, their options, and what can be wrong with them. -/

namespace KnitBench.CommandLine

/-- Why the value of an option is refused. -/
inductive ValueError
  | name (e : SetupError)
  | number (e : Text.NumeralError)
  deriving DecidableEq, Repr

/-- The wording. -/
def ValueError.message : ValueError → String
  | name e => e.message
  | number e => e.message

/-- Why a command line is refused. -/
inductive UsageError
  | missingCommand
  | unknownCommand (word : String)
  | missingValue (option : String)
  | invalidValue (option : String) (e : ValueError)
  | unknownOption (word : String)
  | unexpectedArgument (word : String)
  | severalScripts
  | missingScript
  /-- Help is asked for behind a command. -/
  | helpAmongOptions
  deriving DecidableEq, Repr

/-- The options of a command. -/
structure Options where
  request : SetupRequest := {}
  pattern : Option String := none
  expected : Option String := none
  trace : Bool := false
  /-- How often more words were asked for, up to 255. -/
  verbosity : Nat := 0

/-- An option that takes a value. -/
inductive Setting
  | machine | carriage | belt | side | start | stop | pattern | expected
  deriving DecidableEq, Repr

namespace Setting

/-- The word that announces the value. -/
def word : Setting → String
  | machine => "--machine"
  | carriage => "--carriage"
  | belt => "--beltphase"
  | side => "--startside"
  | start => "--start"
  | stop => "--stop"
  | pattern => "--pattern"
  | expected => "--expect"

def all : List Setting := [machine, carriage, belt, side, start, stop, pattern, expected]

/-- The setting that a word announces. -/
def ofWord? (w : String) : Option Setting := all.find? (·.word == w)

/-- Needle numbers are below this bound. -/
def needleBound : Nat := UInt16.size

/-- Reads the value of a setting into options. -/
def read (s : Setting) (value : String) (o : Options) : Except ValueError Options :=
  let named {α : Type} (r : Except SetupError α) (put : α → SetupRequest) :=
    (r.mapError .name).map fun a => { o with request := put a }
  let numbered (put : Nat → SetupRequest) :=
    ((Text.readNumeral needleBound value).mapError .number).map fun n => { o with request := put n }
  match s with
  | machine => named (Model.read value) fun model => { o.request with model }
  | carriage => named (Carriage.read value) fun c => { o.request with carriage := some c }
  | belt => named (BeltPhase.read value) fun belt => { o.request with belt }
  | side => named (Side.read value) fun side => { o.request with side }
  | start => numbered fun n => { o.request with start := some n }
  | stop => numbered fun n => { o.request with stop := some n }
  | pattern => .ok { o with pattern := some value }
  | expected => .ok { o with expected := some value }

/-- Reads the value of a setting; a refusal names the option. -/
def apply (s : Setting) (value : String) (o : Options) : Except UsageError Options :=
  (s.read value o).mapError (.invalidValue s.word)

end Setting

/-- Whether a word asks for help. -/
def asksForHelp (word : String) : Bool := word == "--help" || word == "-h"

/-- Reads options from the left, and gathers the other words. The first offence decides. A setting
takes the next word as its value, whatever it looks like. -/
def readOptions : List String → Options → Except UsageError (List String × Options)
  | [], o => .ok ([], o)
  | word :: rest, o =>
    if asksForHelp word then .error .helpAmongOptions
    else if word = "--trace" then readOptions rest { o with trace := true }
    else if word = "-v" then readOptions rest { o with verbosity := min 255 (o.verbosity + 1) }
    else
      match Setting.ofWord? word with
      | some s =>
        match rest with
        | [] => .error (.missingValue s.word)
        | value :: rest => do readOptions rest (← s.apply value o)
      | none =>
        if word.toList.head? = some '-' then .error (.unknownOption word)
        else do
          let (words, o) ← readOptions rest o
          return (word :: words, o)

/-- What a command line asks for. -/
inductive Invocation
  | help
  | test (o : Options)
  | replay (script : String) (o : Options)

/-- Reads a command line. -/
def Invocation.read : List String → Except UsageError Invocation
  | [] => .error .missingCommand
  | command :: rest =>
    if asksForHelp command then .ok help
    else if command = "test" then do
      match ← readOptions rest {} with
      | ([], o) => return test o
      | (word :: _, _) => .error (.unexpectedArgument word)
    else if command = "replay" then do
      match ← readOptions rest {} with
      | ([], _) => .error .missingScript
      | ([script], o) => return replay script o
      | _ => .error .severalScripts
    else .error (.unknownCommand command)

end KnitBench.CommandLine
