/-! Text without terminal control sequences. -/

namespace KnitBench.Text

/-- Where a reader of terminal text stands. -/
inductive ControlState
  | plain
  /-- Behind an escape character. -/
  | escaped
  /-- Among the parameters of a control sequence. -/
  | parameters

/-- Leaves control sequences out. A sequence is an escape character, a bracket, parameters, and the
first character from `@` to `~`. -/
def plainChars : ControlState → List Char → List Char
  | _, [] => []
  | .plain, c :: rest =>
    if c = '\x1b' then plainChars .escaped rest else c :: plainChars .plain rest
  | .escaped, c :: rest =>
    if c = '[' then plainChars .parameters rest else plainChars .plain rest
  | .parameters, c :: rest =>
    if '@' ≤ c ∧ c ≤ '~' then plainChars .plain rest else plainChars .parameters rest

/-- A text without its control sequences. -/
def plain (text : String) : String := String.ofList (plainChars .plain text.toList)

/-- Indents every line but the first. -/
def hang (indent : Nat) (text : String) : String :=
  String.ofList (text.toList.flatMap fun c =>
    if c = '\n' then c :: List.replicate indent ' ' else [c])

end KnitBench.Text
