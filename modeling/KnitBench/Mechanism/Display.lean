import KnitBench.Mechanism
import KnitBench.Text.Number

/-! How the mechanism is shown: a status line, and the bed in two halves with the carriage and the
selector marked below. -/

namespace KnitBench

/-- Starts reverse video. -/
def reverseVideo : List Char := ['\x1b', '[', '7', 'm']

/-- Ends reverse video. -/
def plainVideo : List Char := ['\x1b', '[', '0', 'm']

/-- A number of quarters as a decimal with two places. -/
def quartersText (q : Int) : String :=
  let places := match q.natAbs % 4 with
    | 0 => "00"
    | 1 => "25"
    | 2 => "50"
    | _ => "75"
  (if q < 0 then "-" else "") ++ toString (q.natAbs / 4) ++ "." ++ places

namespace Mechanism

variable (m : Mechanism)

/-- Solenoid `i` in the status line; a level that changed with the last move is in reverse video. -/
def solenoidText (i : Nat) : List Char :=
  (if m.solenoids.getLsbD i != m.previous.getLsbD i then reverseVideo else []) ++
    (if m.solenoids.getLsbD i then '.' else '|') :: plainVideo

/-- Solenoids, phase, position in quarter needles, belt phase and sensors on one line. -/
def statusLine : String :=
  let solenoids := String.ofList ((List.range m.setup.model.solenoidCount).flatMap m.solenoidText)
  let position := quartersText (4 * m.position + (m.phase % 4 : Nat))
  let left := Text.padLeft 4 ' ' (toString m.hall.left.toNat)
  let right := Text.padLeft 4 ' ' (toString m.hall.right.toNat)
  let belt := if m.levels.belt then 1 else 0
  s!"S=[{solenoids}], Ph = {m.phase}, Pos = {position}, BP = {belt}, Sensors = ({left}, {right})"

/-- Columns of the bed display: the bed and the margin on both sides. -/
def columns : Nat := m.setup.model.needleCount + 2 * margin.toNat

/-- What the bed shows in a column. -/
def bedChar (column : Nat) : Char :=
  if column < margin.toNat then ' '
  else (m.needles[column - margin.toNat]?).elim ' ' Needle.char

/-- The mark in a column: the carriage, else the selector, else nothing. -/
def markChar (column : Nat) : Char :=
  if m.position + margin = column then '^'
  else if m.selected + margin = column then 'x'
  else ' '

/-- The whole bed, with the margin on both sides. -/
def bedRow : List Char := (List.range m.columns).map m.bedChar

/-- The marks below the whole bed. -/
def markRow : List Char := (List.range m.columns).map m.markChar

/-- Columns of the left half. -/
def halfColumns : Nat := m.setup.model.needleCount / 2 + margin.toNat

/-- The bed as four lines: each half with its marks below. -/
def bedDisplay : String :=
  "<- " ++ String.ofList (m.bedRow.take m.halfColumns) ++
    "\n   " ++ String.ofList (m.markRow.take m.halfColumns) ++
    "\n-> " ++ String.ofList (m.bedRow.drop m.halfColumns) ++
    "\n   " ++ String.ofList (m.markRow.drop m.halfColumns)

end Mechanism

end KnitBench
