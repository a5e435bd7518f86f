/-! Needles and the patterns that are knitted on them. -/

namespace KnitBench

/-- The state of one needle. -/
inductive Needle
  | idle
  | selected
  deriving DecidableEq, Repr, Inhabited

namespace Needle

/-- The character that shows a needle. -/
def char : Needle → Char
  | idle => '.'
  | selected => '|'

/-- The needle that a byte of pattern text asks for: a bar selects it. -/
def ofByte (b : UInt8) : Needle :=
  if b = 0x7C then selected else idle

/-- A row of needles as text. -/
def rowText (row : List Needle) : String :=
  String.ofList (row.map char)

/-- The needles that a text asks for, one for each of its bytes. -/
def rowOfText (text : String) : Array Needle :=
  text.toUTF8.data.map ofByte

end Needle

/-- A pattern to repeat along the bed: at least one needle. -/
structure Pattern where
  cells : Array Needle
  size_pos : 0 < cells.size

namespace Pattern

/-- The pattern `|.`: every other needle. -/
def alternating : Pattern := ⟨#[.selected, .idle], by decide⟩

instance : Inhabited Pattern := ⟨alternating⟩

/-- The needle at an offset, the pattern repeated without end. -/
def needleAt (p : Pattern) (offset : Nat) : Needle :=
  have : offset % p.cells.size < p.cells.size := Nat.mod_lt _ p.size_pos
  p.cells[offset % p.cells.size]

/-- The pattern that a text spells with bars and points, if it does and is not empty. -/
def ofText? (text : String) : Option Pattern :=
  let row := Needle.rowOfText text
  if h : 0 < row.size then
    if text.toList.all (fun c => c == '|' || c == '.') then some ⟨row, h⟩ else none
  else none

/-- The pattern in bars and points. -/
def text (p : Pattern) : String := Needle.rowText p.cells.toList

end Pattern

end KnitBench
