/-! A line of text of fixed width that scrolls to the left as characters are added. Characters are
bytes. -/

namespace KnitBench.Text

/-- Bytes as text, one character for each. -/
def ofBytes (bytes : List UInt8) : String :=
  String.ofList (bytes.map fun b => Char.ofNat b.toNat)

/-- The characters that a line of some width shows, oldest first. -/
structure Rolling (width : Nat) where
  chars : List UInt8
  deriving DecidableEq, Repr

namespace Rolling

variable {width : Nat}

/-- A line filled with one character. -/
def filled (width : Nat) (fill : UInt8) : Rolling width := ⟨List.replicate width fill⟩

/-- A blank line. -/
def blank (width : Nat) : Rolling width := filled width 0x20

instance : Inhabited (Rolling width) := ⟨blank width⟩

/-- Adds a character. The oldest one is dropped when exactly `width` are shown, so a line of width
zero grows without limit. -/
def push (r : Rolling width) (c : UInt8) : Rolling width :=
  ⟨(if r.chars.length = width then r.chars.drop 1 else r.chars) ++ [c]⟩

/-- Adds characters one after another. -/
def pushAll (r : Rolling width) (cs : List UInt8) : Rolling width := cs.foldl push r

/-- Adds the bytes of a text. -/
def pushText (r : Rolling width) (text : String) : Rolling width := r.pushAll text.toUTF8.toList

/-- The character added last. -/
def last? (r : Rolling width) : Option UInt8 := r.chars.getLast?

/-- The line, one character for each byte. -/
def text (r : Rolling width) : String := ofBytes r.chars

@[simp] theorem length_filled (fill : UInt8) : (filled width fill).chars.length = width := by
  simp [filled]

theorem length_push {r : Rolling width} (h : r.chars.length = width) (hw : 0 < width) (c : UInt8) :
    (r.push c).chars.length = width := by
  simp only [push, if_pos h, List.length_append, List.length_drop, List.length_singleton]
  omega

end Rolling

end KnitBench.Text
