/-! Blank characters, by the Unicode property White_Space, and the words and lines of a text. -/

namespace KnitBench.Text

/-- The code points with the property White_Space. -/
def blankCodes : List Nat :=
  [0x09, 0x0A, 0x0B, 0x0C, 0x0D, 0x20, 0x85, 0xA0, 0x1680, 0x2000, 0x2001, 0x2002, 0x2003, 0x2004,
    0x2005, 0x2006, 0x2007, 0x2008, 0x2009, 0x200A, 0x2028, 0x2029, 0x202F, 0x205F, 0x3000]

/-- Whether a character separates words. -/
def isBlank (c : Char) : Bool := blankCodes.contains c.toNat

/-- Splits at the characters that `sep` accepts; empty pieces are kept. -/
def splitAll (sep : Char → Bool) : List Char → List (List Char)
  | [] => [[]]
  | c :: rest =>
    match splitAll sep rest with
    | [] => [[]]
    | piece :: pieces => if sep c then [] :: piece :: pieces else (c :: piece) :: pieces

/-- The words of a text: its longest runs without a blank, in order. -/
def words (text : List Char) : List String :=
  ((splitAll isBlank text).filter (!·.isEmpty)).map String.ofList

/-- The lines of a text. Only a line feed ends a line. -/
def lines (text : String) : List (List Char) :=
  splitAll (· == '\n') text.toList

end KnitBench.Text
