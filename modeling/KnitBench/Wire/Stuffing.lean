/-! Byte stuffing of the serial line. A frame is sent between two delimiters, and inside it the
delimiter and the escape byte are each written as an escape followed by a stand-in. -/

namespace KnitBench.Wire

/-- Opens and closes every frame, and appears nowhere inside one. -/
def delimiter : UInt8 := 0xC0

/-- Announces that the next byte is a stand-in. -/
def escape : UInt8 := 0xDB

/-- Stands for a delimiter after an escape. -/
def delimiterStandIn : UInt8 := 0xDC

/-- Stands for an escape after an escape. -/
def escapeStandIn : UInt8 := 0xDD

/-- The one or two bytes that carry `b` inside a frame. -/
def stuffByte (b : UInt8) : List UInt8 :=
  if b = delimiter then [escape, delimiterStandIn]
  else if b = escape then [escape, escapeStandIn]
  else [b]

/-- The stuffed form of a message: free of delimiters, at most twice as long. -/
def stuff (message : List UInt8) : List UInt8 :=
  message.flatMap stuffByte

/-- A message ready for the line, between its delimiters. -/
def frame (message : List UInt8) : List UInt8 :=
  delimiter :: (stuff message ++ [delimiter])

/-- What a byte after an escape stands for; a byte that is no stand-in is itself. -/
def unescape (b : UInt8) : UInt8 :=
  if b = delimiterStandIn then delimiter else if b = escapeStandIn then escape else b

/-- The message read back from its stuffed form. An escape with nothing after it is dropped. -/
def unstuff : List UInt8 → List UInt8
  | [] => []
  | [b] => if b = escape then [] else [b]
  | b :: c :: rest =>
    if b = escape then unescape c :: unstuff rest else b :: unstuff (c :: rest)

/-- Reads one message byte off stuffed input, with the input that is left. -/
def nextByte? : List UInt8 → Option (UInt8 × List UInt8)
  | [] => none
  | [b] => if b = escape then none else some (b, [])
  | b :: c :: rest => if b = escape then some (unescape c, rest) else some (b, c :: rest)

/-- Reads stuffed input into a buffer of fixed size. The answer is the number of slots written and
the buffer afterwards; reading stops as soon as the buffer is full. -/
def unstuffInto : List UInt8 → List UInt8 → Nat × List UInt8
  | _, [] => (0, [])
  | input, slot :: buffer =>
    match nextByte? input with
    | none => (0, slot :: buffer)
    | some (b, rest) =>
      let (written, filled) := unstuffInto rest buffer
      (written + 1, b :: filled)

variable (a b : List UInt8)

@[simp] theorem stuff_nil : stuff [] = [] := rfl

@[simp] theorem stuff_append : stuff (a ++ b) = stuff a ++ stuff b := by
  simp [stuff]

@[simp] theorem stuff_cons (x : UInt8) : stuff (x :: a) = stuffByte x ++ stuff a := by
  simp [stuff]

end KnitBench.Wire
