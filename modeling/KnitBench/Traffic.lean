import KnitBench.Text.Number
import KnitBench.Text.Rolling

/-! The scrolling record of messages on the serial line. -/

namespace KnitBench

/-- Which way a message goes. -/
inductive Heading
  | toDevice
  | fromDevice
  deriving DecidableEq, Repr

/-- The arrow in front of a message. -/
def Heading.arrow : Heading → UInt8
  | toDevice => 0x3C
  | fromDevice => 0x3E

/-- A byte in the record: printable ASCII as itself, anything else in hexadecimal behind a
backslash. -/
def Traffic.byteForm (b : UInt8) : List UInt8 :=
  if 0x20 ≤ b ∧ b ≤ 0x7E then [b]
  else 0x5C :: (Text.hexDigits b).map fun c => UInt8.ofNat c.toNat

/-- A message in the record: its arrow and its bytes, set off by blanks. -/
def Traffic.messageForm (heading : Heading) (message : List UInt8) : List UInt8 :=
  heading.arrow :: 0x20 :: (message.flatMap byteForm ++ [0x20])

/-- A message in the record, as text. -/
def Traffic.messageText (heading : Heading) (message : List UInt8) : String :=
  Text.ofBytes (messageForm heading message)

/-- The record: the last 110 characters. -/
structure Traffic where
  line : Text.Rolling 110
  deriving DecidableEq, Repr

namespace Traffic

/-- Nothing recorded yet. -/
def blank : Traffic := ⟨.blank 110⟩

/-- Adds a message. -/
def record (t : Traffic) (heading : Heading) (message : List UInt8) : Traffic :=
  ⟨t.line.pushAll (messageForm heading message)⟩

/-- The record as one line. -/
def text (t : Traffic) : String := t.line.text

end Traffic

end KnitBench
