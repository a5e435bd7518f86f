import KnitBench.Controller.Reference.Tracker
import KnitBench.Wire.Framer

/-! The state of the reference controller, and how it puts things out. -/

namespace KnitBench

namespace ReferenceController

/-- The line that is asked for or being knitted. -/
structure LineBuffer where
  index : UInt8 := 0
  bitmap : LineBitmap := .blank
  /-- Whether the line has arrived. -/
  ready : Bool := false
  /-- Whether it is the last of its pattern. -/
  last : Bool := false
  /-- The direction in which the selector entered the range. -/
  worked : Option Direction := none

end ReferenceController

open ReferenceController in
/-- A controller that behaves as the real one does on its lines, without running its program. Its
clock and its position are numbers of any size; what its machine words hold of them is in
`Words`. -/
structure ReferenceController where
  model : Model
  mode : Mode := .idle
  cycle : Nat := 0
  receiver : Wire.Framer := .empty
  /-- What has been put out and not collected yet. -/
  outbox : Array Output := #[]
  levels : Levels := ⟨false, false, false⟩
  hall : HallReading := .idle
  tracker : Tracker := {}
  /-- The first needle to knit. -/
  start : Nat := 0
  /-- The last needle to knit. -/
  stop : Nat := 0
  line : LineBuffer := {}
  /-- What was last put on the solenoids, if anything. -/
  register : Option Register := none
  /-- What the hardware test puts on the solenoids. -/
  testRegister : Register
  lamp0 : Bool := false
  lamp1 : Bool := false

namespace ReferenceController

/-- The controller at power-on. -/
def powerOn (m : Model) : ReferenceController where
  model := m
  testRegister := m.idleRegister

instance : Inhabited ReferenceController := ⟨powerOn default⟩

variable (c : ReferenceController)

/-- Puts something out. -/
def emit (o : Output) : ReferenceController := { c with outbox := c.outbox.push o }

/-- Sends a message in its frame. -/
def send (message : List UInt8) : ReferenceController :=
  { c with outbox := c.outbox ++ (Wire.frame message).map Output.serial }

/-- Switches lamp 0, which shows whether the controller knits; only a change is put out. -/
def switchLamp0 (on : Bool) : ReferenceController :=
  if c.lamp0 = on then c else { c with lamp0 := on }.emit (.lamp 0 on)

/-- Turns lamp 1 over. -/
def toggleLamp1 : ReferenceController := { c with lamp1 := !c.lamp1 }.emit (.lamp 1 !c.lamp1)

/-- A short tone. -/
def beep : ReferenceController := (c.emit (.beeper 0)).emit (.beeper 255)

/-- Goes into a mode. -/
def enter (mode : Mode) : Logged ReferenceController := do
  if c.mode ≠ mode then Logged.noteController (.modeChanged c.mode mode)
  return { c with mode }.switchLamp0 (decide (mode = Mode.knitting))

/-- Whether a needle is to be knitted. -/
def inRange (needle : Int) : Bool := decide ((c.start : Int) ≤ needle ∧ needle ≤ c.stop)

end ReferenceController

end KnitBench
