import KnitBench.Controller.Reference.Knitting
import KnitBench.Controller.Reference.Requests

/-! The reference controller as the bench sees it. -/

namespace KnitBench.ReferenceController

/-- Clock cycles in a second. -/
def clockRate : Nat := 16000000

/-- Clock cycles in a slice of time. -/
def cyclesPerStep : Nat := 40000

/-- The time that so many cycles take, in microseconds. -/
def microseconds (cycles : Nat) : Nat := cycles * 1000000 / clockRate

variable (c : ReferenceController)

/-- Works for one slice: follows the carriage, works on the line, drives the solenoids, and asks for
both sensors to be measured. -/
def step : Logged ReferenceController := do
  let tracker ← c.tracker.track c.model c.levels c.hall
  let c ← { c with cycle := c.cycle + cyclesPerStep, tracker }.workLine
  return (c.driveSolenoids.emit (.convert rightChannel)).emit (.convert leftChannel)

/-- Sets an input line. -/
def raise (line : Line) (value : UInt16) : ReferenceController :=
  match line with
  | .encoderV1 => { c with levels := { c.levels with v1 := value ≠ 0 } }
  | .encoderV2 => { c with levels := { c.levels with v2 := value ≠ 0 } }
  | .beltPhase => { c with levels := { c.levels with belt := value ≠ 0 } }
  | .hallLeft => { c with hall := { c.hall with left := value } }
  | .hallRight => { c with hall := { c.hall with right := value } }

/-- Receives a byte; the one that closes a frame has its message answered. -/
def receive (b : UInt8) : Logged ReferenceController :=
  let (message?, receiver) := c.receiver.push b
  let c := { c with receiver }
  message?.elim (pure c) c.onMessage

/-- Restarts. The clock runs on, and the digital lines still show what they show. -/
def reset : Logged ReferenceController := do
  Logged.noteController .restarted
  return { powerOn c.model with
    cycle := c.cycle
    levels := c.levels
    tracker := { quarter := Levels.quarter c.levels.v1 c.levels.v2 } }

instance : Controller ReferenceController where
  step c := do return (.running, ← c.step)
  cycle := cycle
  microseconds _ cycles := microseconds cycles
  takeOutputs c := (c.outbox.toList, { c with outbox := #[] })
  returnOutputs outputs c := { c with outbox := outputs.toArray ++ c.outbox }
  raise line value c := c.raise line value
  receive b c := c.receive b
  reset := reset

end KnitBench.ReferenceController
