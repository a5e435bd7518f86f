import KnitBench.Controller.Reference

/-! The reference controller wired straight to a mechanism, without the bench's clock. Whatever the
controller puts out is passed on at once; what an observer sees of it is kept. -/

namespace KnitBench

/-- A mechanism with its controller. -/
structure Rig where
  mechanism : Mechanism
  controller : ReferenceController
  /-- Reads what the controller sends. -/
  receiver : Wire.Framer := .empty

namespace Rig

/-- Something seen on the wires. -/
inductive Sight
  | solenoids (r : Register)
  | message (m : List UInt8)
  | beeper (duty : UInt8)
  | lamp (index : UInt8) (on : Bool)

/-- A rig at rest, with a controller made for a model. -/
def assemble (s : Setup) (m : Model) : Rig where
  mechanism := .initial s
  controller := Controller.raiseLevels (Mechanism.initial s).levels (.powerOn m)

variable (r : Rig)

/-- Passes on one thing that the controller has put out. -/
def passOn (o : Output) : Option Sight × Rig :=
  match o with
  | .solenoids v => (some (.solenoids v), { r with mechanism := r.mechanism.latch v })
  | .convert channel =>
    let c := if channel = rightChannel then r.controller.raise .hallRight r.mechanism.hall.right
      else r.controller.raise .hallLeft r.mechanism.hall.left
    (none, { r with controller := c })
  | .serial b =>
    let (message?, receiver) := r.receiver.push b
    (message?.map .message, { r with receiver })
  | .beeper duty => (some (.beeper duty), r)
  | .lamp index on => (some (.lamp index on), r)

/-- Passes on several things, oldest first. -/
def passAllOn : List Output → Rig → List Sight × Rig
  | [], r => ([], r)
  | o :: rest, r =>
    let (sight?, r) := r.passOn o
    let (sights, r) := passAllOn rest r
    (sight?.toList ++ sights, r)

/-- Collects and passes on what the controller has put out. -/
def pump : List Sight × Rig :=
  let (outputs, controller) := Controller.takeOutputs r.controller
  passAllOn outputs { r with controller }

/-- One slice of the controller's time. -/
def step : Logged (List Sight × Rig) := do
  return { r with controller := ← r.controller.step }.pump

/-- Several slices of the controller's time. -/
def steps : Nat → Rig → Logged (List Sight × Rig)
  | 0, r => pure ([], r)
  | n + 1, r => do
    let (sights, r) ← r.step
    let (more, r) ← steps n r
    return (sights ++ more, r)

/-- Moves the carriage by one encoder step, then lets the controller work for `n` slices. -/
def move (d : Direction) (n : Nat) : Logged (List Sight × Rig) :=
  let mechanism := r.mechanism.move d
  let controller := Controller.raiseLevels mechanism.levels r.controller
  steps n { r with mechanism, controller }

/-- Sends bytes to the controller. -/
def receive (bytes : List UInt8) : Logged (List Sight × Rig) := do
  return { r with controller := ← Controller.receiveAll bytes r.controller }.pump

/-- Resets the controller. -/
def reset : Logged Rig := do
  return { r with controller := ← r.controller.reset }

end Rig

end KnitBench
