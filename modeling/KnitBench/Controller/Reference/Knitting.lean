import KnitBench.Controller.Reference.State

/-! How the reference controller works through a line: it drives the solenoids of the needles ahead
of the selector, and asks for the next line when the selector has left the range on the far side. -/

namespace KnitBench.ReferenceController

variable (c : ReferenceController)

/-- The line has been knitted. Signals it, and asks for the next line unless it was the last. -/
def finishLine : Logged ReferenceController := do
  let done := c.line.index
  let c := { c with line := { c.line with ready := false, worked := none } }.beep.toggleLamp1
  if c.line.last then
    Logged.noteController (.patternFinished done)
    c.enter .ready
  else
    Logged.noteController (.lineFinished done)
    return { c with line := { c.line with index := done + 1 } }.send (Message.reqLine (done + 1))

/-- Whether a selector that entered in direction `worked` has left the range on the far side. -/
def leftRange (selected : Int) (worked : Direction) : Bool :=
  match worked with
  | .right => decide ((c.stop : Int) < selected)
  | .left => decide (selected < c.start)

/-- Notes when the selector enters the range, and finishes the line when it has left it. -/
def workLine : Logged ReferenceController :=
  if c.mode = .knitting ∧ c.line.ready then
    match c.tracker.carriage, c.tracker.direction with
    | some carriage, some direction =>
      let selected := c.tracker.selected carriage direction
      let worked := c.line.worked.or (if c.inRange selected then some direction else none)
      let c := { c with line := { c.line with worked } }
      if worked.any (c.leftRange selected) then c.finishLine else pure c
    | _, _ => pure c
  else pure c

/-- The register while a line is knitted: in the window of needles ahead of the selector, one for
each solenoid, a needle that the line selects has its solenoid powered. -/
def lineRegister (carriage : Carriage) (direction : Direction) : Register :=
  let n := c.model.solenoidCount
  let selected := c.tracker.selected carriage direction
  let belt := c.tracker.belt.getD .regular
  n.fold (fun i _ r =>
    let needle := selected + (i + 1 : Nat) * direction.step
    if c.inRange needle && c.line.bitmap.selects needle.toNat then
      r.put (c.model.registerBit (carriage.armatureIndex c.model belt direction needle)) false
    else r) c.model.idleRegister

/-- What belongs on the solenoids now. -/
def wantedRegister : Register :=
  if c.mode = .test then c.testRegister
  else if c.mode = .knitting ∧ c.line.ready then
    match c.tracker.carriage, c.tracker.direction with
    | some carriage, some direction => c.lineRegister carriage direction
    | _, _ => c.model.idleRegister
  else c.model.idleRegister

/-- Puts the solenoids right; only a change is put out. -/
def driveSolenoids : ReferenceController :=
  let r := c.wantedRegister
  if c.register = some r then c else { c with register := some r }.emit (.solenoids r)

end KnitBench.ReferenceController
