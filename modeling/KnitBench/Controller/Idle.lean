import KnitBench.Controller

/-! A controller that only lets time pass. -/

namespace KnitBench

/-- The state of a controller without a program. -/
structure IdleController where
  cycle : Nat := 0
  resets : Nat := 0
  /-- The lines set and not collected yet. -/
  raised : Array (Line × UInt16) := #[]

namespace IdleController

/-- Clock cycles in a slice of time. -/
def cyclesPerStep : Nat := 40000

/-- The time that so many cycles take, in microseconds. -/
def microseconds (cycles : Nat) : Nat := cycles / 16

variable (c : IdleController)

/-- Collects the lines set since the last time, oldest first. -/
def takeRaised : List (Line × UInt16) × IdleController :=
  (c.raised.toList, { c with raised := #[] })

instance : Controller IdleController where
  step c := pure (.sleeping, { c with cycle := c.cycle + cyclesPerStep })
  cycle := cycle
  microseconds _ cycles := microseconds cycles
  takeOutputs c := ([], c)
  returnOutputs _ c := c
  raise line value c := { c with raised := c.raised.push (line, value) }
  receive _ c := pure c
  reset c := pure { c with resets := c.resets + 1 }

end IdleController

end KnitBench
