/-! The modes of the reference controller. -/

namespace KnitBench.ReferenceController

/-- What the controller is prepared to do. -/
inductive Mode
  /-- Waiting to be told its machine. -/
  | idle
  /-- Told its machine; waiting to be told the needles. -/
  | ready
  /-- Knitting lines. -/
  | knitting
  /-- Hardware test. -/
  | test
  deriving DecidableEq, Repr

/-- The printed name. -/
def Mode.name : Mode → String
  | idle => "Idle"
  | ready => "Ready"
  | knitting => "Knitting"
  | test => "Test"

end KnitBench.ReferenceController
