import KnitBench.Setup.Error
import KnitBench.Needle

/-! What is fixed for one run: the machine and its carriage, the needles to knit, and the options of
a trial. A `Setup` holds only what has passed every check. -/

namespace KnitBench

/-- Where the two hall sensors see magnets: two proper bands, the left one before the right one. -/
structure HallBands where
  left : Band
  right : Band
  left_ordered : left.low ≤ left.high
  right_ordered : right.low ≤ right.high
  separate : left.high < right.low

namespace HallBands

/-- Checks two bands. -/
def make (left right : Band) : Except SetupError HallBands :=
  if h : left.low ≤ left.high ∧ right.low ≤ right.high ∧ left.high < right.low then
    .ok ⟨left, right, h.1, h.2.1, h.2.2⟩
  else
    .error (.overlappingBands left right)

/-- Whether a magnet is near a sensor with the carriage at a position. -/
def covers (b : HallBands) (position : Int) : Bool :=
  b.left.covers position || b.right.covers position

end HallBands

/-- The machine, its carriage and the needles of one run. -/
structure Setup where
  model : Model
  carriage : Carriage
  belt : BeltPhase
  side : Side
  start : Nat
  stop : Nat
  runs : carriage.RunsOn model
  seen : side = .right → carriage.SeenFromRight model
  start_le_stop : start ≤ stop
  stop_lt_needleCount : stop < model.needleCount

/-- How far the carriage travels beyond either end of the bed, in needles. -/
def margin : Int := 28

namespace Setup

/-- The alternating bed of the first machine, its knit carriage at the left. -/
def standard : Setup :=
  ⟨.kh910, .knit, .regular, .left, 0, 199, by decide, by decide, by decide, by decide⟩

instance : Inhabited Setup := ⟨standard⟩

variable (s : Setup)

/-- The last carriage position on the left. -/
def leftRail (_ : Setup) : Int := -margin

/-- The last carriage position on the right. -/
def rightRail : Int := s.model.needleCount + margin - 1

/-- The sensor bands of the carriage on this bed. -/
def bands : Band × Band := s.carriage.sensorBands s.model.needleCount

/-- The bands of every setup are in order. -/
def hallBands : HallBands :=
  have h : s.bands.1.low ≤ s.bands.1.high ∧ s.bands.2.low ≤ s.bands.2.high ∧
      s.bands.1.high < s.bands.2.low := by
    unfold bands
    cases s.carriage <;> cases s.model <;> decide
  ⟨s.bands.1, s.bands.2, h.1, h.2.1, h.2.2⟩

/-- Where the carriage stands at first: at its home position, half a solenoid cycle on if the belt
is shifted, moved by whole cycles as far to the start side as the margin allows. -/
def initialPosition : Int :=
  let cycle : Int := s.model.solenoidCount
  let home := s.carriage.homePosition + if s.belt = .shifted then cycle / 2 else 0
  match s.side with
  | .left => s.leftRail + (home - s.leftRail) % cycle
  | .right => s.rightRail - (s.rightRail - home) % cycle

end Setup

/-- A setup as it is asked for. What is left open takes the machine's usual value. -/
structure SetupRequest where
  model : Model := .kh910
  carriage : Option Carriage := none
  belt : BeltPhase := .regular
  side : Side := .left
  start : Option Nat := none
  stop : Option Nat := none

/-- Checks a request: first the carriage, then its side, then the needles, each on the bed before
their order. -/
def SetupRequest.build (r : SetupRequest) : Except SetupError Setup :=
  let asked := r.carriage.getD .knit
  let carriage := asked.fittedTo r.model
  let start := r.start.getD 0
  let stop := r.stop.getD (r.model.needleCount - 1)
  if runs : carriage.RunsOn r.model then
    if seen : r.side = .right → carriage.SeenFromRight r.model then
      if start < r.model.needleCount then
        if onBed : stop < r.model.needleCount then
          if ordered : start ≤ stop then
            .ok ⟨r.model, carriage, r.belt, r.side, start, stop, runs, seen, ordered, onBed⟩
          else .error (.invertedRange start stop)
        else .error (.needleOutOfRange stop r.model.needleCount)
      else .error (.needleOutOfRange start r.model.needleCount)
    else .error (.undetectableFromRight r.model carriage)
  else .error (.unsupportedCarriage r.model asked)

/-- The options of a trial: the pattern to knit, the one to expect, and the number of ticks that a
line request waits for its answer. -/
structure TrialOptions where
  pattern : Pattern := .alternating
  expected : Pattern := .alternating
  delay : Nat := 10

namespace TrialOptions

/-- Reads pattern text. -/
def readPattern (text : String) : Except SetupError Pattern :=
  (Pattern.ofText? text).elim (.error (.invalidPattern text)) .ok

/-- Options as they are asked for. The expected pattern is the one to knit unless it is given, and
the pattern to knit is checked first. -/
def build (pattern expected : Option String) (delay : Option Nat) :
    Except SetupError TrialOptions := do
  let knitted ← pattern.elim (.ok .alternating) readPattern
  let wanted ← expected.elim (.ok knitted) readPattern
  return ⟨knitted, wanted, delay.getD 10⟩

end TrialOptions

end KnitBench
