import KnitBench.Register

/-! The signals between a controller and the mechanism. -/

namespace KnitBench

/-- An input line of a controller. -/
inductive Line
  | encoderV1
  | encoderV2
  | beltPhase
  | hallLeft
  | hallRight
  deriving DecidableEq, Repr

/-- The printed name of a line. -/
def Line.name : Line → String
  | encoderV1 => "EncoderV1"
  | encoderV2 => "EncoderV2"
  | beltPhase => "BeltPhase"
  | hallLeft => "HallLeft"
  | hallRight => "HallRight"

/-- Something a controller puts out. -/
inductive Output
  /-- A new value of the solenoid register. -/
  | solenoids (r : Register)
  /-- A measurement asked for on a channel of the analog converter. -/
  | convert (channel : UInt8)
  /-- A byte on the serial line. -/
  | serial (b : UInt8)
  | beeper (duty : UInt8)
  | lamp (index : UInt8) (on : Bool)
  deriving DecidableEq, Repr

/-- The converter channel of the right hall sensor. -/
def rightChannel : UInt8 := 0

/-- The converter channel of the left hall sensor. -/
def leftChannel : UInt8 := 1

/-- What a controller was doing when a slice of its time ended. -/
inductive Activity
  | running
  | sleeping
  | done
  | crashed
  deriving DecidableEq, Repr

namespace Activity

/-- The printed name. -/
def name : Activity → String
  | running => "Running"
  | sleeping => "Sleeping"
  | done => "Done"
  | crashed => "Crashed"

/-- Whether the controller will do no more. -/
def isTerminal : Activity → Bool
  | done | crashed => true
  | running | sleeping => false

end Activity

end KnitBench
