/-! How the carriage moves: directions, the sides of the bed, and how the belt is coupled. -/

namespace KnitBench

/-- A direction of travel. Needles are numbered from the left. -/
inductive Direction
  | left
  | right
  deriving DecidableEq, Repr

namespace Direction

def reversed : Direction → Direction
  | left => right
  | right => left

/-- The change of a position by one needle in this direction. -/
def step : Direction → Int
  | left => -1
  | right => 1

/-- The byte that names the direction on the line. -/
def code : Direction → UInt8
  | left => 0
  | right => 1

def name : Direction → String
  | left => "Left"
  | right => "Right"

@[simp] theorem reversed_reversed (d : Direction) : d.reversed.reversed = d := by cases d <;> rfl

end Direction

/-- An end of the bed. -/
inductive Side
  | left
  | right
  deriving DecidableEq, Repr, Inhabited

namespace Side

/-- The direction that leads away from this side. -/
def firstDirection : Side → Direction
  | left => .right
  | right => .left

def name : Side → String
  | left => "Left"
  | right => "Right"

/-- The side with a given name; ASCII case is ignored. -/
def ofName? (s : String) : Option Side :=
  [left, right].find? (·.name.toLower == s.toLower)

end Side

/-- How the belt is coupled to the carriage. -/
inductive BeltPhase
  /-- Solenoid 0 drives needle 0. -/
  | regular
  /-- Coupled half a solenoid cycle later. -/
  | shifted
  deriving DecidableEq, Repr, Inhabited

namespace BeltPhase

def name : BeltPhase → String
  | regular => "Regular"
  | shifted => "Shifted"

/-- The belt phase with a given name; ASCII case is ignored. -/
def ofName? (s : String) : Option BeltPhase :=
  [regular, shifted].find? (·.name.toLower == s.toLower)

end BeltPhase

end KnitBench
