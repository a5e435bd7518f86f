import KnitBench.Carriage
import KnitBench.Motion

/-! Where each carriage carries its selector and its magnets, what the hall sensors read over them,
and which solenoid drives which needle. -/

namespace KnitBench

/-- An inclusive range of carriage positions. -/
structure Band where
  low : Int
  high : Int
  deriving DecidableEq, Repr

/-- Whether a position lies in the band. -/
def Band.covers (b : Band) (position : Int) : Bool :=
  decide (b.low ≤ position ∧ position ≤ b.high)

/-- What the two end-of-line sensors read. -/
structure HallReading where
  left : UInt16
  right : UInt16
  deriving DecidableEq, Repr

namespace HallReading

/-- The level of a sensor without a magnet. -/
def rest : UInt16 := 1650

/-- The level over a north pole. -/
def north : UInt16 := 2200

/-- The level over a south pole. -/
def south : UInt16 := 100

/-- A digital input pulled low. -/
def digitalLow : UInt16 := 0

/-- No magnet near either sensor. -/
def idle : HallReading := ⟨rest, rest⟩

instance : Inhabited HallReading := ⟨idle⟩

def atLeft (level : UInt16) : HallReading := ⟨level, rest⟩

def atRight (level : UInt16) : HallReading := ⟨rest, level⟩

/-- A north pole at the right sensor, which is a digital input on the KH910. -/
def rightNorth : Model → UInt16
  | .kh910 => digitalLow
  | .kh930 | .kh270 => north

/-- A south pole at the right sensor; the digital input of the KH910 does not see it. -/
def rightSouth : Model → UInt16
  | .kh910 => rest
  | .kh930 | .kh270 => south

end HallReading

namespace Carriage

open HallReading

/-- The carriage position at which the leading selector of a rightward pass sits on needle 0 with
the encoder at phase 0. -/
def homePosition : Carriage → Int
  | knit => 24
  | lace => 12
  | garter => 0
  | knit270 => 15

/-- The distance from the carriage to its active selector, which trails the movement. -/
def selectOffset (c : Carriage) (d : Direction) : Int :=
  -c.homePosition * d.step

/-- Whether the mapping of solenoids to needles shifts by half a cycle on the way left. -/
def shiftsMovingLeft : Carriage → Bool
  | lace => true
  | knit | garter | knit270 => false

/-- The positions at which the left and the right sensor may see a magnet, on a bed of so many
needles. -/
def sensorBands (c : Carriage) (needles : Int) : Band × Band :=
  match c with
  | knit | lace => (⟨0, 0⟩, ⟨needles - 1, needles - 1⟩)
  | garter => (⟨-12, 12⟩, ⟨needles - 13, needles + 11⟩)
  | knit270 => (⟨-6, 0⟩, ⟨needles - 1, needles + 5⟩)

/-- What the sensors read with the carriage at a position. Where magnets of both sides fall
together, the left sensor is served first, and of one side the south pole. -/
def reading (c : Carriage) (m : Model) (needles position : Int) : HallReading :=
  match c with
  | knit =>
    if position = 0 then atLeft north
    else if position = needles - 1 then atRight (rightNorth m)
    else idle
  | lace =>
    if position = 0 then atLeft south
    else if position = needles - 1 then atRight (rightSouth m)
    else idle
  | garter =>
    if position = -12 ∨ position = 12 then atLeft south
    else if position = -10 ∨ position = 10 then atLeft north
    else if position = needles - 13 ∨ position = needles + 11 then atRight (rightSouth m)
    else if position = needles - 11 ∨ position = needles + 9 then atRight (rightNorth m)
    else idle
  | knit270 =>
    if position = -6 ∨ position = 0 then atLeft north
    else if position = needles - 1 ∨ position = needles + 5 then atRight north
    else idle

/-- How far solenoid numbers are ahead of needle numbers. -/
def armatureShift (c : Carriage) (m : Model) (belt : BeltPhase) (d : Direction) : Int :=
  let half : Int := (m.solenoidCount / 2 : Nat)
  match m with
  | .kh270 => 4 + (if d = .left then half else 0)
  | .kh910 | .kh930 =>
    (if belt = .shifted then half else 0) +
      (if d = .left ∧ c.shiftsMovingLeft = true then half else 0)

/-- The solenoid that drives a needle. Needles one solenoid cycle apart share a solenoid. -/
def armatureIndex (c : Carriage) (m : Model) (belt : BeltPhase) (d : Direction)
    (needle : Int) : Nat :=
  ((needle + c.armatureShift m belt d) % (m.solenoidCount : Int)).toNat

variable (c : Carriage) (m : Model) (belt : BeltPhase) (d : Direction) (needle : Int)

theorem armatureIndex_lt : c.armatureIndex m belt d needle < m.solenoidCount := by
  have hn : (0 : Int) < m.solenoidCount := by exact_mod_cast m.solenoidCount_pos
  have h₀ := Int.emod_nonneg (needle + c.armatureShift m belt d) (Int.ne_of_gt hn)
  have h₁ := Int.emod_lt_of_pos (needle + c.armatureShift m belt d) hn
  unfold armatureIndex
  omega

end Carriage

end KnitBench
