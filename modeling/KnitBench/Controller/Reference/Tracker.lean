import KnitBench.Controller

/-! How the reference controller follows the carriage: the hall sensors tell which carriage it is
and anchor its position, the encoder counts from there, and the belt sensor settles the belt
phase. -/

namespace KnitBench.ReferenceController

/-- A pole of a magnet. -/
inductive Pole
  | north
  | south
  deriving DecidableEq, Repr

/-- The pole that a sensor reads at a level. The right sensor of the KH910 is digital: a north pole
pulls it low, and it sees no other. -/
def Pole.ofLevel (m : Model) (sensor : Side) (level : UInt16) : Option Pole :=
  if sensor = .right ∧ m = .kh910 then
    if level < 400 then some north else none
  else if 1900 < level then some north
  else if level < 400 then some south
  else none

/-- What the controller knows about the carriage. -/
structure Tracker where
  /-- The quarter step last seen on the encoder. -/
  quarter : Fin 4 := Levels.quarter false false
  direction : Option Direction := none
  /-- Whole needles; counted from power-on until a carriage is detected. -/
  position : Int := 0
  carriage : Option Carriage := none
  /-- A south pole that may be the first magnet of a garter carriage: its sensor, and where. -/
  southSeen : Option (Side × Int) := none
  belt : Option BeltPhase := none
  deriving DecidableEq, Repr

namespace Tracker

/-- A north pole this many needles after a south pole still belongs to the same carriage. -/
def pairingReach : Nat := 3

/-- The position of a carriage at the moment that a sensor tells it. -/
def anchor (m : Model) (c : Carriage) (sensor : Side) (d : Option Direction) : Int :=
  let needles : Int := m.needleCount
  let leftward : Bool := d = some .left
  match c, sensor with
  | .knit, .left | .lace, .left => 0
  | .knit, .right | .lace, .right => needles - 1
  | .garter, .left => if leftward then 10 else -10
  | .garter, .right => if leftward then needles + 9 else needles - 11
  | .knit270, .left => if leftward then 0 else -6
  | .knit270, .right => if leftward then needles + 5 else needles - 1

/-- Takes a carriage as detected. What was known of the belt no longer holds. -/
def detect (m : Model) (c : Carriage) (sensor : Side) (t : Tracker) : Logged Tracker := do
  let position := anchor m c sensor t.direction
  Logged.noteController (.carriageDetected c position)
  return { t with position, carriage := some c, belt := none }

/-- Gives up on a south pole that has been left behind. -/
def forgetSouth (t : Tracker) : Tracker :=
  match t.southSeen with
  | some (_, seenAt) =>
    if pairingReach < (t.position - seenAt).natAbs then { t with southSeen := none } else t
  | none => t

/-- Meets a pole at a sensor. A north pole tells a knit carriage and a south pole a lace carriage,
until a north pole at the same sensor turns the lace carriage into a garter carriage. -/
def meet (m : Model) (sensor : Side) (pole : Pole) (t : Tracker) : Logged Tracker :=
  match t.carriage, pole with
  | none, .north => t.detect m (if m = .kh270 then .knit270 else .knit) sensor
  | none, .south =>
    if m = .kh270 then pure t
    else do
      let t ← t.detect m .lace sensor
      return { t with southSeen := some (sensor, t.position) }
  | some .lace, .north =>
    match t.southSeen with
    | some (side, _) =>
      if side = sensor then { t with southSeen := none }.detect m .garter sensor else pure t
    | none => pure t
  | _, _ => pure t

/-- Reads one sensor. -/
def readSensor (m : Model) (sensor : Side) (level : UInt16) (t : Tracker) : Logged Tracker :=
  (Pole.ofLevel m sensor level).elim (pure t) fun pole => t.meet m sensor pole

/-- Reads both sensors, the left one first. -/
def sense (m : Model) (hall : HallReading) (t : Tracker) : Logged Tracker := do
  let t ← t.forgetSouth.readSensor m .left hall.left
  t.readSensor m .right hall.right

/-- Counts one encoder step. Only the next quarter on either side is understood as a step. -/
def decode (l : Levels) (t : Tracker) : Logged Tracker :=
  let quarter := Levels.quarter l.v1 l.v2
  match quarter - t.quarter with
  | 0 => pure t
  | 1 => pure { t with
      quarter
      direction := some .right
      position := if quarter.val = 0 then t.position + 1 else t.position }
  | 2 => do
    Logged.noteController .quarterSkipped
    return { t with quarter }
  | 3 => pure { t with
      quarter
      direction := some .left
      position := if quarter.val = 3 then t.position - 1 else t.position }

/-- The belt level to expect of a carriage where the tracker has it, the belt coupled so many
needles late. -/
def expectedBelt (m : Model) (c : Carriage) (shift : Nat) (t : Tracker) : Bool :=
  let n := m.solenoidCount
  let phase := (4 * (t.position - c.homePosition - shift) + t.quarter.val) % (4 * n : Nat)
  beltLevel phase.toNat n

/-- Settles the belt phase as soon as the belt sensor shows what only one phase explains. -/
def inferBelt (m : Model) (level : Bool) (t : Tracker) : Logged Tracker :=
  match t.carriage, t.belt with
  | some c, none =>
    if m = .kh270 then pure t
    else
      let settle (b : BeltPhase) : Logged Tracker := do
        Logged.noteController (.beltPhaseKnown b)
        return { t with belt := some b }
      match t.expectedBelt m c 0 == level, t.expectedBelt m c (m.solenoidCount / 2) == level with
      | true, false => settle .regular
      | false, true => settle .shifted
      | _, _ => pure t
  | _, _ => pure t

/-- Follows the carriage through one slice of time. -/
def track (m : Model) (l : Levels) (hall : HallReading) (t : Tracker) : Logged Tracker := do
  let t ← t.sense m hall
  let t ← t.decode l
  t.inferBelt m l.belt

/-- The needle at the selector of a carriage moving in a direction. -/
def selected (c : Carriage) (d : Direction) (t : Tracker) : Int := t.position + c.selectOffset d

end Tracker

end KnitBench.ReferenceController
