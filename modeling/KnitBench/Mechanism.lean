import KnitBench.Setup
import KnitBench.Encoder

/-! The mechanism of a knitting machine: carriage, encoder, solenoids and needles. It advances by
one encoder step at a time. The phase counts quarter needles through one revolution of the selector
cam, and each armature follows its solenoid only while the cam pushes it. -/

namespace KnitBench

/-- The state of the mechanism under one setup. -/
structure Mechanism where
  setup : Setup
  /-- Whole needles. -/
  position : Int
  /-- The last move. -/
  direction : Direction
  /-- Quarter needles within one revolution of the cam. -/
  phase : Nat
  /-- The needle at the active selector, on the bed or off it. -/
  selected : Int
  hall : HallReading
  /-- What the controller last put on its outputs. -/
  register : Register
  /-- The solenoid levels sampled by the last move. -/
  solenoids : Register
  /-- The levels sampled by the move before. -/
  previous : Register
  armatures : Register
  needles : Array Needle
  /-- Whether something has changed since the last display. -/
  stale : Bool

namespace Mechanism

/-- The cam is this close when an armature takes its solenoid's level. -/
def engageReach : Nat := 2

/-- The cam is this close when a powered solenoid still draws its armature. -/
def releaseReach : Nat := 6

/-- The mechanism at rest at the start of a run, every needle idle. -/
def initial (s : Setup) : Mechanism where
  setup := s
  position := s.initialPosition
  direction := s.side.firstDirection
  phase := 0
  selected := s.initialPosition + s.carriage.selectOffset s.side.firstDirection
  hall := .idle
  register := 0
  solenoids := 0
  previous := 0
  armatures := BitVec.ofNat 16 (1 <<< s.model.solenoidCount - 1)
  needles := Array.replicate s.model.needleCount .idle
  stale := true

variable (m : Mechanism)

/-- Quarter steps in one revolution of the cam. -/
def span : Nat := 4 * m.setup.model.solenoidCount

/-- The levels of the digital lines. -/
def levels : Levels := .ofPhase m.phase m.setup.model.solenoidCount

/-- Whether the carriage can go no further. -/
def atRail : Direction → Bool
  | .left => decide (m.position ≤ m.setup.leftRail)
  | .right => decide (m.setup.rightRail ≤ m.position)

/-- Position and phase after one encoder step. A step that would leave the last needle of the rail
changes nothing but, at most, a position beyond it. -/
def stepped (d : Direction) : Int × Nat :=
  match d with
  | .right =>
    let next := (m.phase + 1) % m.span
    if next % 4 = 0 then
      if m.position < m.setup.rightRail then (m.position + 1, next)
      else (m.setup.rightRail, m.phase)
    else (m.position, next)
  | .left =>
    let next := (m.phase + m.span - 1) % m.span
    if next % 4 = 3 then
      if m.setup.leftRail < m.position then (m.position - 1, next)
      else (m.setup.leftRail, m.phase)
    else (m.position, next)

/-- The distance of the cam from the armature of solenoid `i`, in quarter steps. -/
def camDistance (solenoids phase i : Nat) : Nat :=
  let angle := (phase + 4 * (solenoids - i)) % (4 * solenoids)
  (angle - 2 * solenoids) + (2 * solenoids - angle)

/-- Armature `i` after the cam has passed at a distance: near by it takes its solenoid's level, and
a little farther off it is still drawn if the solenoid has power. -/
def follow (distance : Nat) (solenoids armatures : Register) (i : Nat) : Register :=
  if distance ≤ engageReach then armatures.put i (solenoids.getLsbD i)
  else if distance ≤ releaseReach ∧ solenoids.getLsbD i = false then armatures.put i false
  else armatures

/-- All armatures of a cam with `n` solenoids, after a move to a phase. -/
def followAll (n phase : Nat) (solenoids armatures : Register) : Register :=
  n.fold (fun i _ a => follow (camDistance n phase i) solenoids a i) armatures

/-- The hall sensors with the carriage at a position. -/
def hallAt (s : Setup) (position : Int) : HallReading :=
  if s.hallBands.covers position then
    s.carriage.reading s.model s.model.needleCount position
  else .idle

/-- The needle that an armature leaves: a drawn armature selects it. -/
def needleOf (released : Bool) : Needle :=
  if released then .idle else .selected

/-- Puts a controller's output on the solenoids. It takes effect with the next move. -/
def latch (r : Register) : Mechanism := { m with register := r }

/-- Moves the carriage by one encoder step: the sensors and the sampled solenoids follow the new
place, then the armatures, and last the needle at the selector. -/
def move (d : Direction) : Mechanism :=
  let (position, phase) := m.stepped d
  let s := m.setup
  let solenoids := s.model.solenoidBits m.register
  let armatures := followAll s.model.solenoidCount phase solenoids m.armatures
  let selected := position + s.carriage.selectOffset d
  let released := armatures.getLsbD (s.carriage.armatureIndex s.model s.belt d selected)
  { m with
    position, phase, selected, solenoids, armatures
    direction := d
    hall := hallAt s position
    previous := m.solenoids
    needles :=
      if 0 ≤ selected then m.needles.setIfInBounds selected.toNat (needleOf released) else m.needles
    stale := true }

/-- The mechanism after its display has been refreshed. -/
def refreshed : Mechanism := { m with stale := false }

@[simp] theorem setup_move (d : Direction) : (m.move d).setup = m.setup := rfl

@[simp] theorem direction_move (d : Direction) : (m.move d).direction = d := rfl

@[simp] theorem register_move (d : Direction) : (m.move d).register = m.register := rfl

@[simp] theorem setup_latch (r : Register) : (m.latch r).setup = m.setup := rfl

@[simp] theorem register_latch (r : Register) : (m.latch r).register = r := rfl

end Mechanism

end KnitBench
