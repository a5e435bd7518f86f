/-! The rotary encoder and the belt sensor: which levels their lines show at each phase of the
selector cam. -/

namespace KnitBench

/-- The digital lines: both encoder channels and the belt phase sensor. -/
structure Levels where
  v1 : Bool
  v2 : Bool
  belt : Bool
  deriving DecidableEq, Repr, Inhabited

/-- The belt phase sensor leads the encoder by this many quarter steps. -/
def beltLead : Nat := 8

/-- The belt sensor is low in the second half of a revolution of the cam, less its lead. -/
def beltLevel (phase solenoids : Nat) : Bool :=
  decide ((phase + beltLead) % (4 * solenoids) ≤ 2 * solenoids)

namespace Levels

/-- The levels at a phase of a cam with so many solenoids. From one quarter step to the next one
encoder channel changes: the first channel is high in quarters 2 and 3, the second in 1 and 2. -/
def ofPhase (phase solenoids : Nat) : Levels where
  v1 := decide (2 ≤ phase % 4)
  v2 := decide (phase % 4 = 1 ∨ phase % 4 = 2)
  belt := beltLevel phase solenoids

/-- The quarter step that both channels show. -/
def quarter (v1 v2 : Bool) : Fin 4 :=
  match v1, v2 with
  | false, false => 0
  | false, true => 1
  | true, true => 2
  | true, false => 3

theorem quarter_ofPhase (phase solenoids : Nat) :
    (quarter (ofPhase phase solenoids).v1 (ofPhase phase solenoids).v2).val = phase % 4 := by
  have h : phase % 4 < 4 := Nat.mod_lt _ (by decide)
  unfold ofPhase
  generalize phase % 4 = q at h
  match q, h with
  | 0, _ | 1, _ | 2, _ | 3, _ => rfl

end Levels

end KnitBench
