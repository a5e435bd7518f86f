import KnitBench.Encoder
import KnitBench.Logged

/-! What the bench needs of a controller: it works in slices of time, it has input lines and a
serial receiver, and its output is collected between slices. -/

namespace KnitBench

/-- A controller under test, as a machine with states `σ`. -/
class Controller (σ : Type) where
  /-- Works for one slice of time. -/
  step : σ → Logged (Activity × σ)
  /-- The clock cycles so far. -/
  cycle : σ → Nat
  /-- The time that so many cycles take, in microseconds. -/
  microseconds : σ → Nat → Nat
  /-- Takes what has been put out and not collected yet, oldest first. -/
  takeOutputs : σ → List Output × σ
  /-- Puts uncollected output back in front. -/
  returnOutputs : List Output → σ → σ
  /-- Sets an input line. -/
  raise : Line → UInt16 → σ → σ
  /-- Receives a byte on the serial line. -/
  receive : UInt8 → σ → Logged σ
  /-- Restarts as after a press of the reset button. -/
  reset : σ → Logged σ

namespace Controller

variable {σ : Type} [Controller σ]

/-- The level of a digital line. -/
def digital (on : Bool) : UInt16 := if on then 1 else 0

/-- Sets the three digital lines. -/
def raiseLevels (l : Levels) (c : σ) : σ :=
  let c := raise .encoderV2 (digital l.v2) c
  let c := raise .encoderV1 (digital l.v1) c
  raise .beltPhase (digital l.belt) c

/-- Receives bytes one after another. -/
def receiveAll : List UInt8 → σ → Logged σ
  | [], c => pure c
  | b :: rest, c => do receiveAll rest (← receive b c)

/-- The time now. -/
def now (c : σ) : Nat := microseconds c (cycle c)

end Controller

end KnitBench
