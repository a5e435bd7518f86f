import KnitBench.Controller
import KnitBench.Wire.Framer

/-! A controller that plays a prepared part: it puts out given things at given steps, and answers
the messages it receives, one after another, with given answers. -/

namespace KnitBench

/-- What a scripted controller does at one step. -/
structure ScriptedController.Scene where
  /-- The number of the step; the first is 1. -/
  turn : Nat
  outputs : List Output
  activity : Activity

/-- The state of a scripted controller. -/
structure ScriptedController where
  cyclesPerStep : Nat
  /-- Whether a reset sets the clock back to zero. -/
  rewinds : Bool
  scenes : List ScriptedController.Scene
  /-- The answers still to be given: each a list of bodies. -/
  replies : List (List (List UInt8))
  steps : Nat := 0
  cycle : Nat := 0
  resets : Nat := 0
  /-- How often a line has been set. -/
  raises : Nat := 0
  receiver : Wire.Framer := .empty
  received : Array (List UInt8) := #[]
  outbox : List Output := []

namespace ScriptedController

/-- The bytes that carry a body, stamped and framed. -/
def sent (body : List UInt8) : List Output := (Wire.frame (Message.stamp body)).map .serial

variable (c : ScriptedController)

/-- Plays the scenes of the next step; the last of them says what the controller was doing. -/
def step : Activity × ScriptedController :=
  let steps := c.steps + 1
  let scenes := c.scenes.filter (·.turn = steps)
  let activity := (scenes.getLast?).elim .running (·.activity)
  (activity, { c with
    steps
    cycle := c.cycle + c.cyclesPerStep
    outbox := c.outbox ++ scenes.flatMap (·.outputs) })

/-- Receives a byte; a complete message is recorded and answered. -/
def receive (b : UInt8) : ScriptedController :=
  match c.receiver.push b with
  | (none, receiver) => { c with receiver }
  | (some message, receiver) => { c with
      receiver
      received := c.received.push message
      replies := c.replies.drop 1
      outbox := c.outbox ++ (c.replies.head?.getD []).flatMap sent }

instance : Controller ScriptedController where
  step c := pure c.step
  cycle := cycle
  microseconds _ cycles := cycles / 16
  takeOutputs c := (c.outbox, { c with outbox := [] })
  returnOutputs outputs c := { c with outbox := outputs ++ c.outbox }
  raise _ _ c := { c with raises := c.raises + 1 }
  receive b c := pure (c.receive b)
  reset c := pure { c with resets := c.resets + 1, cycle := if c.rewinds then 0 else c.cycle }

end ScriptedController

end KnitBench
