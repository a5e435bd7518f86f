import KnitBench.Controller
import KnitBench.Cue
import KnitBench.Trial
import KnitBench.Wire.Framer

/-! The bench: a mechanism and a controller wired to each other, with the operator's cues, an
optional trial, and the displays. Each step of the bench is one slice of the controller's time; the
mechanism ticks whenever enough of that time has gone by. -/

namespace KnitBench

/-- The state of a bench with a controller of type `σ`. -/
structure Bench (σ : Type) where
  mechanism : Mechanism
  controller : σ
  queue : CueQueue := .empty
  trial : Option Trial := none
  /-- Reads what the controller sends. -/
  receiver : Wire.Framer := .empty
  traffic : Traffic := .blank
  panel : Panel := .powerOn
  /-- Whether messages are reported as they pass. -/
  tracing : Bool := false
  /-- The controller's time at the last tick, in microseconds. -/
  lastTick : Nat := 0
  ticks : Nat := 0
  verdict : Option Trial.Verdict := none

/-- How a step of the bench ends. -/
inductive Bench.Status
  | running
  /-- The controller has stopped. -/
  | halted
  /-- The trial has reached a verdict. -/
  | finished (v : Trial.Verdict)
  deriving DecidableEq, Repr

namespace Bench

/-- A tick is due when more than this time has gone by, in microseconds. -/
def tickInterval : Nat := 10000

variable {σ : Type} [Controller σ]

/-- A bench at rest, the lines of the controller set to what the mechanism shows. -/
def assemble (s : Setup) (controller : σ) : Bench σ where
  mechanism := .initial s
  controller := Controller.raiseLevels (Mechanism.initial s).levels controller

/-- A bench that is to run a trial. -/
def withTrial (b : Bench σ) (o : TrialOptions) : Bench σ :=
  { b with trial := some (.begin b.mechanism.setup o) }

variable (b : Bench σ)

/-- The controller's time. -/
def now : Nat := Controller.now b.controller

/-- Moves the carriage by one encoder step and sets the digital lines. -/
def move (d : Direction) : Bench σ :=
  let mechanism := b.mechanism.move d
  { b with mechanism, controller := Controller.raiseLevels mechanism.levels b.controller }

/-- Obeys a cue. -/
def obey (cue : Cue) : Logged (Bench σ) :=
  match cue.action with
  | .moveLeft => pure (b.move .left)
  | .moveRight => pure (b.move .right)
  | .reset => do
    Logged.noteBench .resetRequested
    return { b with controller := ← Controller.reset b.controller }
  | .toggleTrace => do
    Logged.noteBench (.tracingSwitched !b.tracing)
    return { b with tracing := !b.tracing }

/-- Records a message, and reports it while tracing. -/
def record (heading : Heading) (message : List UInt8) : Logged (Bench σ) := do
  if b.tracing then Logged.noteBench (.exchanged b.now heading message)
  return { b with traffic := b.traffic.record heading message }

/-- Obeys the oldest cue, if one waits. -/
def obeyNext : Logged (Bench σ) :=
  match b.queue.pop with
  | some (cue, queue) => { b with queue }.obey cue
  | none => pure b

/-- Lets the trial tick, and makes the move that it asks for. -/
def tickTrial : Logged (Bench σ) :=
  match b.trial with
  | none => pure b
  | some trial => do
    let (planned?, trial) ← trial.tick b.mechanism
    match planned? with
    | none => return { b with trial := some trial }
    | some d =>
      let b := b.move d
      let (verdict?, trial) ← trial.afterMove b.mechanism
      return { b with trial := some trial, verdict := verdict?.or b.verdict }

/-- Shows the state again if it has changed. -/
def refresh : Logged (Bench σ) :=
  if b.mechanism.stale then do
    Logged.noteBench (.mechanismShown b.mechanism)
    Logged.noteBench (.panelShown b.panel)
    Logged.noteBench (.trafficShown b.traffic)
    Logged.noteBench (.bedShown b.mechanism)
    return { b with mechanism := b.mechanism.refreshed, panel := b.panel.refreshed }
  else pure b

/-- One tick of the mechanism: a cue, then the trial, then the display. -/
def tick : Logged (Bench σ) := do
  let b ← { b with ticks := b.ticks + 1 }.obeyNext
  let b ← b.tickTrial
  b.refresh

/-- Ticks if it is time. A clock that has been set back starts the wait anew. -/
def tickIfDue : Logged (Bench σ) :=
  let now := b.now
  let last := min b.lastTick now
  if tickInterval < now - last then { b with lastTick := now }.tick
  else pure { b with lastTick := last }

/-- Hands a message of the controller to the trial. -/
def consult (message : List UInt8) : Logged (Option ProtocolFault × Bench σ) :=
  match b.trial with
  | none => pure (none, b)
  | some trial => do
    let (answer, trial) ← trial.hear message
    let b := { b with trial := some trial }
    match answer with
    | .ok _ => return (none, b)
    | .error fault => return (some fault, b)

/-- Passes on one thing that the controller has put out. -/
def passOn (o : Output) : Logged (Option ProtocolFault × Bench σ) :=
  match o with
  | .solenoids r => pure (none, { b with mechanism := b.mechanism.latch r })
  | .convert channel =>
    if channel = rightChannel then
      let c := Controller.raise .hallRight b.mechanism.hall.right b.controller
      pure (none, { b with controller := c })
    else if channel = leftChannel then
      let c := Controller.raise .hallLeft b.mechanism.hall.left b.controller
      pure (none, { b with controller := c })
    else do
      Logged.noteBench (.channelUnconnected channel)
      return (none, b)
  | .serial byte =>
    match b.receiver.push byte with
    | (none, receiver) => pure (none, { b with receiver })
    | (some message, receiver) => do
      let b ← { b with receiver }.record .fromDevice message
      b.consult message
  | .beeper duty => pure (none, { b with panel := b.panel.beep duty })
  | .lamp index on => pure (none, { b with panel := b.panel.setLamp index on })

/-- Passes on what the controller has put out. At a fault the rest is left with the controller. -/
def passAllOn : List Output → Bench σ → Logged (Option ProtocolFault × Bench σ)
  | [], b => pure (none, b)
  | o :: rest, b => do
    let (fault?, b) ← b.passOn o
    match fault? with
    | none => passAllOn rest b
    | some fault =>
      return (some fault, { b with controller := Controller.returnOutputs rest b.controller })

/-- Collects and passes on the controller's output. -/
def collect : Logged (Option ProtocolFault × Bench σ) :=
  let (outputs, controller) := Controller.takeOutputs b.controller
  passAllOn outputs { b with controller }

/-- Sends messages to the controller. -/
def sendAll : List (List UInt8) → Bench σ → Logged (Bench σ)
  | [], b => pure b
  | message :: rest, b => do
    let controller ← Controller.receiveAll (Wire.frame message) b.controller
    sendAll rest (← { b with controller }.record .toDevice message)

/-- Sends what the trial has to send. -/
def sendOutgoing : Logged (Bench σ) :=
  match b.trial with
  | none => pure b
  | some trial =>
    let (messages, trial) := trial.takeOutgoing
    sendAll messages { b with trial := some trial }

/-- One step: a tick if it is due, a slice of the controller's time, and the exchange of what both
sides have put out. With a verdict nothing happens any more. -/
def step : Logged (Except ProtocolFault Status × Bench σ) :=
  match b.verdict with
  | some v => pure (.ok (.finished v), b)
  | none => do
    let b ← b.tickIfDue
    let (activity, controller) ← Controller.step b.controller
    let (fault?, b) ← { b with controller }.collect
    match fault? with
    | some fault => return (.error fault, b)
    | none =>
      let b ← b.sendOutgoing
      match b.verdict with
      | some v => return (.ok (.finished v), b)
      | none =>
        if activity.isTerminal then
          Logged.noteBench (.controllerStopped activity)
          return (.ok .halted, b)
        else return (.ok .running, b)

/-- Switches tracing. -/
def setTracing (on : Bool) : Bench σ := { b with tracing := on }

/-- Adds a cue, if there is room. -/
def push (cue : Cue) : Except QueueFull (Bench σ) :=
  (b.queue.push cue).map fun queue => { b with queue }

/-- Mechanism, indicators, traffic and bed, as the operator sees them. -/
def display : String :=
  b.mechanism.statusLine ++ "\n" ++ b.panel.text ++ "\n" ++ b.traffic.text ++ "\n" ++
    b.mechanism.bedDisplay

end Bench

end KnitBench
