import KnitBench.Controller.Reference.State

/-! How the reference controller answers its host. -/

namespace KnitBench.ReferenceController

variable (c : ReferenceController)

/-- The controller's report of itself. -/
def report : StateReport where
  error := 0
  state := StateReport.ready
  hallLeft := c.hall.left
  hallRight := c.hall.right
  carriage := c.tracker.carriage.elim 0xFF Carriage.code
  position := UInt8.ofNat (min c.tracker.position.toNat 255)
  direction := c.tracker.direction.elim 0xFF Direction.code

/-- Serves a machine from now on. A payload without a known machine is refused. -/
def onInit (payload : List UInt8) : Logged ReferenceController :=
  match payload.head?.bind Model.ofCode? with
  | none => pure (c.send (Message.cnfInit 1))
  | some model => do
    let c ← ({ c with model, line := {} }.send (Message.cnfInit 0)).enter .ready
    return c.send c.report.message

/-- Starts to knit a range of needles and asks for the first line. Refused unless the controller is
ready and the range lies on the bed. -/
def onStart (payload : List UInt8) : Logged ReferenceController :=
  match payload with
  | a :: b :: _ =>
    let start := a.toNat
    let stop := b.toNat
    if c.mode = .ready ∧ start ≤ stop ∧ stop < c.model.needleCount then do
      let c ← ({ c with start, stop, line := {} }.send (Message.cnfStart 0)).enter .knitting
      Logged.noteController (.rangeAccepted start stop)
      return c.send (Message.reqLine 0)
    else pure (c.send (Message.cnfStart 1))
  | _ => pure (c.send (Message.cnfStart 1))

/-- Takes the line that was asked for. Anything else is left alone. -/
def onLine (payload : List UInt8) : Logged ReferenceController :=
  match payload with
  | index :: _ :: flags :: bits =>
    if c.mode = .knitting ∧ index = c.line.index then
      match LineBitmap.ofBytes? bits with
      | some bitmap =>
        let last := flags &&& Message.lastLineFlag != 0
        pure { c with line := { c.line with bitmap, ready := true, last, worked := none } }
      | none => do
        Logged.noteController (.bitmapTooShort index)
        return c
    else do
      Logged.noteController (.lineUnexpected index c.line.index)
      return c
  | _ => do
    Logged.noteController (.lineTooShort payload.length)
    return c

/-- Begins a hardware test. -/
def onTest : Logged ReferenceController :=
  { c.send (Message.cnfTest 0) with testRegister := c.model.idleRegister }.enter .test

/-- A level as a digit. -/
def digit (on : Bool) : String := if on then "1" else "0"

/-- Obeys a command of the hardware test. A command without an effect of its own, or without what it
needs, is answered with its name. -/
def onTestCommand (code : Message.Code) (payload : List UInt8) : Logged ReferenceController :=
  match code, payload with
  | .beepCmd, _ => pure c.beep
  | .setAllCmd, high :: low :: _ =>
    pure { c with testRegister := (StateReport.word high low).toBitVec }
  | .setSingleCmd, index :: on :: _ =>
    if index < 16 then pure { c with testRegister := c.testRegister.put index.toNat (on ≠ 0) }
    else pure (c.send (Message.testRes code.name))
  | .readEolSensorsCmd, _ =>
    pure (c.send (Message.testRes s!"EOL L={c.hall.left.toNat} R={c.hall.right.toNat}"))
  | .readEncodersCmd, _ =>
    let text := "Encoders V1=" ++ digit c.levels.v1 ++ " V2=" ++ digit c.levels.v2 ++ " BP=" ++
      digit c.levels.belt
    pure (c.send (Message.testRes text))
  | .quitCmd, _ => c.enter .ready
  | _, _ => pure (c.send (Message.testRes code.name))

/-- Answers a message. -/
def onMessage (message : List UInt8) : Logged ReferenceController :=
  match Message.split message with
  | .error fault => do
    Logged.noteController (.frameDropped fault)
    return c
  | .ok (b, payload) =>
    match Message.Code.ofByte? b with
    | some .reqInit => c.onInit payload
    | some .reqStart => c.onStart payload
    | some .cnfLine => c.onLine payload
    | some .reqInfo => pure (c.send (Message.cnfInfo 1 0 0))
    | some .reqTest => c.onTest
    | some code =>
      if c.mode = .test then c.onTestCommand code payload
      else do
        Logged.noteController (.commandIgnored b)
        return c
    | none => do
      Logged.noteController (.commandIgnored b)
      return c

end KnitBench.ReferenceController
