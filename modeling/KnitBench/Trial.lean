import KnitBench.Logged

/-! A knitting trial. It sets the controller up, sweeps the carriage over the bed, answers the
controller's requests for lines, and compares the needles after each pass, until two passes in turn
have matched, one has not, or the carriage has turned too often without a pass. -/

namespace KnitBench

open Trial in
/-- The state of a trial. -/
structure Trial where
  setup : Setup
  options : TrialOptions
  stage : Stage := .opening
  /-- The line that the controller has to ask for next. -/
  nextLine : UInt8 := 0
  /-- Unanswered requests with the ticks they still wait, oldest first. -/
  pending : List (Nat × UInt8) := []
  /-- Messages to be sent, oldest first. -/
  outgoing : List (List UInt8) := []
  /-- Where the carriage is sent. -/
  sweep : Direction
  /-- The direction of the pass to be compared next. -/
  passDirection : Direction
  /-- Whether a line has been delivered since the last comparison. -/
  lineDelivered : Bool := false
  passes : Nat := 0
  /-- Turns since the last comparison. -/
  reversals : Nat := 0
  verdict : Option Verdict := none

namespace Trial

/-- So many needles farther than the range the selector of a garter carriage has to be. -/
def garterClearance : Nat := 12

/-- The passes that make a trial: one in each direction. -/
def passesWanted : Nat := 2

/-- The turns without a pass that are put up with. -/
def reversalLimit : Nat := 6

/-- A trial that has not begun. -/
def begin (s : Setup) (o : TrialOptions) : Trial where
  setup := s
  options := o
  sweep := s.side.firstDirection
  passDirection := s.side.firstDirection

variable (t : Trial)

/-- The needles beyond the range that the selector has to pass. -/
def clearance : Nat := if t.setup.carriage = .garter then garterClearance else 0

/-- Ends the trial. -/
def finish (v : Verdict) : Logged Trial := do
  Logged.noteTrial (.verdictReached v)
  return { t with verdict := some v }

/-- The message that answers a request for a line. -/
def answer (line : UInt8) : List UInt8 :=
  let bitmap := LineBitmap.ofCells t.options.pattern.cells t.setup.start t.setup.stop
  Message.cnfLine line 0 0 bitmap

/-- Answers the requests at the front of a queue whose time has come. -/
def answerDue : List (Nat × UInt8) → Trial → Logged Trial
  | (0, line) :: rest, t => do
    Logged.noteTrial (.lineSent line)
    answerDue rest { t with outgoing := t.outgoing ++ [t.answer line], lineDelivered := true }
  | rest, t => pure { t with pending := rest }

/-- Lets every request wait one tick less, and answers those that are due. -/
def deliver : Logged Trial :=
  answerDue (t.pending.map fun (delay, line) => (delay - 1, line)) t

/-- Turns the sweep at the end of the bed, and gives up after too many turns. The answer is the move
to make. -/
def turn (m : Mechanism) : Logged (Option Direction × Trial) :=
  if m.atRail t.sweep then do
    let t := { t with sweep := t.sweep.reversed, reversals := t.reversals + 1 }
    Logged.noteTrial (.sweepReversed t.sweep)
    if reversalLimit < t.reversals then return (none, ← t.finish (.stalled t.reversals))
    else return (some t.sweep, t)
  else pure (some t.sweep, t)

/-- One tick. The answer is the move to make, if any. -/
def tick (m : Mechanism) : Logged (Option Direction × Trial) :=
  match t.verdict, t.stage with
  | some _, _ => pure (none, t)
  | none, .opening => do
    Logged.noteTrial (.initSent t.setup.model)
    return (none, { t with
      outgoing := t.outgoing ++ [Message.reqInit t.setup.model], stage := .awaiting })
  | none, .awaiting => pure (none, t)
  | none, .knitting => do (← t.deliver).turn m

/-- A status byte has to be there and zero. -/
def expectOk (code : Message.Code) : List UInt8 → Except ProtocolFault Unit
  | [] => .error (.shortPayload code 0)
  | status :: _ => if status = 0 then .ok () else .error (.errorStatus code status)

/-- A state report has to be complete and free of errors. -/
def expectHealthy (payload : List UInt8) : Except ProtocolFault Unit := do
  let report ← StateReport.read payload
  expectOk .indState [report.error]

/-- The controller is ready: asks it to knit. -/
def startKnitting : Logged Trial := do
  let start := UInt8.ofNat t.setup.start
  let stop := UInt8.ofNat t.setup.stop
  Logged.noteTrial (.controllerReady start stop)
  return { t with outgoing := t.outgoing ++ [Message.reqStart start stop 0], stage := .knitting }

/-- Notes a request for a line. It has to be for the next one. -/
def request : List UInt8 → Except ProtocolFault Unit × Trial
  | [] => (.error (.shortPayload .reqLine 0), t)
  | line :: _ =>
    if line = t.nextLine then
      (.ok (), { t with
        nextLine := t.nextLine + 1
        pending := t.pending ++ [(t.options.delay, line)] })
    else (.error (.unexpectedLine line t.nextLine), t)

/-- Hears a message of the controller, which it takes or refuses. -/
def hear (message : List UInt8) : Logged (Except ProtocolFault Unit × Trial) :=
  match Message.split message with
  | .error fault => pure (.error fault, t)
  | .ok (b, payload) =>
    match t.stage, Message.Code.ofByte? b with
    | _, some .debug | _, some .testRes => pure (.ok (), t)
    | .awaiting, some .cnfInit => pure (expectOk .cnfInit payload, t)
    | .awaiting, some .indState =>
      match expectHealthy payload with
      | .error fault => pure (.error fault, t)
      | .ok _ => do return (.ok (), ← t.startKnitting)
    | .knitting, some .indState => pure (expectHealthy payload, t)
    | .knitting, some .cnfStart => pure (expectOk .cnfStart payload, t)
    | .knitting, some .reqLine => pure (t.request payload)
    | stage, _ => pure (.error (.unexpectedCommand b stage), t)

/-- The trial after a message of the controller, if it is not refused. -/
def accept (message : List UInt8) : Logged (Except ProtocolFault Trial) := do
  let (answer, t) ← t.hear message
  return answer.map fun _ => t

/-- The needles of the range as they are, and as they are expected. All are there, or none. -/
def rows (needles : Array Needle) : List Needle × List Needle :=
  let size := t.setup.stop - t.setup.start + 1
  (if t.setup.stop < needles.size then (needles.toList.drop t.setup.start).take size else [],
    (List.range size).map t.options.expected.needleAt)

/-- The offsets in the range at which needles differ from the expected pattern. -/
def differences (needles : Array Needle) : List Nat :=
  let (actual, expected) := t.rows needles
  ((actual.zip expected).zipIdx.filter fun ((a, e), _) => a != e).map Prod.snd

/-- What is wrong with a pass, if anything. -/
def mismatch? (needles : Array Needle) : Option Mismatch :=
  match t.differences needles with
  | [] => none
  | first :: rest =>
    let (actual, expected) := t.rows needles
    some {
      row := t.passes
      direction := t.passDirection
      start := t.setup.start
      needle := t.setup.start + first
      expected := Needle.rowText expected
      actual := Needle.rowText actual
      count := rest.length + 1 }

/-- Compares a pass. The answer is a verdict, if this pass decides. -/
def checkPass (needles : Array Needle) : Logged (Option Verdict × Trial) :=
  match t.mismatch? needles with
  | some m => pure (some (.mismatched m), t)
  | none => do
    let t := { t with passes := t.passes + 1 }
    Logged.noteTrial (.passMatched t.passes t.passDirection)
    return (if passesWanted ≤ t.passes then some (.passed t.passes) else none, t)

/-- Whether the selector has left the range on the far side, by the clearance. -/
def pastRange (selected : Int) : Bool :=
  match t.passDirection with
  | .right => decide ((t.setup.stop : Int) + t.clearance < selected)
  | .left => decide (selected < (t.setup.start : Int) - t.clearance)

/-- Compares the needles if a move has completed a pass. The answer is the verdict, if it is reached
now. -/
def afterMove (m : Mechanism) : Logged (Option Verdict × Trial) :=
  if t.verdict.isNone ∧ t.stage = .knitting ∧ t.lineDelivered ∧ m.direction = t.passDirection ∧
      t.pastRange m.selected then do
    let (verdict?, t) ← t.checkPass m.needles
    let t := { t with
      lineDelivered := false
      passDirection := t.passDirection.reversed
      reversals := 0 }
    match verdict? with
    | some v => return (some v, ← t.finish v)
    | none => return (none, t)
  else pure (none, t)

/-- Takes the messages to be sent. -/
def takeOutgoing : List (List UInt8) × Trial := (t.outgoing, { t with outgoing := [] })

end Trial

end KnitBench
