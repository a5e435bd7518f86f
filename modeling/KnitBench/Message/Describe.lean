import KnitBench.Message.Build

/-! Messages in words, for the protocol trace. -/

namespace KnitBench

/-- A report in words. -/
def StateReport.describe (r : StateReport) : String :=
  s!"error={r.error.toNat} state={r.state.toNat} hall=({r.hallLeft.toNat}, {r.hallRight.toNat}) " ++
    s!"carriage={r.carriage.toNat} position={r.position.toNat} direction={r.direction.toNat}"

namespace Message

/-- A known command in words. A payload that is too short is left out. -/
def describePayload (code : Code) (payload : List UInt8) : String :=
  match code, payload with
  | .reqInit, machine :: _ =>
    match Model.ofCode? machine with
    | some m => s!"reqInit {m.name}"
    | none => s!"reqInit machine={machine.toNat}"
  | .reqStart, start :: stop :: flags :: _ =>
    s!"reqStart {start.toNat}..={stop.toNat} flags=" ++ Text.hexCode flags
  | .reqLine, line :: _ => s!"reqLine {line.toNat}"
  | .cnfLine, line :: color :: flags :: bits =>
    s!"cnfLine {line.toNat} color={color.toNat} selected={LineBitmap.count bits}" ++
      if flags &&& lastLineFlag = 0 then "" else " last"
  | .cnfInfo, api :: major :: minor :: patch :: _ =>
    s!"cnfInfo api={api.toNat} v{major.toNat}.{minor.toNat}.{patch.toNat}"
  | .indState, payload =>
    match StateReport.read payload with
    | .ok r => s!"indState {r.describe}"
    | .error fault => s!"indState {fault.message}"
  | .cnfInit, error :: _ => s!"cnfInit error={error.toNat}"
  | .cnfStart, error :: _ => s!"cnfStart error={error.toNat}"
  | .cnfTest, error :: _ => s!"cnfTest error={error.toNat}"
  | code, _ => code.name

/-- A message in words. -/
def describe (message : List UInt8) : String :=
  match split message with
  | .error fault => s!"invalid frame: {fault.message}"
  | .ok (b, payload) =>
    match Code.ofByte? b with
    | none => "unknown command " ++ Text.hexCode b
    | some code => describePayload code payload

end Message

end KnitBench
