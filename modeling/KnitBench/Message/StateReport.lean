import KnitBench.Message.Stamp

/-! The report in which a controller tells its state. -/

namespace KnitBench

/-- What a controller reports about itself and its sensors. -/
structure StateReport where
  /-- Zero when all is well. -/
  error : UInt8
  state : UInt8
  hallLeft : UInt16
  hallRight : UInt16
  carriage : UInt8
  position : UInt8
  direction : UInt8
  deriving DecidableEq, Repr

namespace StateReport

/-- The state byte of a controller that is ready to knit. -/
def ready : UInt8 := 1

/-- Two bytes as a word, the high one first. -/
def word (high low : UInt8) : UInt16 := high.toUInt16 <<< 8 ||| low.toUInt16

/-- A word as two bytes, the high one first. -/
def bytes (w : UInt16) : List UInt8 := [(w >>> 8).toUInt8, w.toUInt8]

/-- The payload of a report. -/
def payload (r : StateReport) : List UInt8 :=
  [r.error, r.state] ++ bytes r.hallLeft ++ bytes r.hallRight ++
    [r.carriage, r.position, r.direction]

/-- The message that carries a report. -/
def message (r : StateReport) : List UInt8 := Message.make .indState r.payload

/-- Reads a payload; bytes after the ninth are ignored. -/
def read (payload : List UInt8) : Except ProtocolFault StateReport :=
  match payload with
  | error :: state :: lh :: ll :: rh :: rl :: carriage :: position :: direction :: _ =>
    .ok ⟨error, state, word lh ll, word rh rl, carriage, position, direction⟩
  | _ => .error (.shortPayload .indState payload.length)

end StateReport

end KnitBench
