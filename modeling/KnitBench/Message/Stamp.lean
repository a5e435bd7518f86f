import KnitBench.Message.Fault
import KnitBench.Wire.Checksum

/-! Messages with their check byte: a command byte, a payload, and the checksum of both. -/

namespace KnitBench.Message

/-- A body with its check byte. -/
def stamp (body : List UInt8) : List UInt8 := body ++ [Wire.checksum body]

/-- The message of a command and its payload. -/
def make (code : Code) (payload : List UInt8) : List UInt8 := stamp (code.byte :: payload)

/-- Splits a message into its command byte and payload, if its check byte is right. -/
def split : List UInt8 → Except ProtocolFault (UInt8 × List UInt8)
  | [] => .error (.truncated 0)
  | code :: rest =>
    match rest.getLast? with
    | none => .error (.truncated 1)
    | some actual =>
      let payload := rest.dropLast
      let expected := Wire.checksum (code :: payload)
      if expected = actual then .ok (code, payload) else .error (.badChecksum code expected actual)

variable {code : UInt8} {payload : List UInt8}

/-- A stamped message splits into what it was made of. -/
theorem split_stamp : split (stamp (code :: payload)) = .ok (code, payload) := by
  simp [stamp, split]

end KnitBench.Message
