import KnitBench.Message.Code
import KnitBench.Text.Number
import KnitBench.Trial.Stage

/-! What can be wrong with a message, by itself or at its place in the conversation. -/

namespace KnitBench

/-- A reason to refuse a message. -/
inductive ProtocolFault
  /-- Too short for a command and a check byte. -/
  | truncated (length : Nat)
  | badChecksum (code expected actual : UInt8)
  /-- The controller reports an error. -/
  | errorStatus (command : Message.Code) (status : UInt8)
  /-- No message for this stage. -/
  | unexpectedCommand (code : UInt8) (stage : Trial.Stage)
  /-- Not the next line. -/
  | unexpectedLine (requested expected : UInt8)
  | shortPayload (command : Message.Code) (length : Nat)
  deriving DecidableEq, Repr

/-- The wording of each reason. -/
def ProtocolFault.message : ProtocolFault → String
  | truncated n => s!"truncated frame ({n} bytes)"
  | badChecksum c e a =>
    "checksum mismatch on " ++ Text.hexCode c ++ ": expected " ++ Text.hexCode e ++ ", got " ++
      Text.hexCode a
  | errorStatus c s => s!"{c.name} reported error status {s.toNat}"
  | unexpectedCommand b stage =>
    "unexpected " ++ Message.codeName b ++ " (" ++ Text.hexCode b ++ ") while " ++ stage.describe
  | unexpectedLine r e => s!"line request for {r.toNat}, expected {e.toNat}"
  | shortPayload c n => s!"{c.name} payload too short ({n} bytes)"

end KnitBench
