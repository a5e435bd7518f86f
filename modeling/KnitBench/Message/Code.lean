/-! The commands of the serial protocol. -/

namespace KnitBench.Message

/-- A command. The first byte of every message names one. -/
inductive Code
  | reqStart | cnfStart | reqLine | cnfLine | reqInfo | cnfInfo | reqTest | cnfTest | indState
  | helpCmd | sendCmd | beepCmd | setSingleCmd | setAllCmd | readEolSensorsCmd | readEncodersCmd
  | autoReadCmd | autoTestCmd | stopCmd | quitCmd | reqInit | cnfInit | testRes | debug
  deriving DecidableEq, Repr

namespace Code

/-- The byte on the line. -/
def byte : Code → UInt8
  | reqStart => 0x01
  | cnfStart => 0xC1
  | reqLine => 0x82
  | cnfLine => 0x42
  | reqInfo => 0x03
  | cnfInfo => 0xC3
  | reqTest => 0x04
  | cnfTest => 0xC4
  | indState => 0x84
  | helpCmd => 0x25
  | sendCmd => 0x26
  | beepCmd => 0x27
  | setSingleCmd => 0x28
  | setAllCmd => 0x29
  | readEolSensorsCmd => 0x2A
  | readEncodersCmd => 0x2B
  | autoReadCmd => 0x2C
  | autoTestCmd => 0x2D
  | stopCmd => 0x2E
  | quitCmd => 0x2F
  | reqInit => 0x05
  | cnfInit => 0xC5
  | testRes => 0xEE
  | debug => 0x9F

/-- The name in the protocol. -/
def name : Code → String
  | reqStart => "reqStart"
  | cnfStart => "cnfStart"
  | reqLine => "reqLine"
  | cnfLine => "cnfLine"
  | reqInfo => "reqInfo"
  | cnfInfo => "cnfInfo"
  | reqTest => "reqTest"
  | cnfTest => "cnfTest"
  | indState => "indState"
  | helpCmd => "helpCmd"
  | sendCmd => "sendCmd"
  | beepCmd => "beepCmd"
  | setSingleCmd => "setSingleCmd"
  | setAllCmd => "setAllCmd"
  | readEolSensorsCmd => "readEOLsensorsCmd"
  | readEncodersCmd => "readEncodersCmd"
  | autoReadCmd => "autoReadCmd"
  | autoTestCmd => "autoTestCmd"
  | stopCmd => "stopCmd"
  | quitCmd => "quitCmd"
  | reqInit => "reqInit"
  | cnfInit => "cnfInit"
  | testRes => "testRes"
  | debug => "debug"

/-- Every command. -/
def all : List Code :=
  [reqStart, cnfStart, reqLine, cnfLine, reqInfo, cnfInfo, reqTest, cnfTest, indState, helpCmd,
    sendCmd, beepCmd, setSingleCmd, setAllCmd, readEolSensorsCmd, readEncodersCmd, autoReadCmd,
    autoTestCmd, stopCmd, quitCmd, reqInit, cnfInit, testRes, debug]

/-- The command that a byte names. -/
def ofByte? (b : UInt8) : Option Code := all.find? (·.byte == b)

theorem ofByte?_byte (c : Code) : ofByte? c.byte = some c := by cases c <;> rfl

theorem byte_of_ofByte? {b : UInt8} {c : Code} (h : ofByte? b = some c) : c.byte = b := by
  simpa using List.find?_some h

end Code

/-- The name of a command byte, known or not. -/
def codeName (b : UInt8) : String := (Code.ofByte? b).elim "unknown" Code.name

end KnitBench.Message
