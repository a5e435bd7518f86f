import KnitBench.Message.LineBitmap
import KnitBench.Message.StateReport
import KnitBench.Model

/-! The messages of host and controller. -/

namespace KnitBench.Message

/-- The revision of the protocol. -/
def apiRevision : UInt8 := 6

/-- The flag of a pattern's last line. -/
def lastLineFlag : UInt8 := 0x01

/-- Asks the controller to serve a machine. -/
def reqInit (m : Model) : List UInt8 := make .reqInit [m.code]

/-- Answers `reqInit`; zero is success. -/
def cnfInit (error : UInt8) : List UInt8 := make .cnfInit [error]

/-- Asks to knit the needles from `start` to `stop`. -/
def reqStart (start stop flags : UInt8) : List UInt8 := make .reqStart [start, stop, flags]

/-- Answers `reqStart`; zero is success. -/
def cnfStart (error : UInt8) : List UInt8 := make .cnfStart [error]

/-- Asks for a line. -/
def reqLine (line : UInt8) : List UInt8 := make .reqLine [line]

/-- Delivers a line. -/
def cnfLine (line color flags : UInt8) (bitmap : LineBitmap) : List UInt8 :=
  make .cnfLine (line :: color :: flags :: bitmap.toList)

/-- Asks for the versions. -/
def reqInfo : List UInt8 := make .reqInfo []

/-- Tells the versions. -/
def cnfInfo (major minor patch : UInt8) : List UInt8 :=
  make .cnfInfo [apiRevision, major, minor, patch]

/-- Asks for hardware test mode. -/
def reqTest : List UInt8 := make .reqTest []

/-- Answers `reqTest`; zero is success. -/
def cnfTest (error : UInt8) : List UInt8 := make .cnfTest [error]

/-- Tells the result of a hardware test. -/
def testRes (text : String) : List UInt8 := make .testRes text.toUTF8.toList

end KnitBench.Message
