import KnitBench.Register

/-! The knitting machines of the bench: how many needles and solenoids each has, and where its
solenoids sit in the output register. -/

namespace KnitBench

/-- A knitting machine model. -/
inductive Model
  | kh910
  | kh930
  | kh270
  deriving DecidableEq, Repr, Inhabited

namespace Model

/-- Needles on the bed. -/
def needleCount : Model → Nat
  | kh910 | kh930 => 200
  | kh270 => 112

/-- Solenoids of the needle selector. -/
def solenoidCount : Model → Nat
  | kh910 | kh930 => 16
  | kh270 => 12

/-- The byte that names the model on the line. -/
def code : Model → UInt8
  | kh910 => 0
  | kh930 => 1
  | kh270 => 2

/-- The model that a byte names. -/
def ofCode? (b : UInt8) : Option Model :=
  [kh910, kh930, kh270].find? (·.code == b)

/-- The printed name. -/
def name : Model → String
  | kh910 => "KH910"
  | kh930 => "KH930"
  | kh270 => "KH270"

/-- The model with a given name; ASCII case is ignored. -/
def ofName? (s : String) : Option Model :=
  [kh910, kh930, kh270].find? (·.name == s.toUpper)

/-- The register bit of solenoid `i`. -/
def registerBit (m : Model) (i : Nat) : Nat :=
  match m with
  | kh910 | kh930 => i
  | kh270 => i + 3

/-- The solenoid levels that a register commands, solenoid 0 in bit 0. -/
def solenoidBits (m : Model) (r : Register) : Register :=
  match m with
  | kh910 | kh930 => r
  | kh270 => (r >>> 3) &&& 0x0FFF#16

/-- The register with every solenoid released. -/
def idleRegister : Model → Register
  | kh910 | kh930 => 0xFFFF#16
  | kh270 => 0x0FFF#16 <<< 3

variable (m : Model)

theorem ofCode?_code : ofCode? m.code = some m := by cases m <;> rfl

theorem solenoidCount_le : m.solenoidCount ≤ 16 := by cases m <;> decide

theorem solenoidCount_pos : 0 < m.solenoidCount := by cases m <;> decide

theorem needleCount_pos : 0 < m.needleCount := by cases m <;> decide

theorem needleCount_lt : m.needleCount < 256 := by cases m <;> decide

end Model

end KnitBench
