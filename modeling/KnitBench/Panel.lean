import KnitBench.Text.Rolling

/-! The indicators on the controller board: two lamps and a beeper. -/

namespace KnitBench

/-- The character that records a beeper duty: driven, silent, or in between. -/
def beeperSymbol (duty : UInt8) : UInt8 :=
  if duty = 0 then 0x5E else if duty = 255 then 0x20 else 0x5F

/-- The lamps, and the recent history of the beeper. -/
structure Panel where
  lamp0 : Bool
  lamp1 : Bool
  beeper : Text.Rolling 16
  deriving DecidableEq, Repr

namespace Panel

/-- The indicators at power-on. -/
def powerOn : Panel := ⟨false, true, .filled 16 0x5F⟩

/-- Switches a lamp; there are only lamps 0 and 1. -/
def setLamp (p : Panel) (index : UInt8) (on : Bool) : Panel :=
  if index = 0 then { p with lamp0 := on }
  else if index = 1 then { p with lamp1 := on }
  else p

/-- Records a beeper duty. -/
def beep (p : Panel) (duty : UInt8) : Panel :=
  { p with beeper := p.beeper.push (beeperSymbol duty) }

/-- A refreshed display scrolls the history while the beeper is silent. -/
def refreshed (p : Panel) : Panel :=
  if p.beeper.last? = some 0x20 then { p with beeper := p.beeper.push 0x20 } else p

/-- The indicators on one line. -/
def text (p : Panel) : String :=
  let lamp (on : Bool) := if on then "*" else "o"
  "LEDs=(" ++ lamp p.lamp0 ++ ", " ++ lamp p.lamp1 ++ ") B=" ++ p.beeper.text

end Panel

end KnitBench
