import KnitBench.Carriage.Geometry

/-! Why a setup is refused. -/

namespace KnitBench

/-- A reason to refuse a setup or the options of a trial. -/
inductive SetupError
  | unknownModel (text : String)
  | unknownCarriage (text : String)
  | unknownBeltPhase (text : String)
  | unknownSide (text : String)
  | unsupportedCarriage (model : Model) (carriage : Carriage)
  | undetectableFromRight (model : Model) (carriage : Carriage)
  | invertedRange (start stop : Nat)
  | needleOutOfRange (needle needleCount : Nat)
  | overlappingBands (left right : Band)
  | invalidPattern (text : String)
  deriving DecidableEq, Repr

/-- A band as messages quote it. -/
def Band.text (b : Band) : String := s!"({b.low}, {b.high})"

/-- The wording of each reason. -/
def SetupError.message : SetupError → String
  | unknownModel t => "unknown machine family \x60" ++ t ++ "\x60 (expected KH910, KH930 or KH270)"
  | unknownCarriage t => "unknown carriage family \x60" ++ t ++ "\x60 (expected K, L or G)"
  | unknownBeltPhase t => "unknown belt phase \x60" ++ t ++ "\x60 (expected Regular or Shifted)"
  | unknownSide t => "unknown start side \x60" ++ t ++ "\x60 (expected Left or Right)"
  | unsupportedCarriage m c => s!"carriage {c.name} is not supported on {m.name}"
  | undetectableFromRight m c =>
    s!"carriage {c.name} cannot start on the Right on {m.name}: " ++
      "the right hall sensor does not detect it"
  | invertedRange a b => s!"start needle {a} is after stop needle {b}"
  | needleOutOfRange k n => s!"needle {k} is outside the bed (0..{n})"
  | overlappingBands l r =>
    s!"left hall band {l.text} must end before right hall band {r.text} begins"
  | invalidPattern t => "invalid pattern \x60" ++ t ++ "\x60: use a non-empty string of '|' and '.'"

/-- Reads the name of a model. -/
def Model.read (text : String) : Except SetupError Model :=
  (ofName? text).elim (.error (.unknownModel text)) .ok

/-- Reads the name of a carriage. -/
def Carriage.read (text : String) : Except SetupError Carriage :=
  (ofName? text).elim (.error (.unknownCarriage text)) .ok

/-- Reads the name of a belt phase. -/
def BeltPhase.read (text : String) : Except SetupError BeltPhase :=
  (ofName? text).elim (.error (.unknownBeltPhase text)) .ok

/-- Reads the name of a side. -/
def Side.read (text : String) : Except SetupError Side :=
  (ofName? text).elim (.error (.unknownSide text)) .ok

end KnitBench
