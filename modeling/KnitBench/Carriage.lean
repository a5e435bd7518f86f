import KnitBench.Model

/-! The carriages, and which machine takes which. -/

namespace KnitBench

/-- A carriage family. -/
inductive Carriage
  | knit
  | lace
  | garter
  | knit270
  deriving DecidableEq, Repr, Inhabited

namespace Carriage

/-- The byte that names the carriage on the line. -/
def code : Carriage → UInt8
  | knit => 0
  | lace => 1
  | garter => 2
  | knit270 => 3

def name : Carriage → String
  | knit => "K"
  | lace => "L"
  | garter => "G"
  | knit270 => "K270"

/-- The long name, also accepted. -/
def longName : Carriage → String
  | knit => "KNIT"
  | lace => "LACE"
  | garter => "GARTER"
  | knit270 => "KNIT270"

/-- The carriage with a given short or long name; ASCII case is ignored. -/
def ofName? (s : String) : Option Carriage :=
  [knit, lace, garter, knit270].find? fun c => c.name == s.toUpper || c.longName == s.toUpper

/-- The narrow machine takes its own carriage only, and no other machine takes that one. -/
def RunsOn (c : Carriage) (m : Model) : Prop :=
  c = knit270 ↔ m = .kh270

instance (c : Carriage) (m : Model) : Decidable (c.RunsOn m) :=
  inferInstanceAs (Decidable (_ ↔ _))

/-- Whether the right sensor of the machine tells this carriage. On the KH910 it is a digital input
that misses south poles, so lace and garter carriages go by unseen or mistaken. -/
def SeenFromRight (c : Carriage) (m : Model) : Prop :=
  ¬ (m = .kh910 ∧ (c = lace ∨ c = garter))

instance (c : Carriage) (m : Model) : Decidable (c.SeenFromRight m) :=
  inferInstanceAs (Decidable (¬ _))

/-- The carriage that a request means on a machine: the knit carriage is the one made for it. -/
def fittedTo (c : Carriage) (m : Model) : Carriage :=
  if c = knit ∧ m = .kh270 then knit270 else c

end Carriage

end KnitBench
