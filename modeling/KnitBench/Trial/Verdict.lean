import KnitBench.Mechanism.Display

/-! How a trial ends, and how its end is reported. -/

namespace KnitBench.Trial

/-- A pass that left other needles than expected. -/
structure Mismatch where
  /-- Passes matched before. -/
  row : Nat
  direction : Direction
  /-- The first needle compared. -/
  start : Nat
  /-- The first needle that differs. -/
  needle : Nat
  expected : String
  actual : String
  /-- The number of needles that differ. -/
  count : Nat
  deriving DecidableEq, Repr

/-- The characters of one text, those that differ from another text in reverse video. Both texts are
read as far as the shorter one goes. -/
def highlight (ours theirs : List Char) : List Char :=
  (ours.zip theirs).flatMap fun (a, b) => if a = b then [a] else reverseVideo ++ a :: plainVideo

namespace Mismatch

variable (m : Mismatch)

/-- The headline of a mismatch, and both texts below it. -/
def text : String :=
  let needles := if m.count = 1 then "needle" else "needles"
  let expected := String.ofList (highlight m.expected.toList m.actual.toList)
  let actual := String.ofList (highlight m.actual.toList m.expected.toList)
  s!"row {m.row} ({m.direction.name}) mismatch at needle {m.needle} " ++
    s!"({m.count} mismatching {needles})" ++
    s!"\n  expected [{m.start}..]: {expected}\n  actual   [{m.start}..]: {actual}"

end Mismatch

/-- The end of a trial. -/
inductive Verdict
  /-- Every pass matched. -/
  | passed (rows : Nat)
  | mismatched (m : Mismatch)
  /-- The carriage turned again and again, and no pass was completed. -/
  | stalled (reversals : Nat)
  deriving DecidableEq, Repr

namespace Verdict

def isPass : Verdict → Bool
  | passed _ => true
  | mismatched _ | stalled _ => false

/-- The wording of a verdict. -/
def text : Verdict → String
  | passed rows => s!"PASS: {rows} rows knitted as expected"
  | mismatched m => s!"FAIL: {m.text}"
  | stalled reversals => s!"FAIL: no pass completed after {reversals} carriage reversals"

end Verdict

end KnitBench.Trial
