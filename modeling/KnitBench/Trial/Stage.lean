/-! How far a trial has come. -/

namespace KnitBench.Trial

/-- The stage of the conversation with the controller. -/
inductive Stage
  /-- Nothing sent yet. -/
  | opening
  /-- The controller has been asked to report ready. -/
  | awaiting
  /-- Lines are asked for and answered while the carriage sweeps. -/
  | knitting
  deriving DecidableEq, Repr

/-- How a fault names the stage. -/
def Stage.describe : Stage → String
  | opening => "initializing"
  | awaiting => "awaiting acknowledgement"
  | knitting => "knitting"

end KnitBench.Trial
