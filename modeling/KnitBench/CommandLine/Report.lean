import KnitBench.Bench.Run
import KnitBench.CommandLine.Usage
import KnitBench.Script
import KnitBench.Text.ControlSequence

/-! What a command line brings about: texts on both output streams, and an exit status. -/

namespace KnitBench.CommandLine

/-- What the program leaves behind. -/
structure Report where
  status : UInt8
  out : String := ""
  err : String := ""
  deriving DecidableEq, Repr

/-- The part of the program that a notice names. -/
def target : Notice → String
  | .controller _ => "knit_core::firmware"
  | .trial _ => "knit_core::harness"
  | .bench _ => "knit_core::sim"
  | .runStopped _ _ => "knit_sim::session"

/-- A notice as it is logged: free of control sequences, its further lines indented. -/
def logLine (n : Notice) : String :=
  "[" ++ Text.padRight 5 ' ' n.severity.label ++ " " ++ target n ++ "] " ++
    Text.hang 4 (Text.plain n.text) ++ "\n"

/-- The log of a run. -/
def log (j : Journal) : String := String.join (j.entries.toList.map logLine)

/-- The least severity that is logged. -/
def Options.threshold (o : Options) : Severity :=
  if o.verbosity = 0 ∧ o.trace = false then .warning
  else if o.verbosity ≤ 1 then .info
  else .debug

/-- A line of complaint. -/
def complaint (message : String) : String := "error: " ++ message ++ "\n"

/-- A failure without a run. -/
def failure (err : String) : Report := { status := 1, err }

/-- The report of a trial. -/
def trialReport (o : Options) : Report :=
  match o.request.build, TrialOptions.build o.pattern o.expected none with
  | .error e, _ | _, .error e => failure (complaint e.message)
  | .ok setup, .ok options =>
    let r := Bench.runTrial setup options o.trace { threshold := some o.threshold }
    let status := Bench.exitStatus r.result
    match r.result with
    | .ok (.finished v) => { status, out := v.text ++ "\n", err := log r.journal }
    | .ok _ => { status, out := "FAIL: test did not finish\n", err := log r.journal }
    | .error fault =>
      { status, err := log r.journal ++ complaint ("protocol fault: " ++ fault.message) }

/-- The report of a replay. The script is its text, or the reason why it cannot be read. -/
def replayReport (path : String) (script : Except String String) (o : Options) : Report :=
  match o.request.build with
  | .error e => failure (complaint e.message)
  | .ok setup =>
    match script with
    | .error reason => failure (complaint ("failed to read " ++ path ++ ": " ++ reason))
    | .ok source =>
      match Script.cues source with
      | .error e => failure (path ++ ": error: " ++ e.message ++ "\n")
      | .ok cues =>
        let r := Bench.replay setup cues o.trace { threshold := some o.threshold }
        match r.result with
        | .ok _ => { status := 0, out := r.bench.display ++ "\n", err := log r.journal }
        | .error fault =>
          { status := Bench.exitStatus r.result
            err := log r.journal ++ complaint ("protocol fault: " ++ fault.message) }

/-- The report of a refused command line. Help behind a command goes to the output. -/
def usageReport : UsageError → Report
  | .helpAmongOptions => { status := 1, out := usage ++ "\n" }
  | e => failure (complaint e.message ++ usage ++ "\n")

/-- The report of a command line that has been understood. -/
def Invocation.report (readScript : String → Except String String) : Invocation → Report
  | help => { status := 0, out := usage ++ "\n" }
  | test o => trialReport o
  | replay path o => replayReport path (readScript path) o

/-- The report of a command line, with the scripts that can be read. -/
def report (readScript : String → Except String String) (args : List String) : Report :=
  match Invocation.read args with
  | .ok i => i.report readScript
  | .error e => usageReport e

end KnitBench.CommandLine
