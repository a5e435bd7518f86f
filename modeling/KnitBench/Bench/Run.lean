import KnitBench.Bench
import KnitBench.Controller.Reference

/-! Runs of the bench over many steps: a knitting trial, and the replay of an operator's cues. -/

namespace KnitBench.Bench

variable {σ : Type} [Controller σ]

/-- A run so far: how its last step ended, the bench, and the notices kept. -/
structure Run (σ : Type) where
  result : Except ProtocolFault Status
  bench : Bench σ
  journal : Journal

/-- Whether the run can go on. -/
def Run.isRunning (r : Run σ) : Bool :=
  match r.result with
  | .ok .running => true
  | _ => false

/-- Steps as long as the bench is busy and the run goes on, at most `limit` times. -/
def stepWhile (busy : Bench σ → Bool) : Nat → Bench σ → Journal → Run σ
  | 0, b, journal => ⟨.ok .running, b, journal⟩
  | limit + 1, b, journal =>
    if busy b then
      let ⟨(result, b), notices⟩ := b.step
      let journal := journal.add notices
      match result with
      | .ok .running => stepWhile busy limit b journal
      | result => ⟨result, b, journal⟩
    else ⟨.ok .running, b, journal⟩

/-- Steps until something ends the run, at most `limit` times. -/
def run (limit : Nat) (b : Bench σ) (journal : Journal) : Run σ :=
  stepWhile (fun _ => true) limit b journal

/-- Lets a run that can go on step while it is busy. -/
def Run.continueWhile (busy : Bench σ → Bool) (limit : Nat) (r : Run σ) : Run σ :=
  if r.isRunning then stepWhile busy limit r.bench r.journal else r

/-- Feeds cues one after another, each as soon as there is room, then steps until none waits.
Between two cues, and at the end, at most `patience` steps are made. A run that has ended takes no
more steps, and of the cues still to come it keeps those for which there is room. -/
def Run.feed (patience : Nat) : List Cue → Run σ → Run σ
  | [], r => r.continueWhile (fun b => !b.queue.isEmpty) patience
  | cue :: rest, r =>
    let r := r.continueWhile (·.queue.isFull) patience
    feed patience rest { r with bench := (r.bench.push cue).toOption.getD r.bench }

/-- The steps after which a trial is abandoned. -/
def trialLimit : Nat := 2000000

/-- Runs a trial with the reference controller. -/
def runTrial (s : Setup) (o : TrialOptions) (tracing : Bool) (journal : Journal) :
    Run ReferenceController :=
  let b := ((assemble s (ReferenceController.powerOn s.model)).withTrial o).setTracing tracing
  let r := b.run trialLimit journal
  match r.result with
  | .error _ => r
  | .ok _ =>
    { r with journal := r.journal.add [.runStopped r.bench.ticks (r.bench.now / 1000)] }

/-- The exit status of a run: 0 for a passed trial, 2 for a fault, 1 for anything else. -/
def exitStatus : Except ProtocolFault Status → UInt8
  | .ok (.finished v) => if v.isPass then 0 else 1
  | .ok _ => 1
  | .error _ => 2

/-- Every fifth step ticks, and every tick takes a cue: within this many steps a full queue is
empty. -/
def replayPatience : Nat := 6 * CueQueue.capacity

/-- Replays cues with the reference controller and no trial. -/
def replay (s : Setup) (cues : List Cue) (tracing : Bool) (journal : Journal) :
    Run ReferenceController :=
  let b := (assemble s (ReferenceController.powerOn s.model)).setTracing tracing
  Run.feed replayPatience cues ⟨.ok .running, b, journal⟩

end KnitBench.Bench
