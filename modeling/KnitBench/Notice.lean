import KnitBench.Controller.Mode
import KnitBench.Controller.Signal
import KnitBench.Message.Describe
import KnitBench.Panel
import KnitBench.Traffic
import KnitBench.Trial.Verdict

/-! What the parts of the bench report while they work. A notice is a value that says what happened;
its wording is made only when it is printed. -/

namespace KnitBench

/-- How much a notice matters. -/
inductive Severity
  | debug
  | info
  | warning
  deriving DecidableEq, Repr

namespace Severity

/-- The printed name. -/
def label : Severity → String
  | debug => "DEBUG"
  | info => "INFO"
  | warning => "WARN"

def rank : Severity → Nat
  | debug => 0
  | info => 1
  | warning => 2

end Severity

/-- Notices of the reference controller. -/
inductive ControllerNotice
  | frameDropped (fault : ProtocolFault)
  | commandIgnored (code : UInt8)
  | rangeAccepted (start stop : Nat)
  | lineTooShort (length : Nat)
  | lineUnexpected (line waiting : UInt8)
  | bitmapTooShort (line : UInt8)
  | modeChanged (old new : ReferenceController.Mode)
  | carriageDetected (carriage : Carriage) (position : Int)
  | quarterSkipped
  | beltPhaseKnown (belt : BeltPhase)
  | patternFinished (line : UInt8)
  | lineFinished (line : UInt8)
  | restarted

namespace ControllerNotice

def severity : ControllerNotice → Severity
  | frameDropped _ | commandIgnored _ | lineTooShort _ | lineUnexpected _ _ | bitmapTooShort _
  | quarterSkipped => .warning
  | rangeAccepted _ _ | carriageDetected _ _ | patternFinished _ | restarted => .info
  | modeChanged _ _ | beltPhaseKnown _ | lineFinished _ => .debug

/-- The wording. -/
def text (n : ControllerNotice) : String :=
  "firmware: " ++ match n with
  | frameDropped fault => s!"dropping frame: {fault.message}"
  | commandIgnored b => "ignoring " ++ Message.codeName b ++ " (" ++ Text.hexCode b ++ ")"
  | rangeAccepted a b => s!"knitting needles {a}..={b}"
  | lineTooShort n => s!"short cnfLine ({n} bytes)"
  | lineUnexpected l w => s!"unexpected cnfLine {l.toNat} (waiting for {w.toNat})"
  | bitmapTooShort l => s!"cnfLine {l.toNat} bitmap too short"
  | modeChanged a b => s!"{a.name} -> {b.name}"
  | carriageDetected c p => s!"detected carriage {c.name} at position {p}"
  | quarterSkipped => "encoder skipped a state"
  | beltPhaseKnown b => s!"belt phase {b.name}"
  | patternFinished l => s!"pattern finished after line {l.toNat}"
  | lineFinished l => s!"line {l.toNat} finished"
  | restarted => "reset"

end ControllerNotice

/-- Notices of a trial. -/
inductive TrialNotice
  | initSent (model : Model)
  | lineSent (line : UInt8)
  | sweepReversed (direction : Direction)
  | controllerReady (start stop : UInt8)
  | passMatched (passes : Nat) (direction : Direction)
  | verdictReached (verdict : Trial.Verdict)

namespace TrialNotice

def severity : TrialNotice → Severity
  | initSent _ | lineSent _ | sweepReversed _ => .debug
  | controllerReady _ _ | passMatched _ _ | verdictReached _ => .info

/-- The wording. -/
def text (n : TrialNotice) : String :=
  "harness: " ++ match n with
  | initSent m => s!"reqInit sent for {m.name}"
  | lineSent l => s!"cnfLine {l.toNat} sent"
  | sweepReversed d => s!"sweep reversed to {d.name}"
  | controllerReady a b => s!"firmware ready, knitting needles {a.toNat}..={b.toNat}"
  | passMatched n d => s!"pass {n} ({d.name}) matched"
  | verdictReached v => v.text

end TrialNotice

/-- Notices of the bench itself. -/
inductive BenchNotice
  | controllerStopped (activity : Activity)
  | resetRequested
  | tracingSwitched (on : Bool)
  | exchanged (microseconds : Nat) (heading : Heading) (message : List UInt8)
  | channelUnconnected (channel : UInt8)
  | mechanismShown (m : Mechanism)
  | panelShown (p : Panel)
  | trafficShown (t : Traffic)
  | bedShown (m : Mechanism)

namespace BenchNotice

def severity : BenchNotice → Severity
  | channelUnconnected _ => .warning
  | controllerStopped _ | resetRequested | tracingSwitched _ | exchanged _ _ _ => .info
  | mechanismShown _ | panelShown _ | trafficShown _ | bedShown _ => .debug

/-- A time in milliseconds with three places, the whole part six characters wide. -/
def timeText (microseconds : Nat) : String :=
  Text.padLeft 6 ' ' (toString (microseconds / 1000)) ++ "." ++
    Text.padLeft 3 '0' (toString (microseconds % 1000)) ++ " ms"

/-- The wording. -/
def text : BenchNotice → String
  | controllerStopped a => s!"microcontroller stopped: {a.name}"
  | resetRequested => "reset requested"
  | tracingSwitched on => "protocol tracing " ++ if on then "on" else "off"
  | exchanged t h m => timeText t ++ " " ++ Text.ofBytes [h.arrow] ++ " " ++ Message.describe m
  | channelUnconnected c => s!"conversion requested on unconnected ADC channel {c.toNat}"
  | mechanismShown m => m.statusLine
  | panelShown p => p.text
  | trafficShown t => t.text
  | bedShown m => "\n" ++ m.bedDisplay

end BenchNotice

/-- Any notice. -/
inductive Notice
  | controller (n : ControllerNotice)
  | trial (n : TrialNotice)
  | bench (n : BenchNotice)
  /-- A trial has been run to its end or its limit. -/
  | runStopped (ticks milliseconds : Nat)

namespace Notice

def severity : Notice → Severity
  | controller n => n.severity
  | trial n => n.severity
  | bench n => n.severity
  | runStopped _ _ => .info

/-- The wording. -/
def text : Notice → String
  | controller n => n.text
  | trial n => n.text
  | bench n => n.text
  | runStopped ticks ms => s!"test run stopped after {ticks} ticks ({ms} ms emulated)"

end Notice

/-- The notices worth keeping, oldest first. -/
structure Journal where
  /-- The least severity kept; nothing is kept without one. -/
  threshold : Option Severity
  entries : Array Notice := #[]

namespace Journal

/-- Whether a notice is kept. -/
def keeps (j : Journal) (n : Notice) : Bool :=
  j.threshold.any fun t => t.rank ≤ n.severity.rank

/-- Adds those notices that are kept. -/
def add (j : Journal) (notices : List Notice) : Journal :=
  notices.foldl (fun j n => if j.keeps n then { j with entries := j.entries.push n } else j) j

end Journal

end KnitBench
