import KnitBench.Bench.Run
import KnitBench.CommandLine.Report
import KnitBench.Controller.Idle
import KnitBench.Controller.Scripted
import KnitBench.Main
import KnitBench.Rig
import KnitBench.Proofs.Mechanism.Cam
import KnitBench.Proofs.Wire.Delivery
import KnitBench.Proofs.Controller.Window
import KnitBench.Proofs.Controller.Following
import KnitBench.Proofs.Mechanism.Counter
import KnitBench.Proofs.Mechanism.History
import KnitBench.Proofs.Controller.Detection
import KnitBench.Proofs.Controller.Recognition
import KnitBench.Proofs.Controller.Answers
import KnitBench.Proofs.Controller.Finish
import KnitBench.Proofs.Wiring
import KnitBench.Proofs.Mechanism.Pass
import KnitBench.Proofs.Pass
import KnitBench.Proofs.Rig.Exchange
import KnitBench.Proofs.Rig.Line
import KnitBench.Proofs.Rig.Finish
import KnitBench.Proofs.Bench.Exchange
import KnitBench.Proofs.Bench.Tick
import KnitBench.Proofs.Bench.Observation
import KnitBench.Proofs.Bench.Recognition
import KnitBench.Proofs.Controller.Replies
import KnitBench.Proofs.Trial.Talk
import KnitBench.Proofs.Bench.Conversation
import KnitBench.Proofs.Bench.Clock
import KnitBench.Proofs.Trial.Judgement
import KnitBench.Proofs.Bench.Supply
import KnitBench.Proofs.Arrival
import KnitBench.Proofs.Bench.Approach
import KnitBench.Proofs.Bench.Beyond
import KnitBench.Proofs.Bench.Crossing
import KnitBench.Proofs.Bench.Return
import KnitBench.Proofs.Bench.Opening
import KnitBench.Proofs.Bench.Outcome
import KnitBench.Proofs.Trial.Course
import KnitBench.Proofs.Trial.Acceptance
import KnitBench.Proofs.Trial.Answering
import KnitBench.Proofs.Trial.Sweep
import KnitBench.Proofs.Controller.Saying
import KnitBench.Proofs.Controller.Session
import KnitBench.Proofs.Controller.Speech
import KnitBench.Proofs.Controller.LineTransfer
import KnitBench.Proofs.Controller.Transcript
import KnitBench.Proofs.Controller.Preparation
import KnitBench.Proofs.Controller.Lamp
import KnitBench.Proofs.Controller.Refusal
import KnitBench.Proofs.Wire.Reception
import KnitBench.Proofs.Wire.Checksum
import KnitBench.Proofs.Message.Corruption
import KnitBench.Proofs.Bench.Lamp
import KnitBench.Proofs.Bench.Register
import KnitBench.Proofs.Bench.Verdict
import KnitBench.Proofs.Bench.Stall
import KnitBench.Proofs.Bench.Replay
import KnitBench.Proofs.CommandLine.Reading
import KnitBench.Proofs.CommandLine.Status
import KnitBench.Proofs.Wire.Canonical
import KnitBench.Proofs.Text.Reading
import KnitBench.Proofs.Script
import KnitBench.Proofs.Trial.Wording
import KnitBench.Proofs.Trial.Comparison
import KnitBench.Proofs.Controller.Skipping
import KnitBench.Proofs.Bench.Skipping
import KnitBench.Proofs.Bench.Encoder
import KnitBench.Proofs.Bench.Pace
import KnitBench.Proofs.Wire.Bounded
import KnitBench.Proofs.Message.Selection
import KnitBench.Proofs.Controller.Words
import KnitBench.Proofs.Controller.Reckoning
import KnitBench.Proofs.Controller.Turning
import KnitBench.Proofs.Controller.Safety
import KnitBench.Proofs.Controller.Quadrature
import KnitBench.Proofs.CommandLine.Settings
import KnitBench.Proofs.Text.Bytes
import KnitBench.Proofs.Scrolling
import KnitBench.Proofs.Mechanism.Display
