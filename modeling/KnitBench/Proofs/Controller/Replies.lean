import KnitBench.Proofs.Controller.Answers
import KnitBench.Proofs.Message.LineBitmap

/-! How the reference controller takes the messages of a trial, and what it says to them. -/

namespace KnitBench

namespace ReferenceController

variable {c : ReferenceController} {ms : List (List UInt8)}

theorem onMessage_make (c : ReferenceController) (code : Message.Code) (payload : List UInt8) :
    c.onMessage (Message.make code payload) =
      match code with
      | .reqInit => c.onInit payload
      | .reqStart => c.onStart payload
      | .cnfLine => c.onLine payload
      | .reqInfo => pure (c.send (Message.cnfInfo 1 0 0))
      | .reqTest => c.onTest
      | code =>
        if c.mode = .test then c.onTestCommand code payload
        else do
          Logged.noteController (.commandIgnored code.byte)
          return c := by
  simp only [onMessage, Message.split_make, Message.Code.ofByte?_byte]
  cases code <;> rfl

/-- Told its machine, the controller confirms and reports that it is ready. -/
theorem exists_value_reqInit (hq : c.Queues ms) (model : Model) :
    ∃ (report : StateReport) (lamp0 : Bool) (outbox : Array Output), report.error = 0 ∧
      (c.onMessage (Message.reqInit model)).value =
        { c with model, line := {}, mode := .ready, lamp0, outbox } ∧
      (c.onMessage (Message.reqInit model)).value.Queues
        (ms ++ [Message.cnfInit 0, report.message]) := by
  rw [Message.reqInit, onMessage_make]
  have hm : ([model.code] : List UInt8).head?.bind Model.ofCode? = some model := model.ofCode?_code
  simp only [onInit, hm, Logged.value_bind, Logged.value_pure]
  have hqs : ({ c with model, line := {} } : ReferenceController).Queues ms := hq
  have hqe := queues_enter (queues_send hqs (Message.cnfInit 0)) .ready
  obtain ⟨lamp0, outbox, he⟩ := exists_value_enter
    (({ c with model, line := {} } : ReferenceController).send (Message.cnfInit 0)) .ready
  generalize ((({ c with model, line := {} } : ReferenceController).send
    (Message.cnfInit 0)).enter .ready).value = e at hqe he ⊢
  refine ⟨e.report, lamp0, (e.send e.report.message).outbox, rfl, ?_, ?_⟩
  · rw [he]
    rfl
  · have hqr := queues_send hqe e.report.message
    rwa [List.append_assoc] at hqr

/-- Told a range of its bed, a controller that is ready confirms and asks for the first line. -/
theorem exists_value_reqStart (hq : c.Queues ms) {start stop : UInt8} (flags : UInt8)
    (hm : c.mode = .ready) (hle : start.toNat ≤ stop.toNat)
    (hlt : stop.toNat < c.model.needleCount) :
    ∃ (lamp0 : Bool) (outbox : Array Output),
      (c.onMessage (Message.reqStart start stop flags)).value =
        { c with
          start := start.toNat, stop := stop.toNat, line := {}, mode := .knitting, lamp0
          outbox } ∧
      (c.onMessage (Message.reqStart start stop flags)).value.Queues
        (ms ++ [Message.cnfStart 0, Message.reqLine 0]) := by
  rw [Message.reqStart, onMessage_make]
  simp only [onStart, if_pos (And.intro hm (And.intro hle hlt)), Logged.value_bind,
    Logged.value_pure]
  have hqs : ({ c with start := start.toNat, stop := stop.toNat, line := {} } :
    ReferenceController).Queues ms := hq
  have hqe := queues_enter (queues_send hqs (Message.cnfStart 0)) .knitting
  obtain ⟨lamp0, outbox, he⟩ := exists_value_enter
    (({ c with start := start.toNat, stop := stop.toNat, line := {} } :
      ReferenceController).send (Message.cnfStart 0)) .knitting
  generalize ((({ c with start := start.toNat, stop := stop.toNat, line := {} } :
    ReferenceController).send (Message.cnfStart 0)).enter .knitting).value = e at hqe he ⊢
  refine ⟨lamp0, (e.send (Message.reqLine 0)).outbox, ?_, ?_⟩
  · rw [he]
    simp only [send]
  · have hqr := queues_send hqe (Message.reqLine 0)
    rwa [List.append_assoc] at hqr

/-- The range of a setup fits into the bytes of a request. -/
theorem toNat_range (s : Setup) :
    (UInt8.ofNat s.start).toNat = s.start ∧ (UInt8.ofNat s.stop).toNat = s.stop := by
  have hle := s.start_le_stop
  have hlt := s.stop_lt_needleCount
  have hn := s.model.needleCount_lt
  have hsize : UInt8.size = 256 := rfl
  exact ⟨UInt8.toNat_ofNat_of_lt' (by omega), UInt8.toNat_ofNat_of_lt' (by omega)⟩

/-- The range of its setup is always taken. -/
theorem exists_value_reqStart_range (hq : c.Queues ms) (hm : c.mode = .ready) {s : Setup}
    (hc : c.model = s.model) :
    ∃ (lamp0 : Bool) (outbox : Array Output),
      (c.onMessage (Message.reqStart (UInt8.ofNat s.start) (UInt8.ofNat s.stop) 0)).value =
        { c with start := s.start, stop := s.stop, line := {}, mode := .knitting, lamp0, outbox } ∧
      (c.onMessage (Message.reqStart (UInt8.ofNat s.start) (UInt8.ofNat s.stop) 0)).value.Queues
        (ms ++ [Message.cnfStart 0, Message.reqLine 0]) := by
  obtain ⟨hstart, hstop⟩ := toNat_range s
  have hle : (UInt8.ofNat s.start).toNat ≤ (UInt8.ofNat s.stop).toNat := by
    rw [hstart, hstop]
    exact s.start_le_stop
  have hlt : (UInt8.ofNat s.stop).toNat < c.model.needleCount := by
    rw [hstop, hc]
    exact s.stop_lt_needleCount
  have h := exists_value_reqStart hq 0 hm hle hlt
  rwa [hstart, hstop] at h

/-- The line that was asked for is taken. -/
theorem onMessage_cnfLine {index color flags : UInt8} {bits : LineBitmap} (hm : c.mode = .knitting)
    (hi : index = c.line.index) :
    c.onMessage (Message.cnfLine index color flags bits) = pure { c with
      line := { c.line with
        bitmap := bits, ready := true, last := flags &&& Message.lastLineFlag != 0
        worked := none } } := by
  rw [Message.cnfLine, onMessage_make]
  simp only [onLine, if_pos (And.intro hm hi), LineBitmap.ofBytes?_toList]

/-- A controller that does not knit leaves lines alone. -/
theorem value_cnfLine_of_mode_ne {index color flags : UInt8} {bits : LineBitmap}
    (hm : c.mode ≠ .knitting) :
    (c.onMessage (Message.cnfLine index color flags bits)).value = c := by
  rw [Message.cnfLine, onMessage_make]
  simp only [onLine, if_neg fun h : c.mode = .knitting ∧ index = c.line.index => hm h.1]
  rfl

end ReferenceController

end KnitBench
