import KnitBench.Controller.Reference
import KnitBench.Proofs.Wire.Delivery

/-! What the reference controller puts out in a slice of its time: messages in whole frames, then
the solenoids if they change, and last the two measurements. -/

namespace KnitBench

namespace Output

/-- Whether an output goes to the mechanism or measures it. -/
def drives : Output → Bool
  | .solenoids _ | .convert _ => true
  | .serial _ | .beeper _ | .lamp .. => false

/-- The byte of an output on the serial line. -/
def byte? : Output → Option UInt8
  | .serial b => some b
  | _ => none

/-- A register after an output. -/
def latch (r : Register) : Output → Register
  | .solenoids v => v
  | _ => r

/-- What is known of the sensors after an output, when they read `hall`. -/
def sample (hall h : HallReading) : Output → HallReading
  | .convert channel =>
    if channel = rightChannel then { h with right := hall.right }
    else if channel = leftChannel then { h with left := hall.left }
    else h
  | _ => h

/-- Only the two channels with a sensor are measured. -/
def Connected (o : Output) : Prop :=
  ∀ channel, o = .convert channel → channel = rightChannel ∨ channel = leftChannel

variable {o : Output} {r : Register} {hall h : HallReading}

/-- What does not drive leaves the register alone. -/
theorem latch_eq (hd : o.drives = false) : o.latch r = r := by
  cases o with
  | solenoids => cases hd
  | convert | serial | beeper | lamp => rfl

/-- What does not drive measures nothing. -/
theorem sample_eq (hd : o.drives = false) : o.sample hall h = h := by
  cases o with
  | convert => cases hd
  | solenoids | serial | beeper | lamp => rfl

end Output

/-- Outputs that carry messages in whole frames and leave the mechanism alone. -/
structure Carries (os : List Output) (ms : List (List UInt8)) : Prop where
  bytes_eq : os.filterMap Output.byte? = ms.flatMap Wire.frame
  drives_eq : ∀ o ∈ os, o.drives = false

namespace Carries

variable {os os' : List Output} {ms ms' : List (List UInt8)} {o : Output} {r : Register}
  {hall h : HallReading}

theorem nil : Carries [] [] := ⟨rfl, by simp⟩

theorem append (h : Carries os ms) (h' : Carries os' ms') : Carries (os ++ os') (ms ++ ms') where
  bytes_eq := by rw [List.filterMap_append, List.flatMap_append, h.bytes_eq, h'.bytes_eq]
  drives_eq o ho := (List.mem_append.mp ho).elim (h.drives_eq o) (h'.drives_eq o)

/-- Lamps and beeper carry no message. -/
theorem single (hd : o.drives = false) (hb : o.byte? = none) : Carries [o] [] where
  bytes_eq := by simp [hb]
  drives_eq := by simpa using hd

theorem serial (m : List UInt8) : Carries ((Wire.frame m).map .serial) [m] where
  bytes_eq := by
    rw [List.filterMap_map, List.flatMap_singleton]
    exact List.filterMap_some
  drives_eq o ho := by
    obtain ⟨b, -, rfl⟩ := List.mem_map.mp ho
    rfl

theorem foldl_latch (h : Carries os ms) : os.foldl Output.latch r = r := by
  have hd := h.drives_eq
  clear h
  induction os with
  | nil => rfl
  | cons o os ih =>
    rw [List.foldl_cons, Output.latch_eq (hd o (by simp))]
    exact ih fun o ho => hd o (by simp [ho])

theorem foldl_sample (hc : Carries os ms) : os.foldl (Output.sample hall) h = h := by
  have hd := hc.drives_eq
  clear hc
  induction os with
  | nil => rfl
  | cons o os ih =>
    rw [List.foldl_cons, Output.sample_eq (hd o (by simp))]
    exact ih fun o ho => hd o (by simp [ho])

theorem connected (h : Carries os ms) (ho : o ∈ os) : o.Connected := by
  rintro channel rfl
  cases h.drives_eq _ ho

end Carries

namespace ReferenceController

variable {c c' : ReferenceController} {ms : List (List UInt8)} {o : Output}

/-- The messages that wait to be collected. -/
def Queues (c : ReferenceController) (ms : List (List UInt8)) : Prop := Carries c.outbox.toList ms

theorem queues_of_outbox_eq (ho : c'.outbox = c.outbox) (h : c.Queues ms) : c'.Queues ms := by
  rw [Queues, ho]
  exact h

theorem queues_emit (h : c.Queues ms) (hd : o.drives = false) (hb : o.byte? = none) :
    (c.emit o).Queues ms := by
  have := Carries.append h (Carries.single hd hb)
  simpa [Queues, emit] using this

theorem queues_send (h : c.Queues ms) (m : List UInt8) : (c.send m).Queues (ms ++ [m]) := by
  have := Carries.append h (Carries.serial m)
  simpa [Queues, send] using this

theorem queues_beep (h : c.Queues ms) : c.beep.Queues ms :=
  queues_emit (queues_emit h rfl rfl) rfl rfl

theorem queues_toggleLamp1 (h : c.Queues ms) : c.toggleLamp1.Queues ms :=
  queues_emit (c := { c with lamp1 := !c.lamp1 }) h rfl rfl

theorem queues_switchLamp0 (h : c.Queues ms) (on : Bool) : (c.switchLamp0 on).Queues ms := by
  unfold switchLamp0
  split
  · exact h
  · exact queues_emit (c := { c with lamp0 := on }) h rfl rfl

theorem value_enter (c : ReferenceController) (mode : Mode) :
    (c.enter mode).value = { c with mode }.switchLamp0 (decide (mode = Mode.knitting)) := by
  unfold enter
  split <;> rfl

theorem queues_enter (h : c.Queues ms) (mode : Mode) : (c.enter mode).value.Queues ms := by
  rw [value_enter]
  exact queues_switchLamp0 (c := { c with mode }) h _

/-- Apart from a lamp, only the mode changes. -/
theorem exists_value_enter (c : ReferenceController) (mode : Mode) :
    ∃ lamp0 outbox, (c.enter mode).value = { c with mode, lamp0, outbox } := by
  rw [value_enter]
  unfold switchLamp0
  split
  · exact ⟨c.lamp0, c.outbox, rfl⟩
  · exact ⟨_, _, rfl⟩

/-- A line that is not the last is followed by a request for the next. -/
theorem value_finishLine (hl : c.line.last = false) :
    c.finishLine.value =
      ({ { c with line := { c.line with ready := false, worked := none } }.beep.toggleLamp1 with
        line := { c.line with
          ready := false, worked := none, index := c.line.index + 1 } } : ReferenceController).send
        (Message.reqLine (c.line.index + 1)) := by
  simp only [finishLine, toggleLamp1, beep, emit, hl]
  rfl

/-- After the last line the controller is ready for another pattern. -/
theorem value_finishLine_last (hl : c.line.last = true) :
    c.finishLine.value =
      ({ c with line := { c.line with ready := false, worked := none } }.beep.toggleLamp1.enter
        .ready).value := by
  simp only [finishLine, toggleLamp1, beep, emit, hl]
  rfl

theorem exists_value_finishLine (hq : c.Queues ms) (hl : c.line.last = false) :
    ∃ lamp1 outbox, c.finishLine.value = { c with
        line := { c.line with ready := false, worked := none, index := c.line.index + 1 }
        lamp1, outbox } ∧
      c.finishLine.value.Queues (ms ++ [Message.reqLine (c.line.index + 1)]) := by
  refine ⟨!c.lamp1, c.finishLine.value.outbox, ?_, ?_⟩
  · rw [value_finishLine hl]
    rfl
  · rw [value_finishLine hl]
    exact queues_send (c := { { c with
      line := { c.line with ready := false, worked := none } }.beep.toggleLamp1 with
        line := { c.line with ready := false, worked := none, index := c.line.index + 1 } })
      (queues_toggleLamp1 (queues_beep hq)) _

theorem exists_value_finishLine_last (hq : c.Queues ms) (hl : c.line.last = true) :
    ∃ lamp0 lamp1 outbox, c.finishLine.value = { c with
        mode := .ready
        line := { c.line with ready := false, worked := none }
        lamp0, lamp1, outbox } ∧
      c.finishLine.value.Queues ms := by
  obtain ⟨lamp0, outbox, he⟩ := exists_value_enter
    { c with line := { c.line with ready := false, worked := none } }.beep.toggleLamp1 .ready
  refine ⟨lamp0, !c.lamp1, outbox, ?_, ?_⟩
  · rw [value_finishLine_last hl, he]
    rfl
  · rw [value_finishLine_last hl]
    exact queues_enter (queues_toggleLamp1 (queues_beep (c := { c with
      line := { c.line with ready := false, worked := none } }) hq)) _

/-- The controller when it has followed the carriage. -/
def tracked (c : ReferenceController) : ReferenceController :=
  { c with
    cycle := c.cycle + cyclesPerStep
    tracker := (c.tracker.track c.model c.levels c.hall).value }

/-- The controller when it has followed the carriage and worked on its line. -/
def worked (c : ReferenceController) : ReferenceController := c.tracked.workLine.value

/-- The controller with a note of where the selector has entered the range. -/
def noting (c : ReferenceController) (worked : Option Direction) : ReferenceController :=
  { c with line := { c.line with worked } }

/-- The direction in which the selector has entered the range, if it has. -/
def entered (c : ReferenceController) (carriage : Carriage) (d : Direction) : Option Direction :=
  c.line.worked.or (if c.inRange (c.tracker.selected carriage d) then some d else none)

/-- With the carriage known, the line is finished when the selector has left the range. -/
theorem value_workLine {carriage : Carriage} {d : Direction} (hm : c.mode = .knitting)
    (hr : c.line.ready = true) (hc : c.tracker.carriage = some carriage)
    (hd : c.tracker.direction = some d) :
    c.workLine.value =
      if (c.entered carriage d).any (c.leftRange (c.tracker.selected carriage d)) then
        (c.noting (c.entered carriage d)).finishLine.value
      else c.noting (c.entered carriage d) := by
  rw [workLine, if_pos ⟨hm, hr⟩, hc, hd]
  exact apply_ite Logged.value _ _ _

/-- Whether work on the line finishes it: the selector has left the range on the far side. -/
def finishes (c : ReferenceController) : Bool :=
  match c.tracker.carriage, c.tracker.direction with
  | some carriage, some d =>
    decide (c.mode = .knitting ∧ c.line.ready = true) &&
      (c.entered carriage d).any (c.leftRange (c.tracker.selected carriage d))
  | _, _ => false

theorem knitting_of_finishes (h : c.finishes = true) :
    c.mode = .knitting ∧ c.line.ready = true := by
  unfold finishes at h
  split at h
  · exact of_decide_eq_true (Bool.and_eq_true_iff.mp h).1
  · cases h

/-- Work on a line finishes it, or notes at most that the selector has entered the range. -/
theorem exists_value_workLine (c : ReferenceController) :
    ∃ worked, c.workLine.value =
      if c.finishes then (c.noting worked).finishLine.value else c.noting worked := by
  -- A line that is left alone keeps the note that it has.
  have alone (hf : c.finishes = false) (hw : c.workLine.value = c) : ∃ worked, c.workLine.value =
      if c.finishes then (c.noting worked).finishLine.value else c.noting worked := by
    rw [hf, hw]
    exact ⟨c.line.worked, rfl⟩
  by_cases hk : c.mode = .knitting ∧ c.line.ready = true
  · cases hc : c.tracker.carriage with
    | none =>
      refine alone (by simp [finishes, hc]) ?_
      rw [workLine, if_pos hk, hc]
      rfl
    | some carriage =>
      cases hd : c.tracker.direction with
      | none =>
        refine alone (by simp [finishes, hc, hd]) ?_
        rw [workLine, if_pos hk, hc, hd]
        rfl
      | some d =>
        refine ⟨c.entered carriage d, ?_⟩
        rw [value_workLine hk.1 hk.2 hc hd]
        simp [finishes, hc, hd, hk]
  · refine alone (Bool.eq_false_iff.mpr fun hf => hk (knitting_of_finishes hf)) ?_
    rw [workLine, if_neg hk]
    rfl

theorem value_workLine_cases (c : ReferenceController) :
    (∃ worked, c.workLine.value = c.noting worked) ∨
      (c.mode = .knitting ∧ c.line.ready = true ∧
        ∃ worked, c.workLine.value = (c.noting worked).finishLine.value) := by
  obtain ⟨worked, hw⟩ := c.exists_value_workLine
  cases hf : c.finishes with
  | false => exact Or.inl ⟨worked, by simpa [hf] using hw⟩
  | true =>
    obtain ⟨hm, hr⟩ := knitting_of_finishes hf
    exact Or.inr ⟨hm, hr, worked, by simpa [hf] using hw⟩

/-- With the selector off the range, a line that has not been begun is left alone. -/
theorem worked_eq_tracked (hw : c.line.worked = none)
    (hr : c.line.ready = true → ∀ carriage d, c.tracked.tracker.carriage = some carriage →
      c.tracked.tracker.direction = some d →
      c.inRange (c.tracked.tracker.selected carriage d) = false) :
    c.worked = c.tracked := by
  have hnote : c.tracked.noting none = c.tracked := by
    have hline : c.line = { c.line with worked := none } := by rw [← hw]
    exact congrArg (fun line => { c.tracked with line }) hline.symm
  have hwt : c.tracked.line.worked = none := hw
  rw [worked]
  by_cases hk : c.tracked.mode = .knitting ∧ c.tracked.line.ready = true
  · cases hc : c.tracked.tracker.carriage with
    | none =>
      rw [workLine, if_pos hk, hc]
      rfl
    | some carriage =>
      cases hd : c.tracked.tracker.direction with
      | none =>
        rw [workLine, if_pos hk, hc, hd]
        rfl
      | some d =>
        have hout : c.tracked.inRange (c.tracked.tracker.selected carriage d) = false :=
          hr hk.2 carriage d hc hd
        have he : c.tracked.entered carriage d = none := by
          rw [entered, hwt, hout]
          rfl
        rw [value_workLine hk.1 hk.2 hc hd, he]
        exact hnote
  · rw [workLine, if_neg hk]
    rfl

/-- A controller that does not knit has no line to work on. -/
theorem worked_of_mode_ne (hm : c.mode ≠ .knitting) : c.worked = c.tracked := by
  rw [worked, workLine, if_neg fun h => hm h.1]
  rfl

/-- A slice leaves the range, the model, the input lines and the receiver alone, and puts nothing on
the solenoids yet when it works on the line. -/
theorem exists_worked (hq : c.Queues ms) :
    ∃ mode line lamp0 lamp1 outbox ms', c.worked = { c.tracked with
      mode, line, lamp0, lamp1, outbox } ∧ c.worked.Queues (ms ++ ms') := by
  obtain ⟨worked, hw⟩ | ⟨-, -, worked, hw⟩ := c.tracked.value_workLine_cases
  · refine ⟨_, _, _, _, _, [], hw, ?_⟩
    rw [List.append_nil, ReferenceController.worked, hw]
    exact hq
  · rw [ReferenceController.worked, hw]
    have hqn : (c.tracked.noting worked).Queues ms := hq
    cases hl : (c.tracked.noting worked).line.last with
    | false =>
      obtain ⟨lamp1, outbox, hv, hm⟩ := exists_value_finishLine hqn hl
      exact ⟨_, _, _, lamp1, outbox, _, hv, hm⟩
    | true =>
      obtain ⟨lamp0, lamp1, outbox, hv, hm⟩ := exists_value_finishLine_last hqn hl
      exact ⟨_, _, lamp0, lamp1, outbox, [], hv, by rwa [List.append_nil]⟩

/-- The controller after a slice of time whose output has been collected. -/
def sliced (c : ReferenceController) (hall : HallReading) : ReferenceController :=
  { c.worked with register := some c.worked.wantedRegister, outbox := #[], hall }

/-- After its work on the line a slice puts out what belongs on the solenoids, unless it is there,
and has both sensors measured. -/
theorem exists_value_step (c : ReferenceController) :
    ∃ os : List Output, (os = [] ∧ c.worked.register = some c.worked.wantedRegister ∨
        os = [.solenoids c.worked.wantedRegister]) ∧
      c.step.value = { c.worked with
        register := some c.worked.wantedRegister
        outbox := c.worked.outbox ++
          (os ++ [.convert rightChannel, .convert leftChannel]) } := by
  have hv : c.step.value = (c.worked.driveSolenoids.emit (.convert rightChannel)).emit
      (.convert leftChannel) := rfl
  by_cases hr : c.worked.register = some c.worked.wantedRegister
  · refine ⟨[], Or.inl ⟨rfl, hr⟩, ?_⟩
    rw [hv, driveSolenoids, if_pos hr, ← hr]
    simp [emit]
  · refine ⟨[.solenoids c.worked.wantedRegister], Or.inr rfl, ?_⟩
    rw [hv, driveSolenoids, if_neg hr]
    simp [emit]

section Outputs

variable {r : Register} {hall h : HallReading}

/-- The outputs of a slice bring a register that was in step with the controller in step again. -/
theorem foldl_latch_step (hq : c.Queues ms) (hr : ∀ v, c.register = some v → r = v) :
    c.step.value.outbox.toList.foldl Output.latch r = c.worked.wantedRegister := by
  obtain ⟨mode, line, lamp0, lamp1, outbox, ms', hw, hq'⟩ := exists_worked hq
  obtain ⟨os, hos, hs⟩ := c.exists_value_step
  have hwr : c.worked.register = c.register := by
    rw [hw]
    rfl
  rw [hs]
  simp only [Array.toList_appendList, List.foldl_append, Carries.foldl_latch hq']
  rcases hos with ⟨rfl, hreg⟩ | rfl
  · exact hr _ (hwr.symm.trans hreg)
  · rfl

/-- After a slice the controller knows what both sensors read. -/
theorem foldl_sample_step (hq : c.Queues ms) :
    c.step.value.outbox.toList.foldl (Output.sample hall) h = hall := by
  obtain ⟨mode, line, lamp0, lamp1, outbox, ms', hw, hq'⟩ := exists_worked hq
  obtain ⟨os, hos, hs⟩ := c.exists_value_step
  rw [hs]
  simp only [Array.toList_appendList, List.foldl_append, Carries.foldl_sample hq']
  rcases hos with ⟨rfl, -⟩ | rfl <;> rfl

/-- A slice puts on the serial line what its work on the line has left there. -/
theorem filterMap_byte_step (hq : c.worked.Queues ms) :
    c.step.value.outbox.toList.filterMap Output.byte? = ms.flatMap Wire.frame := by
  obtain ⟨os, hos, hs⟩ := c.exists_value_step
  rw [hs]
  simp only [Array.toList_appendList, List.filterMap_append, hq.bytes_eq]
  rcases hos with ⟨rfl, -⟩ | rfl <;> exact List.append_nil _

theorem connected_step (hq : c.Queues ms) {o : Output} (ho : o ∈ c.step.value.outbox.toList) :
    o.Connected := by
  obtain ⟨mode, line, lamp0, lamp1, outbox, ms', hw, hq'⟩ := exists_worked hq
  obtain ⟨os, hos, hs⟩ := c.exists_value_step
  rw [hs] at ho
  simp only [Array.toList_appendList, List.mem_append, List.mem_cons, List.not_mem_nil,
    or_false] at ho
  rcases ho with ho | ho | rfl | rfl
  · exact hq'.connected ho
  · rintro channel rfl
    rcases hos with ⟨rfl, -⟩ | rfl <;> simp at ho
  · rintro channel ⟨⟩
    exact Or.inl rfl
  · rintro channel ⟨⟩
    exact Or.inr rfl

/-- What a slice leaves when its output has been collected. -/
theorem sliced_eq (c : ReferenceController) (hall : HallReading) :
    { c.step.value with outbox := #[], hall } = c.sliced hall := by
  obtain ⟨os, -, hs⟩ := c.exists_value_step
  rw [hs]
  rfl

end Outputs

end ReferenceController

end KnitBench
