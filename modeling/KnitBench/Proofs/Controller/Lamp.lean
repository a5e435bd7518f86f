import KnitBench.Proofs.Controller.Answers

/-! How the reference controller tells of lamp 0. It puts out changes only, told by a copy of its
own, so that a panel and the copy agree once all that waits has been passed on. -/

namespace KnitBench

/-- What lamp 0 shows after an output. -/
def Output.light (lit : Bool) : Output → Bool
  | .lamp index on => if index = 0 then on else lit
  | .solenoids _ | .convert _ | .serial _ | .beeper _ => lit

namespace ReferenceController

variable {c c' : ReferenceController} {lit : Bool} {mode : Mode}

/-- What lamp 0 of a panel shows when all that waits has been passed on to it, and it shows `lit`
before. -/
def shown (c : ReferenceController) (lit : Bool) : Bool := c.outbox.toList.foldl Output.light lit

/-- The controller knows lamp 0 to show whether it knits, and has told a panel that shows `lit`. -/
structure Mirrors (c : ReferenceController) (lit : Bool) : Prop where
  lamp0_eq : c.lamp0 = decide (c.mode = .knitting)
  shown_eq : c.shown lit = c.lamp0

theorem shown_emit (c : ReferenceController) (o : Output) (lit : Bool) :
    (c.emit o).shown lit = o.light (c.shown lit) := by
  rw [shown, emit, Array.toList_push, List.foldl_append]
  rfl

/-- Messages do not tell of lamps. -/
theorem shown_send (c : ReferenceController) (m : List UInt8) (lit : Bool) :
    (c.send m).shown lit = c.shown lit := by
  have serial (bytes : List UInt8) (lit : Bool) :
      (bytes.map Output.serial).foldl Output.light lit = lit := by
    induction bytes with
    | nil => rfl
    | cons b bytes ih => exact ih
  rw [shown, send, Array.toList_appendList, List.foldl_append, serial]
  rfl

/-- Switching lamp 0 brings panel and copy in step. -/
theorem shown_switchLamp0 (h : c.shown lit = c.lamp0) (on : Bool) :
    (c.switchLamp0 on).shown lit = on ∧ (c.switchLamp0 on).lamp0 = on := by
  unfold switchLamp0
  split
  · rename_i ho
    exact ⟨h.trans ho, ho⟩
  · rw [shown_emit]
    exact ⟨rfl, rfl⟩

namespace Mirrors

/-- Only the lamp, the mode and what has been put out matter. -/
theorem congr (h : c.Mirrors lit) (hl : c'.lamp0 = c.lamp0) (hm : c'.mode = c.mode)
    (ho : c'.outbox = c.outbox) : c'.Mirrors lit := by
  refine ⟨by rw [hl, hm, h.lamp0_eq], ?_⟩
  rw [shown, ho, hl]
  exact h.shown_eq

theorem send (h : c.Mirrors lit) (m : List UInt8) : (c.send m).Mirrors lit :=
  ⟨h.lamp0_eq, (c.shown_send m lit).trans h.shown_eq⟩

theorem emit (h : c.Mirrors lit) {o : Output} (ho : ∀ lit, o.light lit = lit) :
    (c.emit o).Mirrors lit :=
  ⟨h.lamp0_eq, by rw [shown_emit, ho]; exact h.shown_eq⟩

theorem beep (h : c.Mirrors lit) : c.beep.Mirrors lit :=
  (h.emit fun _ => rfl).emit fun _ => rfl

theorem toggleLamp1 (h : c.Mirrors lit) : c.toggleLamp1.Mirrors lit := by
  have hl : ({ c with lamp1 := !c.lamp1 } : ReferenceController).Mirrors lit := h.congr rfl rfl rfl
  exact hl.emit fun _ => rfl

/-- Whatever the mode was, going into a mode tells of it. -/
theorem enter (h : c.shown lit = c.lamp0) (mode : Mode) : (c.enter mode).value.Mirrors lit := by
  obtain ⟨hs, hl⟩ := shown_switchLamp0 (c := { c with mode }) h (decide (mode = Mode.knitting))
  obtain ⟨lamp0, outbox, he⟩ := c.exists_value_enter mode
  have hm : (c.enter mode).value.mode = mode := by rw [he]
  rw [← value_enter] at hs hl
  exact ⟨by rw [hm]; exact hl, hs.trans hl.symm⟩

theorem finishLine (h : c.Mirrors lit) : c.finishLine.value.Mirrors lit := by
  have hl : ({ c with line := { c.line with ready := false, worked := none } } :
      ReferenceController).Mirrors lit := h.congr rfl rfl rfl
  have hb := hl.beep.toggleLamp1
  cases hlast : c.line.last with
  | true =>
    rw [value_finishLine_last hlast]
    exact .enter hb.shown_eq .ready
  | false =>
    rw [value_finishLine hlast]
    refine Mirrors.send ?_ _
    exact hb.congr rfl rfl rfl

theorem worked (h : c.Mirrors lit) : c.worked.Mirrors lit := by
  obtain ⟨worked, hw⟩ | ⟨-, -, worked, hw⟩ := c.tracked.value_workLine_cases
  · rw [ReferenceController.worked, hw]
    exact h.congr rfl rfl rfl
  · rw [ReferenceController.worked, hw]
    have hn : (c.tracked.noting worked).Mirrors lit := h.congr rfl rfl rfl
    exact hn.finishLine

/-- A slice of time. -/
theorem step (h : c.Mirrors lit) : c.step.value.Mirrors lit := by
  have hv : c.step.value = (c.worked.driveSolenoids.emit (.convert rightChannel)).emit
      (.convert leftChannel) := rfl
  have hd : c.worked.driveSolenoids.Mirrors lit := by
    rw [driveSolenoids]
    split
    · exact h.worked
    · have hr : ({ c.worked with register := some c.worked.wantedRegister } :
          ReferenceController).Mirrors lit := h.worked.congr rfl rfl rfl
      exact hr.emit fun _ => rfl
  rw [hv]
  exact (hd.emit fun _ => rfl).emit fun _ => rfl

theorem onInit (h : c.Mirrors lit) (payload : List UInt8) :
    (c.onInit payload).value.Mirrors lit := by
  unfold ReferenceController.onInit
  split
  · exact h.send _
  · rename_i model _
    have hs : ({ c with model, line := {} } : ReferenceController).Mirrors lit :=
      h.congr rfl rfl rfl
    exact (Mirrors.enter (hs.send (Message.cnfInit 0)).shown_eq .ready).send _

theorem onStart (h : c.Mirrors lit) (payload : List UInt8) :
    (c.onStart payload).value.Mirrors lit := by
  unfold ReferenceController.onStart
  split
  · rename_i a b _
    dsimp only
    split
    · have hs : ({ c with start := a.toNat, stop := b.toNat, line := {} } :
          ReferenceController).Mirrors lit := h.congr rfl rfl rfl
      exact (Mirrors.enter (hs.send (Message.cnfStart 0)).shown_eq .knitting).send _
    · exact h.send _
  · exact h.send _

theorem onLine (h : c.Mirrors lit) (payload : List UInt8) :
    (c.onLine payload).value.Mirrors lit := by
  unfold ReferenceController.onLine
  split
  · split
    · split
      · exact h.congr rfl rfl rfl
      · exact h
    · exact h
  · exact h

theorem onTest (h : c.Mirrors lit) : c.onTest.value.Mirrors lit := by
  have ht {a : ReferenceController} (ha : a.Mirrors lit) (testRegister : Register) :
      ({ a with testRegister } : ReferenceController).Mirrors lit := ha.congr rfl rfl rfl
  exact .enter (ht (h.send (Message.cnfTest 0)) _).shown_eq .test

theorem onTestCommand (h : c.Mirrors lit) (code : Message.Code) (payload : List UInt8) :
    (c.onTestCommand code payload).value.Mirrors lit := by
  unfold ReferenceController.onTestCommand
  split
  · exact h.beep
  · exact h.congr rfl rfl rfl
  · split
    · exact h.congr rfl rfl rfl
    · exact h.send _
  · exact h.send _
  · exact h.send _
  · exact .enter h.shown_eq .ready
  · exact h.send _

/-- Whatever the controller is told, the panel is told of lamp 0. -/
theorem onMessage (h : c.Mirrors lit) (message : List UInt8) :
    (c.onMessage message).value.Mirrors lit := by
  unfold ReferenceController.onMessage
  split
  · exact h
  · split
    · exact h.onInit _
    · exact h.onStart _
    · exact h.onLine _
    · exact h.send _
    · exact h.onTest
    · split
      · exact h.onTestCommand _ _
      · exact h
    · exact h

theorem receiveAll (h : c.Mirrors lit) (bytes : List UInt8) :
    (Controller.receiveAll bytes c).value.Mirrors lit :=
  kept_receiveAll (P := (·.Mirrors lit)) (fun _ _ h => h.congr rfl rfl rfl)
    (fun _ m h => h.onMessage m) h bytes

/-- A reset forgets what has been put out, and tells of no lamp: it does no harm to a panel that is
dark. -/
theorem reset (c : ReferenceController) : c.reset.value.Mirrors false := ⟨rfl, rfl⟩

end Mirrors

end ReferenceController

end KnitBench
