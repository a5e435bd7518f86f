import KnitBench.Proofs.Controller.Finish
import KnitBench.Proofs.Rig.Exchange

/-! When a rig is done with a line. However the carriage goes to and fro, the controller ends a line
only with the selector beyond the far side of the range. But the carriage may have turned back
before: then the selector is there because it has gone over to the other side of the carriage, and
the rest of the line is never knitted. -/

namespace KnitBench.Rig

open ReferenceController

variable {r : Rig}

/-- One thing that happens to a rig. -/
inductive Beat
  /-- The carriage moves by one encoder step; the controller has no time yet to notice. -/
  | move (d : Direction)
  /-- The controller works for one slice of time. -/
  | slice
  | receive (bytes : List UInt8)
  | reset

/-- The rig after a beat. -/
def after (r : Rig) : Beat → Rig
  | .move d => r.facing (r.mechanism.move d)
  | .slice => r.step.value.2
  | .receive bytes => (r.receive bytes).value.2
  | .reset => r.reset.value

/-- The rig after several beats. -/
def run (r : Rig) (beats : List Beat) : Rig := beats.foldl after r

/-- Passing outputs on tells the controller no more than what its sensors read. -/
theorem exists_passAllOn (os : List Output) (r : Rig) :
    ∃ hall, (passAllOn os r).2.controller = { r.controller with hall } := by
  induction os generalizing r with
  | nil => exact ⟨r.controller.hall, rfl⟩
  | cons o os ih =>
    obtain ⟨hall, he⟩ := ih (r.passOn o).2
    have ho : ∃ hall, (r.passOn o).2.controller = { r.controller with hall } := by
      cases o with
      | convert channel =>
        simp only [passOn]
        split <;> exact ⟨_, rfl⟩
      | solenoids | serial | beeper | lamp => exact ⟨r.controller.hall, rfl⟩
    obtain ⟨hall', ho⟩ := ho
    refine ⟨hall, ?_⟩
    rw [passAllOn_cons]
    dsimp only
    rw [he, ho]

theorem exists_pump (r : Rig) :
    ∃ hall, r.pump.2.controller = { r.controller with outbox := #[], hall } :=
  exists_passAllOn _ _

/-- A slice of time leaves line and tracker as the controller has worked them out. -/
theorem exists_step (r : Rig) :
    ∃ register outbox hall, r.step.value.2.controller =
      { r.controller.worked with register, outbox, hall } := by
  obtain ⟨hall, hp⟩ := exists_pump { r with controller := r.controller.step.value }
  obtain ⟨os, -, hs⟩ := r.controller.exists_value_step
  rw [value_step, hp, hs]
  exact ⟨_, _, _, rfl⟩

theorem unfinished_after (h : r.controller.Unfinished) (b : Beat) :
    (r.after b).controller.Unfinished := by
  cases b with
  | move d => exact h
  | slice =>
    obtain ⟨hall, hp⟩ := exists_pump { r with controller := r.controller.step.value }
    rw [after, value_step, hp]
    exact h.step
  | receive bytes =>
    obtain ⟨hall, hp⟩ := exists_pump
      { r with controller := (Controller.receiveAll bytes r.controller).value }
    change (pump _).2.controller.Unfinished
    rw [hp]
    exact h.receiveAll bytes
  | reset => exact .of_ready rfl

theorem unfinished_run (h : r.controller.Unfinished) (beats : List Beat) :
    (r.run beats).controller.Unfinished := by
  induction beats generalizing r with
  | nil => exact h
  | cons b beats ih => exact ih (unfinished_after h b)

/-- A line is ended only in a slice of time in which the selector is beyond the far side of the
range, seen in the direction in which the line was worked. Either the carriage still goes that way,
and the selector has left the range. Or the carriage has just turned back with the selector short of
the end: then it is the selector on the other side of the carriage that lies beyond. (Or the
carriage has proved in that slice another one than it was taken for.) -/
theorem line_ended (s : Setup) (model : Model) (beats : List Beat) :
    let r := (assemble s model).run beats
    let c := r.controller
    let c' := (r.after .slice).controller
    c.line.ready = true → c'.line.ready = false →
      ∃ d, c.line.worked = some d ∧ EndsLine d c c'.tracker := by
  intro r c c' hr hf
  have h₀ : (assemble s model).controller.Unfinished := by
    rw [assemble, raiseLevels_eq]
    exact .of_ready rfl
  have h : c.Unfinished := unfinished_run h₀ beats
  obtain ⟨register, outbox, hall, hs⟩ := r.exists_step
  have hc' : c' = { c.worked with register, outbox, hall } := hs
  rw [hc'] at hf ⊢
  exact h.endsLine hr hf

/-- A lace carriage that comes from the left to knit eleven needles. -/
def laceSetup : Setup :=
  ⟨.kh910, .lace, .regular, .left, 0, 10, by decide, by decide, by decide, by decide⟩

/-- The controller is told its machine, the range and a line that selects every other needle; the
carriage goes right for some encoder steps, and then makes one more step. -/
def laceBeats (n : Nat) (d : Direction) : List Beat :=
  .receive (Wire.frame (Message.reqInit .kh910)) ::
    .receive (Wire.frame (Message.reqStart 0 10 0)) ::
    .receive (Wire.frame (Message.cnfLine 0 0 0 (LineBitmap.ofCells #[.selected, .idle] 0 10))) ::
    (List.replicate n [.move .right, .slice]).flatten ++ [.move d]

def laceRig (n : Nat) (d : Direction) : Rig := (assemble laceSetup .kh910).run (laceBeats n d)

set_option maxRecDepth 10000 in
theorem line_ended_lace :
    (laceRig 171 .right).controller.line.ready = true ∧
      ((laceRig 171 .right).after .slice).controller.line.ready = false ∧
      ∃ d, (laceRig 171 .right).controller.line.worked = some d ∧
        EndsLine d (laceRig 171 .right).controller
          ((laceRig 171 .right).after .slice).controller.tracker := by
  have hr : (laceRig 171 .right).controller.line.ready = true := by decide +kernel
  have hf : ((laceRig 171 .right).after .slice).controller.line.ready = false := by
    decide +kernel
  unfold laceRig at hr hf ⊢
  exact ⟨hr, hf, line_ended laceSetup .kh910 (laceBeats 171 .right) hr hf⟩

set_option maxRecDepth 10000 in
/-- Turned back over needle 2, the carriage ends the line that it has worked to the right: by now it
goes left, the selector was short of the end, and the next needle to be selected is left idle. -/
theorem line_cut_short :
    let c := (laceRig 136 .left).controller
    let r' := (laceRig 136 .left).after .slice
    c.line.ready = true ∧ c.line.worked = some .right ∧ r'.controller.line.ready = false ∧
      r'.controller.tracker.direction = some .left ∧
      c.leftRange (r'.controller.tracker.selected .lace .right) .right = false ∧
      c.line.bitmap.selects 4 = true ∧ r'.mechanism.needles[4]? = some .idle := by
  decide +kernel

end KnitBench.Rig
