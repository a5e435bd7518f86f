import KnitBench.Proofs.Controller.Answers
import KnitBench.Proofs.Controller.Detection

/-! When the reference controller notes that the encoder has skipped a quarter: in a slice of time
that finds the encoder two quarters away from where it was seen last, and at no other time. -/

namespace KnitBench

/-- On the way to a value no skipped quarter is noted. -/
def Logged.NoSkip {α : Type} (x : Logged α) : Prop :=
  Notice.controller .quarterSkipped ∉ x.notices

namespace Logged

variable {α β : Type}

@[simp] theorem noSkip_pure (a : α) : (pure a : Logged α).NoSkip := List.not_mem_nil

@[simp] theorem noSkip_bind (x : Logged α) (f : α → Logged β) :
    (x >>= f).NoSkip ↔ x.NoSkip ∧ (f x.value).NoSkip := by
  rw [NoSkip, notices_bind, List.mem_append, not_or]
  rfl

@[simp] theorem noSkip_map (f : α → β) (x : Logged α) : (f <$> x).NoSkip ↔ x.NoSkip := by
  have hn : (f <$> x).notices = x.notices := List.append_nil _
  rw [NoSkip, NoSkip, hn]

theorem noSkip_ite {p : Prop} [Decidable p] {x y : Logged α} (hx : x.NoSkip) (hy : y.NoSkip) :
    (if p then x else y).NoSkip := by
  split
  · exact hx
  · exact hy

@[simp] theorem noSkip_noteTrial (n : TrialNotice) : (noteTrial n).NoSkip := by
  intro h
  cases List.mem_singleton.mp h

@[simp] theorem noSkip_noteBench (n : BenchNotice) : (noteBench n).NoSkip := by
  intro h
  cases List.mem_singleton.mp h

@[simp] theorem noSkip_noteController (n : ControllerNotice) :
    (noteController n).NoSkip ↔ n ≠ .quarterSkipped := by
  constructor
  · rintro h rfl
    exact h List.mem_cons_self
  · intro hn h
    cases List.mem_singleton.mp h
    exact hn rfl

end Logged

namespace ReferenceController

open Logged

namespace Tracker

theorem noSkip_detect (m : Model) (c : Carriage) (sensor : Side) (t : Tracker) :
    (t.detect m c sensor).NoSkip := by
  simp [detect]

theorem noSkip_meet (m : Model) (sensor : Side) (pole : Pole) (t : Tracker) :
    (t.meet m sensor pole).NoSkip := by
  unfold meet
  split
  · exact noSkip_detect _ _ _ _
  · split
    · exact noSkip_pure _
    · simp [noSkip_detect]
  · split
    · split
      · exact noSkip_detect _ _ _ _
      · exact noSkip_pure _
    · exact noSkip_pure _
  · exact noSkip_pure _

theorem noSkip_readSensor (m : Model) (sensor : Side) (level : UInt16) (t : Tracker) :
    (t.readSensor m sensor level).NoSkip := by
  unfold readSensor
  cases Pole.ofLevel m sensor level with
  | none => exact noSkip_pure _
  | some pole => exact noSkip_meet _ _ _ _

theorem noSkip_sense (m : Model) (hall : HallReading) (t : Tracker) :
    (t.sense m hall).NoSkip := by
  simp only [sense, noSkip_bind, noSkip_readSensor, and_self]

theorem noSkip_inferBelt (m : Model) (level : Bool) (t : Tracker) :
    (t.inferBelt m level).NoSkip := by
  unfold inferBelt
  split
  · split
    · exact noSkip_pure _
    · dsimp only
      split <;> simp
  · exact noSkip_pure _

/-- A quarter is skipped when the encoder shows the one two steps away. -/
theorem noSkip_decode (l : Levels) (t : Tracker) :
    (t.decode l).NoSkip ↔ Levels.quarter l.v1 l.v2 - t.quarter ≠ 2 := by
  unfold decode
  dsimp only
  split <;> rename_i h <;> rw [h] <;> simp

/-- The sensors have no part in it. -/
theorem noSkip_track (m : Model) (l : Levels) (hall : HallReading) (t : Tracker) :
    (t.track m l hall).NoSkip ↔ Levels.quarter l.v1 l.v2 - t.quarter ≠ 2 := by
  rw [track, noSkip_bind, noSkip_bind, noSkip_decode, (encoder_sense m hall t).1,
    and_iff_right (noSkip_sense m hall t), and_iff_left (noSkip_inferBelt m l.belt _)]

end Tracker

variable (c : ReferenceController)

theorem noSkip_enter (mode : Mode) : (c.enter mode).NoSkip := by
  unfold enter
  split <;> simp

theorem noSkip_finishLine : c.finishLine.NoSkip := by
  unfold finishLine
  dsimp only
  split <;> simp [noSkip_enter]

theorem noSkip_workLine : c.workLine.NoSkip := by
  unfold workLine
  split
  · split
    · exact noSkip_ite (noSkip_finishLine _) (noSkip_pure _)
    · exact noSkip_pure _
  · exact noSkip_pure _

/-- A slice of time tells a skipped quarter from what the encoder shows now and has shown before. -/
theorem noSkip_step :
    c.step.NoSkip ↔ Levels.quarter c.levels.v1 c.levels.v2 - c.tracker.quarter ≠ 2 := by
  rw [step, noSkip_bind, noSkip_bind, Tracker.noSkip_track,
    and_iff_left ⟨noSkip_workLine _, noSkip_pure _⟩]

/-- Work on a line has no part in what the encoder tells. -/
theorem encoder_worked : c.worked.levels = c.levels ∧ c.worked.tracker = c.tracked.tracker := by
  rcases c.tracked.value_workLine_cases with ⟨worked, hw⟩ | ⟨-, -, worked, hw⟩
  · rw [ReferenceController.worked, hw]
    exact ⟨rfl, rfl⟩
  · rw [ReferenceController.worked, hw]
    cases hl : (c.tracked.noting worked).line.last with
    | false =>
      rw [value_finishLine hl]
      exact ⟨rfl, rfl⟩
    | true =>
      rw [value_finishLine_last hl]
      obtain ⟨lamp0, outbox, he⟩ := exists_value_enter _ .ready
      rw [he]
      exact ⟨rfl, rfl⟩

/-- After a slice of time the controller has seen what the encoder shows. -/
theorem encoder_step :
    c.step.value.levels = c.levels ∧
      c.step.value.tracker.quarter = Levels.quarter c.levels.v1 c.levels.v2 := by
  obtain ⟨os, -, hs⟩ := c.exists_value_step
  obtain ⟨hlevels, htracker⟩ := c.encoder_worked
  rw [hs]
  exact ⟨hlevels, (congrArg Tracker.quarter htracker).trans (Tracker.quarter_track ..)⟩

theorem noSkip_reset : c.reset.NoSkip := by
  simp [reset]

/-! ### Messages -/

theorem noSkip_onInit (payload : List UInt8) : (c.onInit payload).NoSkip := by
  unfold onInit
  split
  · exact noSkip_pure _
  · simp [noSkip_enter]

theorem noSkip_onStart (payload : List UInt8) : (c.onStart payload).NoSkip := by
  unfold onStart
  split
  · dsimp only
    split
    · simp [noSkip_enter]
    · exact noSkip_pure _
  · exact noSkip_pure _

theorem noSkip_onLine (payload : List UInt8) : (c.onLine payload).NoSkip := by
  unfold onLine
  split
  · split
    · split <;> simp
    · simp
  · simp

theorem noSkip_onTestCommand (code : Message.Code) (payload : List UInt8) :
    (c.onTestCommand code payload).NoSkip := by
  unfold onTestCommand
  split
  · exact noSkip_pure _
  · exact noSkip_pure _
  · split <;> exact noSkip_pure _
  · exact noSkip_pure _
  · exact noSkip_pure _
  · exact noSkip_enter _ _
  · exact noSkip_pure _

theorem noSkip_onMessage (message : List UInt8) : (c.onMessage message).NoSkip := by
  unfold onMessage
  split
  · simp
  · split
    · exact noSkip_onInit _ _
    · exact noSkip_onStart _ _
    · exact noSkip_onLine _ _
    · exact noSkip_pure _
    · exact noSkip_enter _ _
    · split
      · exact noSkip_onTestCommand _ _ _
      · simp
    · simp

theorem noSkip_receiveAll (bytes : List UInt8) : (Controller.receiveAll bytes c).NoSkip := by
  induction bytes generalizing c with
  | nil => exact noSkip_pure _
  | cons b bytes ih =>
    have hb : (c.receive b).NoSkip := by
      simp only [receive]
      cases (c.receiver.push b).1 with
      | none => exact noSkip_pure _
      | some message => exact noSkip_onMessage _ _
    exact (noSkip_bind _ _).mpr ⟨hb, ih _⟩

end ReferenceController

end KnitBench
