import KnitBench.Bench.Run
import KnitBench.Proofs.Controller.Skipping

/-! In a step of a bench with the reference controller it is the slice of time that notes a skipped
quarter, and no other part of the step. -/

namespace KnitBench

open Logged

namespace Trial

variable (t : Trial)

theorem noSkip_finish (v : Verdict) : (t.finish v).NoSkip := by
  simp [finish]

theorem noSkip_answerDue (q : List (Nat × UInt8)) (t : Trial) : (answerDue q t).NoSkip := by
  induction q generalizing t with
  | nil => exact noSkip_pure _
  | cons request rest ih =>
    obtain ⟨delay, line⟩ := request
    cases delay with
    | zero => exact (noSkip_bind _ _).mpr ⟨noSkip_noteTrial _, ih _⟩
    | succ delay => exact noSkip_pure _

theorem noSkip_turn (m : Mechanism) : (t.turn m).NoSkip := by
  unfold turn
  refine noSkip_ite ?_ (noSkip_pure _)
  refine (noSkip_bind _ _).mpr ⟨noSkip_noteTrial _, noSkip_ite ?_ (noSkip_pure _)⟩
  exact (noSkip_bind _ _).mpr ⟨noSkip_finish _ _, noSkip_pure _⟩

theorem noSkip_tick (m : Mechanism) : (t.tick m).NoSkip := by
  unfold tick
  split
  · exact noSkip_pure _
  · simp
  · exact noSkip_pure _
  · exact (noSkip_bind _ _).mpr ⟨noSkip_answerDue _ _, noSkip_turn _ _⟩

theorem noSkip_startKnitting : t.startKnitting.NoSkip := by
  simp [startKnitting]

theorem noSkip_hear (message : List UInt8) : (t.hear message).NoSkip := by
  unfold hear
  split
  · exact noSkip_pure _
  · split
    · exact noSkip_pure _
    · exact noSkip_pure _
    · exact noSkip_pure _
    · split
      · exact noSkip_pure _
      · simp [noSkip_startKnitting]
    · exact noSkip_pure _
    · exact noSkip_pure _
    · exact noSkip_pure _
    · exact noSkip_pure _

theorem noSkip_checkPass (needles : Array Needle) : (t.checkPass needles).NoSkip := by
  unfold checkPass
  split
  · exact noSkip_pure _
  · simp

theorem noSkip_afterMove (m : Mechanism) : (t.afterMove m).NoSkip := by
  unfold afterMove
  refine noSkip_ite ((noSkip_bind _ _).mpr ⟨noSkip_checkPass _ _, ?_⟩) (noSkip_pure _)
  dsimp only
  split
  · exact (noSkip_bind _ _).mpr ⟨noSkip_finish _ _, noSkip_pure _⟩
  · exact noSkip_pure _

end Trial

namespace Bench

variable (b : Bench ReferenceController)

/-! ### The tick -/

theorem noSkip_obeyNext : b.obeyNext.NoSkip := by
  unfold obeyNext
  split
  · unfold obey
    split
    · exact noSkip_pure _
    · exact noSkip_pure _
    · refine (noSkip_bind _ _).mpr ⟨noSkip_noteBench _, (noSkip_bind _ _).mpr ⟨?_, noSkip_pure _⟩⟩
      exact ReferenceController.noSkip_reset _
    · simp
  · exact noSkip_pure _

theorem noSkip_tickTrial : b.tickTrial.NoSkip := by
  unfold tickTrial
  split
  · exact noSkip_pure _
  · refine (noSkip_bind _ _).mpr ⟨Trial.noSkip_tick _ _, ?_⟩
    dsimp only
    split
    · exact noSkip_pure _
    · exact (noSkip_bind _ _).mpr ⟨Trial.noSkip_afterMove _ _, noSkip_pure _⟩

theorem noSkip_refresh : b.refresh.NoSkip := by
  unfold refresh
  split <;> simp

theorem noSkip_tickIfDue : b.tickIfDue.NoSkip := by
  refine noSkip_ite ?_ (noSkip_pure _)
  rw [tick, noSkip_bind, noSkip_bind]
  exact ⟨noSkip_obeyNext _, noSkip_tickTrial _, noSkip_refresh _⟩

/-! ### The exchange -/

theorem noSkip_record (heading : Heading) (message : List UInt8) :
    (b.record heading message).NoSkip := by
  unfold record
  split <;> simp

theorem noSkip_consult (message : List UInt8) : (b.consult message).NoSkip := by
  unfold consult
  split
  · exact noSkip_pure _
  · refine (noSkip_bind _ _).mpr ⟨Trial.noSkip_hear _ _, ?_⟩
    dsimp only
    split <;> exact noSkip_pure _

theorem noSkip_passOn (o : Output) : (b.passOn o).NoSkip := by
  cases o with
  | solenoids | beeper | lamp => exact noSkip_pure _
  | convert channel =>
    refine noSkip_ite (noSkip_pure _) (noSkip_ite (noSkip_pure _) ?_)
    simp
  | serial byte =>
    unfold passOn
    dsimp only
    split
    · exact noSkip_pure _
    · exact (noSkip_bind _ _).mpr ⟨noSkip_record _ _ _, noSkip_consult _ _⟩

theorem noSkip_passAllOn (os : List Output) (b : Bench ReferenceController) :
    (passAllOn os b).NoSkip := by
  induction os generalizing b with
  | nil => exact noSkip_pure _
  | cons o os ih =>
    refine (noSkip_bind _ _).mpr ⟨noSkip_passOn _ _, ?_⟩
    dsimp only
    split
    · exact ih _
    · exact noSkip_pure _

theorem noSkip_collect : b.collect.NoSkip := noSkip_passAllOn _ _

theorem noSkip_sendAll (messages : List (List UInt8)) (b : Bench ReferenceController) :
    (sendAll messages b).NoSkip := by
  induction messages generalizing b with
  | nil => exact noSkip_pure _
  | cons message messages ih =>
    refine (noSkip_bind _ _).mpr ⟨ReferenceController.noSkip_receiveAll _ _, ?_⟩
    exact (noSkip_bind _ _).mpr ⟨noSkip_record _ _ _, ih _⟩

theorem noSkip_sendOutgoing : b.sendOutgoing.NoSkip := by
  unfold sendOutgoing
  split
  · exact noSkip_pure _
  · exact noSkip_sendAll _ _

/-! ### The step -/

theorem noSkip_step_of_verdict {v : Trial.Verdict} (hv : b.verdict = some v) : b.step.NoSkip := by
  rw [step, hv]
  exact noSkip_pure _

/-- A step notes a skipped quarter when the slice of time after the tick does. -/
theorem noSkip_step (hv : b.verdict = none) :
    b.step.NoSkip ↔ b.tickIfDue.value.controller.step.NoSkip := by
  rw [step, hv, noSkip_bind, and_iff_right b.noSkip_tickIfDue, noSkip_bind]
  have hslice : (Controller.step b.tickIfDue.value.controller).NoSkip ↔
      b.tickIfDue.value.controller.step.NoSkip := noSkip_map _ _
  rw [hslice]
  refine and_iff_left ((noSkip_bind _ _).mpr ⟨noSkip_collect _, ?_⟩)
  split
  split
  · exact noSkip_pure _
  · refine (noSkip_bind _ _).mpr ⟨noSkip_sendOutgoing _, ?_⟩
    split
    · exact noSkip_pure _
    · refine noSkip_ite ?_ (noSkip_pure _)
      simp

end Bench

end KnitBench
