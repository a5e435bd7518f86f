import KnitBench.Proofs.Pass
import KnitBench.Rig

/-! What passes between the two sides of a rig, and what holds of every rig that can be reached. -/

namespace KnitBench.Rig

open ReferenceController

variable {r : Rig} {os : List Output} {ms : List (List UInt8)}

/-- The message in what has been seen. -/
def Sight.message? : Sight → Option (List UInt8)
  | .message m => some m
  | _ => none

/-- The messages among what has been seen. -/
def messages (sights : List Sight) : List (List UInt8) := sights.filterMap Sight.message?

theorem messages_append (a b : List Sight) : messages (a ++ b) = messages a ++ messages b :=
  List.filterMap_append

theorem passAllOn_cons (o : Output) (os : List Output) (r : Rig) :
    passAllOn (o :: os) r =
      ((r.passOn o).1.toList ++ (passAllOn os (r.passOn o).2).1,
        (passAllOn os (r.passOn o).2).2) := rfl

/-- Passing outputs on comes to this: the last register is latched, what was measured is known, and
the serial bytes have gone to the receiver. -/
theorem passAllOn_snd (h : ∀ o ∈ os, o.Connected) :
    (passAllOn os r).2 = {
      mechanism := r.mechanism.latch (os.foldl Output.latch r.mechanism.register)
      controller := { r.controller with
        hall := os.foldl (Output.sample r.mechanism.hall) r.controller.hall }
      receiver := (r.receiver.feed (os.filterMap Output.byte?)).2 } := by
  induction os generalizing r with
  | nil => rfl
  | cons o os ih =>
    rw [passAllOn_cons]
    dsimp only
    rw [ih fun o ho => h o (by simp [ho])]
    cases o with
    | convert channel =>
      rcases h (.convert channel) (by simp) channel rfl with rfl | rfl <;> rfl
    | solenoids | serial | beeper | lamp => rfl

/-- The messages seen are those of the frames passed on. -/
theorem messages_passAllOn (os : List Output) (r : Rig) :
    messages (passAllOn os r).1 = (r.receiver.feed (os.filterMap Output.byte?)).1 := by
  induction os generalizing r with
  | nil => rfl
  | cons o os ih =>
    rw [passAllOn_cons]
    dsimp only
    rw [messages_append, ih]
    cases o with
    | serial b =>
      change _ = (r.receiver.feed (b :: os.filterMap Output.byte?)).1
      rw [Wire.Framer.feed_cons]
      simp only [passOn]
      cases (r.receiver.push b).1 <;> rfl
    | solenoids | convert | beeper | lamp => rfl

theorem value_step (r : Rig) :
    r.step.value = ({ r with controller := r.controller.step.value } : Rig).pump := rfl

/-- What a slice of time leaves. -/
theorem step_snd (ha : Attached r.mechanism r.controller) (hr : r.receiver = .empty) :
    r.step.value.2 = {
      mechanism := r.mechanism.latch r.controller.worked.wantedRegister
      controller := r.controller.sliced r.mechanism.hall } := by
  obtain ⟨ms, hq⟩ := ha.queues
  obtain ⟨mode, line, lamp0, lamp1, outbox, ms', -, hq'⟩ := exists_worked hq
  rw [value_step, pump]
  refine (passAllOn_snd fun o ho => connected_step hq ho).trans ?_
  dsimp only [Controller.takeOutputs]
  rw [foldl_latch_step hq ha.register_eq, foldl_sample_step hq, filterMap_byte_step hq', hr,
    Wire.Framer.feed_frames_snd, ← sliced_eq]

/-- The messages seen in a slice of time. -/
theorem messages_step (hq : r.controller.worked.Queues ms) (hf : ∀ m ∈ ms, Wire.Fits m)
    (hr : r.receiver = .empty) : messages r.step.value.1 = ms := by
  rw [value_step, pump, messages_passAllOn]
  dsimp only [Controller.takeOutputs]
  rw [filterMap_byte_step hq, hr, Wire.Framer.feed_frames hf]

/-- Passing on messages that wait changes nothing else. -/
theorem pump_snd (hq : r.controller.Queues ms) (hr : r.receiver = .empty) :
    r.pump.2 = { r with controller := { r.controller with outbox := #[] } } := by
  rw [pump]
  refine (passAllOn_snd fun o ho => hq.connected ho).trans ?_
  dsimp only [Controller.takeOutputs]
  rw [Carries.foldl_latch hq, Carries.foldl_sample hq, hq.bytes_eq, hr,
    Wire.Framer.feed_frames_snd, ← hr]
  rfl

/-- The rig when the mechanism has changed and the controller has not worked since. -/
def facing (r : Rig) (m : Mechanism) : Rig :=
  { r with mechanism := m, controller := r.controller.seeing m.levels }

theorem move_eq (r : Rig) (d : Direction) (n : Nat) :
    r.move d n = steps n (r.facing (r.mechanism.move d)) := by
  unfold move facing
  dsimp only
  rw [raiseLevels_eq]

theorem value_steps_succ (n : Nat) (r : Rig) :
    (steps (n + 1) r).value =
      (r.step.value.1 ++ (steps n r.step.value.2).value.1, (steps n r.step.value.2).value.2) := rfl

/-- A rig between two of its moves: the controller is in step, and nothing is on its way. -/
structure Settled (r : Rig) : Prop where
  wired : Wired r.mechanism r.controller
  receiver_eq : r.receiver = .empty
  queues : r.controller.Queues []

namespace Settled

theorem assemble (s : Setup) (model : Model) : (Rig.assemble s model).Settled where
  wired := .initial s model
  receiver_eq := rfl
  queues := by
    rw [Rig.assemble, raiseLevels_eq]
    exact Carries.nil

theorem of_step (ha : Attached r.mechanism r.controller) (hr : r.receiver = .empty) :
    r.step.value.2.Settled := by
  rw [step_snd ha hr]
  exact ⟨ha.slice, rfl, queues_sliced ..⟩

theorem steps (h : r.Settled) (n : Nat) : (steps n r).value.2.Settled := by
  induction n generalizing r with
  | zero => exact h
  | succ n ih => exact ih (.of_step h.wired.toAttached h.receiver_eq)

/-- A move followed by at least one slice of time. -/
theorem move (h : r.Settled) (d : Direction) (n : Nat) : (r.move d (n + 1)).value.2.Settled := by
  rw [move_eq, value_steps_succ]
  exact (of_step (r := r.facing _) (h.wired.toAttached.move d) h.receiver_eq).steps n

/-- Bytes from outside do not come between mechanism and controller. -/
theorem wired_receiveAll {m : Mechanism} (bytes : List UInt8) {c : ReferenceController}
    (h : Wired m c) : Wired m (Controller.receiveAll bytes c).value :=
  kept_receiveAll (fun _ _ h => ⟨⟨h.1.1, h.1.2, h.1.3, h.1.4⟩, h.2, h.3⟩)
    (fun c m h => h.answers (answers_onMessage c m)) h bytes

theorem receive (h : r.Settled) (bytes : List UInt8) : (r.receive bytes).value.2.Settled := by
  have hw := wired_receiveAll bytes h.wired
  obtain ⟨ms, hq⟩ := hw.queues
  have hp := pump_snd (r := { r with
    controller := (Controller.receiveAll bytes r.controller).value }) hq h.receiver_eq
  change (pump _).2.Settled
  rw [hp]
  exact ⟨⟨⟨hw.1.1, hw.1.2, hw.1.3, [], Carries.nil⟩, hw.2, hw.3⟩, h.receiver_eq, Carries.nil⟩

theorem reset (h : r.Settled) : r.reset.value.Settled :=
  ⟨h.wired.reset, h.receiver_eq, Carries.nil⟩

end Settled

end KnitBench.Rig
