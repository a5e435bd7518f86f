import KnitBench.Proofs.Bench.Exchange

/-! Schedules of a bench with the reference controller: cues that are queued at any time, and steps.
And what a tick may do to mechanism and controller. -/

namespace KnitBench.Bench

open ReferenceController

variable {b : Bench ReferenceController}

/-- What may happen to a bench. -/
inductive Input
  /-- A cue is queued, if there is room. -/
  | cue (c : Cue)
  | step

/-- The bench after an input. -/
def after (b : Bench ReferenceController) : Input → Bench ReferenceController
  | .cue c => (b.push c).toOption.getD b
  | .step => b.step.value.2

/-- The bench after several inputs. -/
def play (b : Bench ReferenceController) (inputs : List Input) : Bench ReferenceController :=
  inputs.foldl after b

/-- Queueing a cue changes the queue alone. -/
theorem exists_after_cue (b : Bench ReferenceController) (c : Cue) :
    ∃ queue, b.after (.cue c) = { b with queue } ∧
      ∀ cue ∈ queue.cues, cue = c ∨ cue ∈ b.queue.cues := by
  have ha : b.after (.cue c) = (b.push c).toOption.getD b := rfl
  rw [ha, push]
  cases hp : b.queue.push c with
  | error e => exact ⟨b.queue, rfl, fun cue h => Or.inr h⟩
  | ok queue =>
    refine ⟨queue, rfl, fun cue h => ?_⟩
    rw [CueQueue.cues_push hp, List.mem_append, List.mem_singleton] at h
    exact h.symm

/-- What a cue may do to mechanism and controller. -/
inductive Cued (m : Mechanism) (c : ReferenceController) (resets : Prop) :
    Mechanism → ReferenceController → Prop
  | rest : Cued m c resets m c
  | move (d : Direction) : Cued m c resets (m.move d) (c.seeing (m.move d).levels)
  | reset (h : resets) : Cued m c resets m c.reset.value

theorem CueQueue.pop_none {q : CueQueue} (h : q.pop = none) : q.cues = [] := by
  unfold CueQueue.pop at h
  split at h
  · assumption
  · cases h

theorem CueQueue.pop_some {q q' : CueQueue} {cue : Cue} (h : q.pop = some (cue, q')) :
    q.cues = cue :: q'.cues := by
  unfold CueQueue.pop at h
  split at h
  · cases h
  · rename_i c rest hq
    cases h
    exact hq

theorem Cued.imp {m m' : Mechanism} {c c' : ReferenceController} {resets resets' : Prop}
    (h : Cued m c resets m' c') (hr : resets → resets') : Cued m c resets' m' c' := by
  cases h with
  | rest => exact .rest
  | move d => exact .move d
  | reset h => exact .reset (hr h)

/-- Obeying the oldest cue of the queue. -/
theorem exists_value_obeyNext_oldest (b : Bench ReferenceController) :
    ∃ mechanism controller queue tracing,
      b.obeyNext.value = { b with mechanism, controller, queue, tracing } ∧
      (∀ cue ∈ queue.cues, cue ∈ b.queue.cues) ∧
      Cued b.mechanism b.controller (b.queue.cues.head?.map Cue.action = some .reset) mechanism
        controller := by
  unfold obeyNext
  cases hp : b.queue.pop with
  | none => exact ⟨_, _, _, b.tracing, rfl, fun _ h => h, .rest⟩
  | some popped =>
    obtain ⟨cue, queue⟩ := popped
    have hq := CueQueue.pop_some hp
    have hsub (c : Cue) (h : c ∈ queue.cues) : c ∈ b.queue.cues := by
      rw [hq]
      exact List.mem_cons_of_mem _ h
    simp only [obey]
    cases ha : cue.action with
    | moveLeft =>
      refine ⟨b.mechanism.move .left, _, queue, b.tracing, ?_, hsub, .move .left⟩
      simp only [Logged.value_pure, move, raiseLevels_eq]
    | moveRight =>
      refine ⟨b.mechanism.move .right, _, queue, b.tracing, ?_, hsub, .move .right⟩
      simp only [Logged.value_pure, move, raiseLevels_eq]
    | reset =>
      refine ⟨b.mechanism, _, queue, b.tracing, rfl, hsub, .reset ?_⟩
      rw [hq, List.head?_cons, Option.map_some, ha]
    | toggleTrace => exact ⟨b.mechanism, _, queue, !b.tracing, rfl, hsub, .rest⟩

/-- Obeying a cue of the queue. -/
theorem exists_value_obeyNext (b : Bench ReferenceController) :
    ∃ mechanism controller queue tracing,
      b.obeyNext.value = { b with mechanism, controller, queue, tracing } ∧
      (∀ cue ∈ queue.cues, cue ∈ b.queue.cues) ∧
      Cued b.mechanism b.controller (∃ cue ∈ b.queue.cues, cue.action = .reset) mechanism
        controller := by
  obtain ⟨mechanism, controller, queue, tracing, hv, hsub, hc⟩ := b.exists_value_obeyNext_oldest
  refine ⟨mechanism, controller, queue, tracing, hv, hsub, hc.imp fun h => ?_⟩
  obtain ⟨cue, hcue, ha⟩ := Option.map_eq_some_iff.mp h
  exact ⟨cue, List.mem_of_mem_head? hcue, ha⟩

/-- Obeying a reset. -/
theorem exists_value_obeyNext_reset (h : b.queue.cues.head?.map Cue.action = some .reset) :
    ∃ queue, b.obeyNext.value = { b with queue, controller := b.controller.reset.value } := by
  unfold obeyNext
  cases hp : b.queue.pop with
  | none =>
    rw [CueQueue.pop_none hp] at h
    cases h
  | some popped =>
    obtain ⟨cue, queue⟩ := popped
    rw [CueQueue.pop_some hp, List.head?_cons, Option.map_some] at h
    simp only [obey, Option.some.inj h]
    exact ⟨queue, rfl⟩

/-- Showing the state changes none of it. -/
theorem exists_value_refresh (b : Bench ReferenceController) :
    ∃ panel mechanism, b.refresh.value = { b with mechanism, panel } ∧
      (mechanism = b.mechanism ∨ mechanism = b.mechanism.refreshed) := by
  unfold refresh
  split
  · exact ⟨_, _, rfl, Or.inr rfl⟩
  · exact ⟨b.panel, b.mechanism, rfl, Or.inl rfl⟩

theorem value_tickIfDue (h : tickInterval < b.now - min b.lastTick b.now) :
    b.tickIfDue.value = ({ b with lastTick := b.now } : Bench ReferenceController).tick.value := by
  rw [tickIfDue, if_pos h]

theorem value_tickIfDue_of_not (h : ¬ tickInterval < b.now - min b.lastTick b.now) :
    b.tickIfDue.value = { b with lastTick := min b.lastTick b.now } := by
  rw [tickIfDue, if_neg h]
  rfl

/-- The bench goes on as it is, or it ticks. -/
theorem value_tickIfDue_cases (b : Bench ReferenceController) :
    (∃ lastTick, b.tickIfDue.value = { b with lastTick }) ∨
      ∃ lastTick, b.tickIfDue.value =
        ({ b with lastTick } : Bench ReferenceController).tick.value := by
  by_cases h : tickInterval < b.now - min b.lastTick b.now
  · exact Or.inr ⟨_, value_tickIfDue h⟩
  · exact Or.inl ⟨_, value_tickIfDue_of_not h⟩

theorem value_tick (b : Bench ReferenceController) :
    b.tick.value =
      ({ b with ticks := b.ticks + 1 } :
        Bench ReferenceController).obeyNext.value.tickTrial.value.refresh.value := rfl

theorem value_tickTrial_none (h : b.trial = none) : b.tickTrial.value = b := by
  unfold tickTrial
  rw [h]
  rfl

/-- A tick of the trial without a move. -/
theorem value_tickTrial_rest {t t' : Trial} (ht : b.trial = some t)
    (hp : (t.tick b.mechanism).value = (none, t')) :
    b.tickTrial.value = { b with trial := some t' } := by
  unfold tickTrial
  rw [ht]
  simp only [Logged.value_bind, hp]
  rfl

/-- A tick of the trial with the move that it asks for. -/
theorem value_tickTrial_move {t t' : Trial} {d : Direction} (ht : b.trial = some t)
    (hp : (t.tick b.mechanism).value = (some d, t')) :
    b.tickTrial.value = { b with
      mechanism := b.mechanism.move d
      controller := b.controller.seeing (b.mechanism.move d).levels
      trial := some (t'.afterMove (b.mechanism.move d)).value.2
      verdict := (t'.afterMove (b.mechanism.move d)).value.1.or b.verdict } := by
  unfold tickTrial
  rw [ht]
  simp only [Logged.value_bind, hp]
  simp only [move, raiseLevels_eq]
  rfl

end KnitBench.Bench
