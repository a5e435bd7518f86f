import KnitBench.Proofs.Bench.Tick

/-! A bench without a trial. However the operator moves the carriage to and fro, what the controller
believes of it is right. -/

namespace KnitBench.Bench

open ReferenceController

variable {b : Bench ReferenceController} {s : Setup} {m m' : Mechanism} {c c' : ReferenceController}

/-- The carriages that are told wherever they meet a sensor, so that a reset does no harm. -/
def Resettable (s : Setup) : Prop := s.carriage = .knit ∨ s.carriage = .lace

/-- Mechanism and controller under observation: the controller waits, and believes nothing wrong of
the carriage. -/
structure Observes (s : Setup) (m : Mechanism) (c : ReferenceController) : Prop
    extends Wired m c where
  setup_eq : m.setup = s
  model_eq : c.model = s.model
  mode_eq : c.mode = .idle
  empty : c.Queues []
  sensed : c.hall = m.hall ∨ Resettable s
  located : Tracker.Located s False True m.quarters c.tracker

theorem Observes.refreshed (h : Observes s m c) : Observes s m.refreshed c :=
  ⟨h.toWired.refreshed, h.2, h.3, h.4, h.5, h.6, h.7⟩

theorem Observes.initial (s : Setup) :
    Observes s (.initial s)
      (Controller.raiseLevels (Mechanism.initial s).levels (powerOn s.model)) := by
  have hq : (Mechanism.initial s).quarters = 4 * s.initialPosition := by
    simp [Mechanism.quarters, Mechanism.initial]
  have hl : Tracker.Located s False True (Mechanism.initial s).quarters {} := by
    rw [hq]
    exact Tracker.located_initial s False
  have hw := Wired.initial s s.model
  rw [raiseLevels_eq] at hw ⊢
  exact ⟨hw, rfl, rfl, rfl, Carries.nil, Or.inl rfl, hl⟩

/-- A reset forgets the carriage. -/
theorem Observes.reset (h : Observes s m c) (hr : Resettable s) : Observes s m c.reset.value where
  toWired := h.toWired.reset
  setup_eq := h.setup_eq
  model_eq := h.model_eq
  mode_eq := rfl
  empty := Carries.nil
  sensed := Or.inr hr
  located := .unseen rfl rfl (Or.inl ⟨not_false, hr⟩)

/-- What the sensors have told is taken in without mistake. -/
theorem Observes.located_sense (h : Observes s m c) :
    Tracker.Located s False False m.quarters (c.tracker.sense s.model c.hall).value := by
  rcases h.hall_eq with hh | ⟨hi, hc, hs⟩
  · rw [hh, h.aligned.hall_eq, h.setup_eq, m.position_eq]
    exact Tracker.located_sense h.located
  · rcases h.sensed with hh | hr
    · rw [hh, h.aligned.hall_eq, h.setup_eq, m.position_eq]
      exact Tracker.located_sense h.located
    · rw [hi, Tracker.value_sense_idle, Tracker.forgetSouth_of_none hs]
      exact .unseen hc hs (Or.inl ⟨not_false, hr⟩)

/-- A controller that waits puts out no message. -/
theorem queues_worked_of_mode_ne (hq : c.Queues []) (hm : c.mode ≠ .knitting) :
    c.worked.Queues [] ∧ c.worked.mode = c.mode := by
  rw [worked_of_mode_ne hm]
  exact ⟨hq, rfl⟩

/-- A slice of time after a move, or after none. -/
theorem Observes.slice (h : Observes s m c) (ha : m'.Aligned) (hs : m'.setup = m.setup)
    (hr : m'.register = m.register)
    (hy : m'.quarters = m.quarters ∨ m'.quarters = m.quarters + 1 ∨ m'.quarters = m.quarters - 1) :
    Observes s (m'.latch (c.seeing m'.levels).worked.wantedRegister)
      ((c.seeing m'.levels).sliced m'.hall) := by
  have hat : Attached m' (c.seeing m'.levels) :=
    ⟨ha, rfl, fun r hc => hr.trans (h.register_eq r hc), [], h.empty⟩
  have hq : (c.seeing m'.levels).Queues [] := h.empty
  have hm : (c.seeing m'.levels).mode ≠ .knitting := by
    change c.mode ≠ .knitting
    rw [h.mode_eq]
    decide
  have hb : m'.levels.belt = s.levelAt m'.quarters := by
    rw [← h.setup_eq, ← hs]
    exact Mechanism.belt_levels ha
  have hl := Tracker.located_track h.located_sense h.val_quarter m'.quarter_levels hb hy nofun
  refine ⟨hat.slice, hs.trans h.setup_eq, (model_sliced hq _).trans h.model_eq, ?_,
    queues_sliced .., Or.inl rfl, ?_⟩
  · exact (queues_worked_of_mode_ne hq hm).2.trans h.mode_eq
  · rw [tracker_sliced hq]
    change Tracker.Located s False True m'.quarters
      (c.tracker.track c.model m'.levels c.hall).value
    rw [h.model_eq]
    exact hl

/-- A slice of time after a cue has been obeyed and the display perhaps refreshed. -/
theorem Observes.slice_cued {resets : Prop} (h : Observes s m c) (hc : Cued m c resets m' c')
    (hr : resets → Resettable s) {m'' : Mechanism} (hm : m'' = m' ∨ m'' = m'.refreshed) :
    Observes s (m''.latch c'.worked.wantedRegister) (c'.sliced m''.hall) ∧
      Attached m'' c' ∧ c'.worked.Queues [] ∧
      (c.receiver = .empty → c'.receiver = .empty) := by
  have rest {c : ReferenceController} (h : Observes s m c) (hm : m'' = m ∨ m'' = m.refreshed) :
      Observes s (m''.latch c.worked.wantedRegister) (c.sliced m''.hall) ∧
        Attached m'' c ∧ c.worked.Queues [] := by
    have hidle : c.mode ≠ .knitting := by
      rw [h.mode_eq]
      decide
    have hq := (queues_worked_of_mode_ne h.empty hidle).1
    have ho (m'' : Mechanism) (h : Observes s m'' c) :
        Observes s (m''.latch c.worked.wantedRegister) (c.sliced m''.hall) := by
      have hs := h.slice h.aligned rfl rfl (Or.inl rfl)
      rwa [h.toAttached.seeing_self] at hs
    rcases hm with rfl | rfl
    · exact ⟨ho _ h, h.toAttached, hq⟩
    · exact ⟨ho _ h.refreshed, h.toAttached.refreshed, hq⟩
  cases hc with
  | rest =>
    obtain ⟨ho, ha, hq⟩ := rest h hm
    exact ⟨ho, ha, hq, id⟩
  | move d =>
    have ha := h.toAttached.move d
    have hidle : (c.seeing (m.move d).levels).mode ≠ .knitting := by
      change c.mode ≠ .knitting
      rw [h.mode_eq]
      decide
    have hq := (queues_worked_of_mode_ne (c := c.seeing (m.move d).levels) h.empty hidle).1
    have hy : (m.move d).quarters = m.quarters ∨ (m.move d).quarters = m.quarters + 1 ∨
        (m.move d).quarters = m.quarters - 1 := by
      rw [Mechanism.quarters_move h.aligned]
      have hadv := Mechanism.advanced_mem h.aligned d
      cases d <;> simp only [Direction.step] at hadv <;> omega
    have ho := h.slice ha.aligned rfl rfl hy
    rcases hm with rfl | rfl
    · exact ⟨ho, ha, hq, id⟩
    · exact ⟨ho.refreshed, ha.refreshed, hq, id⟩
  | reset hres =>
    obtain ⟨ho, ha, hq⟩ := rest (h.reset (hr hres)) hm
    exact ⟨ho, ha, hq, fun _ => rfl⟩

/-- What every schedule keeps of a bench without a trial. -/
structure Observed (s : Setup) (b : Bench ReferenceController) : Prop where
  trial_eq : b.trial = none
  verdict_eq : b.verdict = none
  receiver_eq : b.receiver = .empty
  controller_receiver_eq : b.controller.receiver = .empty
  resets : ∀ cue ∈ b.queue.cues, cue.action = .reset → Resettable s
  observes : Observes s b.mechanism b.controller

theorem Observed.initial (s : Setup) : Observed s (assemble s (powerOn s.model)) where
  trial_eq := rfl
  verdict_eq := rfl
  receiver_eq := rfl
  controller_receiver_eq := by
    rw [assemble, raiseLevels_eq]
    rfl
  resets := nofun
  observes := .initial s

/-- What the tick, if it is due, makes of a bench without a trial. -/
theorem exists_value_tickIfDue (ht : b.trial = none) :
    ∃ mechanism mechanism' controller queue tracing panel lastTick ticks,
      b.tickIfDue.value = { b with
        mechanism := mechanism'
        controller, queue, tracing, panel, lastTick, ticks } ∧
      (∀ cue ∈ queue.cues, cue ∈ b.queue.cues) ∧
      Cued b.mechanism b.controller (∃ cue ∈ b.queue.cues, cue.action = .reset) mechanism
        controller ∧
      (mechanism' = mechanism ∨ mechanism' = mechanism.refreshed) := by
  rcases b.value_tickIfDue_cases with ⟨lastTick, hv⟩ | ⟨lastTick, hv⟩
  · exact ⟨_, _, _, _, _, _, lastTick, _, hv, fun _ h => h, .rest, Or.inl rfl⟩
  · obtain ⟨mechanism, controller, queue, tracing, ho, hq, hc⟩ :=
      exists_value_obeyNext { b with lastTick, ticks := b.ticks + 1 }
    obtain ⟨panel, mechanism', hr, hm⟩ := exists_value_refresh { b with
      lastTick, ticks := b.ticks + 1, mechanism, controller, queue, tracing }
    refine ⟨mechanism, mechanism', controller, queue, tracing, panel, lastTick, b.ticks + 1, ?_,
      hq, hc, hm⟩
    rw [hv, value_tick, ho, value_tickTrial_none (b := { b with
      lastTick, ticks := b.ticks + 1, mechanism, controller, queue, tracing }) ht, hr]

/-- What a step makes of a bench without a trial: a cue may be obeyed, the display refreshed, and
then the controller has a slice of time. -/
theorem Observed.exists_after_step (h : Observed s b) :
    ∃ m' m'' c' queue tracing panel traffic lastTick ticks,
      b.after .step = { b with
        mechanism := m''.latch c'.worked.wantedRegister
        controller := c'.sliced m''.hall
        trial := none
        queue, tracing, panel, traffic, lastTick, ticks } ∧
      (∀ cue ∈ queue.cues, cue ∈ b.queue.cues) ∧
      Cued b.mechanism b.controller (∃ cue ∈ b.queue.cues, cue.action = .reset) m' c' ∧
      (m'' = m' ∨ m'' = m'.refreshed) := by
  obtain ⟨m', m'', c', queue, tracing, panel, lastTick, ticks, hb, hq, hc, hm⟩ :=
    exists_value_tickIfDue h.trial_eq
  have hres : (∃ cue ∈ b.queue.cues, cue.action = .reset) → Resettable s :=
    fun ⟨cue, hcue, ha⟩ => h.resets cue hcue ha
  obtain ⟨-, ha, hw, hrec⟩ := h.observes.slice_cued hc hres hm
  have hheard : heard b.trial [] = .ok none := by
    rw [heard_nil, h.trial_eq]
  obtain ⟨traffic, panel', hs⟩ := exists_value_step hb h.verdict_eq ha h.receiver_eq
    (hrec h.controller_receiver_eq) hw (by simp) hheard (by simp [outgoing])
  refine ⟨m', m'', c', queue, tracing, panel', traffic, lastTick, ticks, ?_, hq, hc, hm⟩
  rw [after, hs]
  rfl

theorem Observed.step (h : Observed s b) : Observed s (b.after .step) := by
  obtain ⟨m', m'', c', queue, tracing, panel, traffic, lastTick, ticks, hb, hq, hc, hm⟩ :=
    h.exists_after_step
  have hres : (∃ cue ∈ b.queue.cues, cue.action = .reset) → Resettable s :=
    fun ⟨cue, hcue, ha⟩ => h.resets cue hcue ha
  obtain ⟨ho, ha, -, hrec⟩ := h.observes.slice_cued hc hres hm
  obtain ⟨ms, hqc⟩ := ha.queues
  rw [hb]
  exact {
    trial_eq := rfl
    verdict_eq := h.verdict_eq
    receiver_eq := h.receiver_eq
    controller_receiver_eq := (receiver_sliced hqc _).trans (hrec h.controller_receiver_eq)
    resets := fun cue hcue => h.resets cue (hq cue hcue)
    observes := ho }

theorem Observed.cue (h : Observed s b) {cue : Cue} (hr : cue.action = .reset → Resettable s) :
    Observed s (b.after (.cue cue)) := by
  obtain ⟨queue, hb, hq⟩ := b.exists_after_cue cue
  rw [hb]
  refine ⟨h.trial_eq, h.verdict_eq, h.receiver_eq, h.controller_receiver_eq, ?_, h.observes⟩
  intro c hc ha
  rcases hq c hc with rfl | hold
  · exact hr ha
  · exact h.resets c hold ha

theorem Observed.play (h : Observed s b) (inputs : List Input)
    (hr : ∀ cue, .cue cue ∈ inputs → cue.action = .reset → Resettable s) :
    Observed s (b.play inputs) := by
  induction inputs generalizing b with
  | nil => exact h
  | cons i inputs ih =>
    refine ih ?_ fun cue hc => hr cue (List.mem_cons_of_mem _ hc)
    cases i with
    | cue cue => exact h.cue (hr cue List.mem_cons_self)
    | step => exact h.step

/-- Without a trial, and without resets unless the carriage is one that any sensor tells, the
controller takes no carriage for another, except that a garter carriage passes for a lace carriage
before its second magnet has been met. And a carriage that it tells is where it believes it to be,
its belt coupled as it believes, if it believes anything of the belt. -/
theorem observed_carriage (s : Setup) (inputs : List Input)
    (hr : ∀ cue, .cue cue ∈ inputs → cue.action = .reset → Resettable s) :
    let b := (assemble s (powerOn s.model)).play inputs
    (s.carriage ≠ .garter → ∀ c, b.controller.tracker.carriage = some c →
      c = s.carriage ∧ b.controller.tracker.position = b.mechanism.position ∧
        (b.controller.tracker.belt = none ∨ b.controller.tracker.belt = some s.belt)) ∧
    (s.carriage = .garter → ∀ c, b.controller.tracker.carriage = some c →
      (c = .garter ∧ b.controller.tracker.position = b.mechanism.position ∧
        (b.controller.tracker.belt = none ∨ b.controller.tracker.belt = some s.belt)) ∨
      c = .lace) := by
  intro b
  have ho := ((Observed.initial s).play inputs hr).observes.located
  have hseen (hp : b.controller.tracker.position = b.mechanism.quarters / 4) :
      b.controller.tracker.position = b.mechanism.position := by
    rw [hp, b.mechanism.position_eq]
  cases ho with
  | unseen hc =>
    have hn (c : Carriage) : b.controller.tracker.carriage ≠ some c := by
      rw [hc]
      exact nofun
    exact ⟨fun _ c h => absurd h (hn c), fun _ c h => absurd h (hn c)⟩
  | seen hc hp hb =>
    have he (c : Carriage) (h : b.controller.tracker.carriage = some c) : c = s.carriage :=
      (Option.some.inj (hc.symm.trans h)).symm
    exact ⟨fun _ c h => ⟨he c h, hseen hp, hb⟩,
      fun hg c h => Or.inl ⟨(he c h).trans hg, hseen hp, hb⟩⟩
  | half hg hc =>
    exact ⟨fun hn => absurd hg hn, fun _ c h => Or.inr (Option.some.inj (hc.symm.trans h)).symm⟩
  | lost hg hc =>
    exact ⟨fun hn => absurd hg hn, fun _ c h => Or.inr (Option.some.inj (hc.symm.trans h)).symm⟩

/-- A knit carriage that starts at the right. -/
def fromRight : Setup := { Setup.standard with side := .right, seen := by decide }

/-- A reset, then moves to the left as far as the right sensor. -/
def toSensor : List Input :=
  .cue ⟨.reset, 0⟩ :: (List.replicate 68 (.cue ⟨.moveLeft, 0⟩ :: List.replicate 5 .step)).flatten

set_option maxRecDepth 10000 in
theorem observed_carriage_fromRight :
    (∀ cue, .cue cue ∈ toSensor → cue.action = .reset → Resettable fromRight) ∧
      ((assemble fromRight (powerOn fromRight.model)).play toSensor).controller.tracker.carriage =
        some .knit ∧
      ((assemble fromRight (powerOn fromRight.model)).play toSensor).controller.tracker.position =
        ((assemble fromRight (powerOn fromRight.model)).play toSensor).mechanism.position := by
  have hr (cue : Cue) (_ : .cue cue ∈ toSensor) (_ : cue.action = .reset) :
      Resettable fromRight := Or.inl rfl
  have hc : ((assemble fromRight (powerOn fromRight.model)).play
      toSensor).controller.tracker.carriage = some .knit := by decide +kernel
  have h := (observed_carriage fromRight toSensor hr).1 (by decide) .knit hc
  exact ⟨hr, hc, h.2.1⟩

end KnitBench.Bench
