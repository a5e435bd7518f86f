import KnitBench.Proofs.Bench.Skipping
import KnitBench.Proofs.Bench.Tick
import Mathlib.Logic.Basic

/-! The encoder on a bench with the reference controller. In a tick it goes on by a quarter at most,
or by two when a cue and the trial move the carriage the same way. The controller, which looks at
the encoder once between two ticks, then finds a quarter skipped. -/

namespace KnitBench

/-- The move that an action asks for, if it does. -/
def Cue.Action.direction? : Cue.Action → Option Direction
  | .moveLeft => some .left
  | .moveRight => some .right
  | .reset | .toggleTrace => none

/-! ### Two moves -/

namespace Mechanism

variable {m m' : Mechanism} {d : Direction}

/-- The quarter that the encoder shows. -/
def quarter (m : Mechanism) : Fin 4 := Levels.quarter m.levels.v1 m.levels.v2

/-- The mechanism after a move, if there is one to make. -/
def moveIf (m : Mechanism) (d? : Option Direction) : Mechanism := d?.elim m m.move

/-- Two moves one way, the second of which no rail holds. -/
theorem quarters_move_move (h : m.Aligned) (hr : (m.move d).atRail d = false) :
    ((m.move d).move d).quarters = m.quarters + 2 * d.step := by
  have hfirst := quarters_move h d
  have hpos := (m.move d).position_eq
  rw [quarters_move_of_not_atRail (aligned_move h d) hr]
  cases d <;> simp only [atRail, decide_eq_false_iff_not] at hr <;> rw [setup_move] at hr <;>
    simp only [advanced, Direction.step] at hfirst ⊢ <;> omega

theorem natAbs_quarters_moveIf (h : m.Aligned) (d? : Option Direction) :
    ((m.moveIf d?).quarters - m.quarters).natAbs ≤ 1 := by
  cases d? with
  | none =>
    change (m.quarters - m.quarters).natAbs ≤ 1
    omega
  | some d =>
    have hq : (m.moveIf (some d)).quarters = m.advanced d := quarters_move h d
    have hstep := advanced_mem h d
    cases d <;> simp only [Direction.step] at hstep <;> omega

/-- The travel of two moves, either of which may be missing, when no rail holds the second: two
quarters if both go one way, and else one at most. -/
theorem quarters_moveIf_moveIf (h : m.Aligned) (first second : Option Direction)
    (hr : ∀ d, second = some d → (m.moveIf first).atRail d = false) :
    (∃ d, first = some d ∧ second = some d ∧
        ((m.moveIf first).moveIf second).quarters = m.quarters + 2 * d.step) ∨
      (∀ d, ¬ (first = some d ∧ second = some d)) ∧
        (((m.moveIf first).moveIf second).quarters - m.quarters).natAbs ≤ 1 := by
  cases first with
  | none => exact Or.inr ⟨nofun, natAbs_quarters_moveIf h second⟩
  | some d =>
    cases second with
    | none => exact Or.inr ⟨nofun, natAbs_quarters_moveIf h (some d)⟩
    | some d' =>
      by_cases hd : d = d'
      · subst hd
        exact Or.inl ⟨d, rfl, rfl, quarters_move_move h (hr d rfl)⟩
      · refine Or.inr ⟨fun e he => hd (Option.some.inj (he.1.trans he.2.symm)), ?_⟩
        have hfirst : (m.move d).quarters = m.advanced d := quarters_move h d
        have hstep := advanced_mem h d
        have hsecond : ((m.move d).move d').quarters = (m.move d).quarters + d'.step :=
          quarters_move_of_not_atRail (aligned_move h d) (hr d' rfl)
        change (((m.move d).move d').quarters - m.quarters).natAbs ≤ 1
        cases d <;> cases d' <;> simp only [Direction.step] at hstep hsecond <;>
          first | exact absurd rfl hd | omega

/-- The encoder tells the travel by its quarters. -/
theorem quarter_sub_eq_two_iff (m m' : Mechanism) :
    m'.quarter - m.quarter = 2 ↔ (m'.quarters - m.quarters) % 4 = 2 := by
  have h : (m.quarter.val : Int) = m.quarters % 4 := m.quarter_levels
  have h' : (m'.quarter.val : Int) = m'.quarters % 4 := m'.quarter_levels
  have hsub : ∀ q w : Fin 4, w - q = 2 ↔ w.val = (q.val + 2) % 4 := by decide
  rw [hsub]
  omega

end Mechanism

/-- No trial asks for a move against a rail. -/
theorem Trial.atRail_of_tick {t : Trial} {m : Mechanism} {d : Direction}
    (h : (t.tick m).value.1 = some d) : m.atRail d = false := by
  cases hv : t.verdict with
  | some v =>
    rw [value_tick_verdict hv] at h
    cases h
  | none =>
    cases hs : t.stage with
    | opening =>
      rw [value_tick_opening hv hs] at h
      cases h
    | awaiting =>
      rw [value_tick_awaiting hv hs] at h
      cases h
    | knitting =>
      rw [value_tick_knitting hv hs] at h
      generalize t.deliver.value = t at h
      cases hr : m.atRail t.sweep with
      | false =>
        rw [value_turn_of_not hr] at h
        obtain rfl := Option.some.inj h
        exact hr
      | true =>
        by_cases hl : t.reversals + 1 ≤ reversalLimit
        · rw [value_turn_atRail hr hl] at h
          obtain rfl := Option.some.inj h
          exact Mechanism.atRail_reversed hr
        · rw [value_turn_stalled hr (Nat.lt_of_not_le hl)] at h
          cases h

/-! ### What the controller sees of it -/

/-- A controller is on the wires of the encoder, and has last seen a quarter. -/
structure Sees (q : Fin 4) (m : Mechanism) (c : ReferenceController) : Prop where
  aligned : m.Aligned
  levels_eq : c.levels = m.levels
  quarter_eq : c.tracker.quarter = q

namespace Sees

open ReferenceController

variable {q : Fin 4} {m : Mechanism} {c c' : ReferenceController}

theorem initial (s : Setup) (model : Model) :
    Sees (Mechanism.initial s).quarter (.initial s)
      ((powerOn model).seeing (Mechanism.initial s).levels) :=
  ⟨Mechanism.aligned_initial s, rfl, rfl⟩

theorem move (h : Sees q m c) (d : Direction) : Sees q (m.move d) (c.seeing (m.move d).levels) :=
  ⟨Mechanism.aligned_move h.aligned d, rfl, h.quarter_eq⟩

theorem latch (h : Sees q m c) (r : Register) : Sees q (m.latch r) c :=
  ⟨Mechanism.aligned_latch h.aligned r, h.levels_eq, h.quarter_eq⟩

theorem refreshed (h : Sees q m c) : Sees q m.refreshed c :=
  ⟨Mechanism.aligned_shown h.aligned false, h.levels_eq, h.quarter_eq⟩

/-- A reset looks at the encoder. -/
theorem reset (h : Sees q m c) : Sees m.quarter m c.reset.value :=
  ⟨h.aligned, h.levels_eq, congrArg (fun l : Levels => Levels.quarter l.v1 l.v2) h.levels_eq⟩

/-- So does a slice of time. -/
theorem step (h : Sees q m c) : Sees m.quarter m c.step.value := by
  obtain ⟨hl, hq⟩ := c.encoder_step
  refine ⟨h.aligned, hl.trans h.levels_eq, hq.trans ?_⟩
  rw [h.levels_eq]
  rfl

theorem answers (h : Sees q m c) (ha : c.Answers c') : Sees q m c' := by
  refine ⟨h.aligned, ha.levels_eq.trans h.levels_eq, ?_⟩
  rw [ha.tracker_eq]
  exact h.quarter_eq

theorem receiveAll (h : Sees q m c) (bytes : List UInt8) :
    Sees q m (Controller.receiveAll bytes c).value :=
  kept_receiveAll (fun _ _ h => ⟨h.1, h.2, h.3⟩) (fun c m h => h.answers (answers_onMessage c m)) h
    bytes

/-- In a slice of time a skipped quarter is noted exactly when the encoder has gone on by two. -/
theorem noSkip_step {m₀ : Mechanism} (h : Sees m₀.quarter m c) :
    c.step.NoSkip ↔ (m.quarters - m₀.quarters) % 4 ≠ 2 := by
  rw [ReferenceController.noSkip_step, h.levels_eq, h.quarter_eq]
  exact not_congr (Mechanism.quarter_sub_eq_two_iff m₀ m)

end Sees

namespace Bench

open ReferenceController

variable {b b' b'' : Bench ReferenceController} {q : Fin 4} {d : Direction} {inputs : List Input}

/-! ### The exchange -/

/-- The carriage rests while a bench goes on. -/
structure Rests (b b' : Bench ReferenceController) : Prop where
  quarters_eq : b'.mechanism.quarters = b.mechanism.quarters
  quarter_eq : b'.mechanism.quarter = b.mechanism.quarter
  sees : ∀ q, Sees q b.mechanism b.controller → Sees q b'.mechanism b'.controller
  trial : b.trial = none → b'.trial = none

namespace Rests

theorem refl (b : Bench ReferenceController) : b.Rests b := ⟨rfl, rfl, fun _ h => h, fun h => h⟩

theorem trans (h : b.Rests b') (h' : b'.Rests b'') : b.Rests b'' where
  quarters_eq := h'.quarters_eq.trans h.quarters_eq
  quarter_eq := h'.quarter_eq.trans h.quarter_eq
  sees q hs := h'.sees q (h.sees q hs)
  trial ht := h'.trial (h.trial ht)

theorem refresh (b : Bench ReferenceController) : b.Rests b.refresh.value := by
  obtain ⟨panel, mechanism, hv, rfl | rfl⟩ := b.exists_value_refresh
  · rw [hv]
    exact ⟨rfl, rfl, fun _ h => h, fun h => h⟩
  · rw [hv]
    exact ⟨rfl, rfl, fun _ h => h.refreshed, fun h => h⟩

theorem consult (b : Bench ReferenceController) (message : List UInt8) :
    b.Rests (b.consult message).value.2 := by
  unfold Bench.consult
  split
  · exact refl b
  · rename_i t ht
    have hsome : ∀ t', b.Rests { b with trial := some t' } := fun t' =>
      ⟨rfl, rfl, fun _ h => h, fun h => nomatch ht.symm.trans h⟩
    rw [Logged.value_bind]
    dsimp only
    split <;> exact hsome _

theorem passOn (b : Bench ReferenceController) (o : Output) : b.Rests (b.passOn o).value.2 := by
  cases o with
  | solenoids | convert =>
    rw [value_passOn_of_drives b rfl]
    exact ⟨rfl, rfl, fun _ h => ⟨(h.latch _).1, h.2, h.3⟩, fun h => h⟩
  | beeper | lamp => exact ⟨rfl, rfl, fun _ h => h, fun h => h⟩
  | serial byte =>
    unfold Bench.passOn
    dsimp only
    split
    · exact ⟨rfl, rfl, fun _ h => h, fun h => h⟩
    · rw [Logged.value_bind, value_record]
      refine trans ?_ (consult _ _)
      exact ⟨rfl, rfl, fun _ h => h, fun h => h⟩

theorem passAllOn (os : List Output) (b : Bench ReferenceController) :
    b.Rests (passAllOn os b).value.2 := by
  induction os generalizing b with
  | nil => exact refl b
  | cons o os ih =>
    have h := passOn b o
    rw [Bench.passAllOn, Logged.value_bind]
    generalize (b.passOn o).value = r at h ⊢
    obtain ⟨fault?, b'⟩ := r
    cases fault? with
    | none => exact h.trans (ih b')
    | some fault => exact h.trans ⟨rfl, rfl, fun _ h => ⟨h.1, h.2, h.3⟩, fun h => h⟩

theorem collect (b : Bench ReferenceController) : b.Rests b.collect.value.2 := by
  refine trans ?_ (passAllOn b.controller.outbox.toList _)
  exact ⟨rfl, rfl, fun _ h => ⟨h.1, h.2, h.3⟩, fun h => h⟩

theorem sendAll (messages : List (List UInt8)) (b : Bench ReferenceController) :
    b.Rests (sendAll messages b).value := by
  induction messages generalizing b with
  | nil => exact refl b
  | cons message messages ih =>
    simp only [Bench.sendAll, Logged.value_bind, value_record]
    refine trans ?_ (ih _)
    exact ⟨rfl, rfl, fun _ h => h.receiveAll (Wire.frame message), fun h => h⟩

theorem sendOutgoing (b : Bench ReferenceController) : b.Rests b.sendOutgoing.value := by
  unfold Bench.sendOutgoing
  split
  · exact refl b
  · rename_i t ht
    refine trans ?_ (sendAll t.outgoing _)
    exact ⟨rfl, rfl, fun _ h => h, fun h => nomatch ht.symm.trans h⟩

/-- What is said of a bench with another controller, said of the bench itself. -/
theorem sliced {c : ReferenceController} (h : Rests { b with controller := c } b') :
    b'.mechanism.quarters = b.mechanism.quarters ∧ b'.mechanism.quarter = b.mechanism.quarter ∧
      (∀ q, Sees q b.mechanism c → Sees q b'.mechanism b'.controller) ∧
      (b.trial = none → b'.trial = none) :=
  -- The controller is a variable here. With a slice of time in its place, each of these fields
  -- would have it compared with the controller before the slice, which means to run the slice.
  ⟨h.quarters_eq, h.quarter_eq, h.sees, h.trial⟩

/-- After the slice of time the carriage rests until the step ends. -/
theorem step {b₁ : Bench ReferenceController} (hv : b.verdict = none)
    (hb : b.tickIfDue.value = b₁) :
    Rests { b₁ with controller := b₁.controller.step.value } (b.after .step) := by
  have hslice : (Controller.step b₁.controller).value =
      (.running, b₁.controller.step.value) := rfl
  have h := collect { b₁ with controller := b₁.controller.step.value }
  rw [after, Bench.step, hv, Logged.value_bind, hb, Logged.value_bind, hslice, Logged.value_bind]
  generalize ({ b₁ with controller := b₁.controller.step.value } :
    Bench ReferenceController).collect.value = r at h ⊢
  obtain ⟨fault?, b₂⟩ := r
  cases fault? with
  | some fault => exact h
  | none =>
    refine h.trans ?_
    have hs := sendOutgoing b₂
    dsimp only
    rw [Logged.value_bind]
    split <;> exact hs

end Rests

/-! ### The tick -/

/-- The move that the oldest cue asks for, if it does. -/
def cued (b : Bench ReferenceController) : Option Direction :=
  b.queue.cues.head?.bind fun cue => cue.action.direction?

/-- The move that the trial asks for, with the mechanism as it is then. -/
def planned (b : Bench ReferenceController) (m : Mechanism) : Option Direction :=
  b.trial.bind fun t => (t.tick m).value.1

/-- A tick is due in which a cue and the trial move the carriage the same way. -/
structure Doubles (b : Bench ReferenceController) (d : Direction) : Prop where
  verdict_eq : b.verdict = none
  due : tickInterval < b.now - min b.lastTick b.now
  cued_eq : b.cued = some d
  planned_eq : b.planned (b.mechanism.move d) = some d

theorem sees_obey (h : Sees b.mechanism.quarter b.mechanism b.controller) (cue : Cue) :
    (b.obey cue).value.mechanism = b.mechanism.moveIf cue.action.direction? ∧
      Sees b.mechanism.quarter (b.obey cue).value.mechanism (b.obey cue).value.controller ∧
      (b.obey cue).value.trial = b.trial := by
  unfold obey
  cases cue.action with
  | moveLeft =>
    simp only [Logged.value_pure, move, raiseLevels_eq]
    exact ⟨rfl, h.move .left, trivial⟩
  | moveRight =>
    simp only [Logged.value_pure, move, raiseLevels_eq]
    exact ⟨rfl, h.move .right, trivial⟩
  | reset => exact ⟨rfl, h.reset, rfl⟩
  | toggleTrace => exact ⟨rfl, h, rfl⟩

theorem sees_obeyNext (h : Sees b.mechanism.quarter b.mechanism b.controller) :
    b.obeyNext.value.mechanism = b.mechanism.moveIf b.cued ∧
      Sees b.mechanism.quarter b.obeyNext.value.mechanism b.obeyNext.value.controller ∧
      b.obeyNext.value.trial = b.trial := by
  unfold obeyNext cued
  cases hp : b.queue.pop with
  | none =>
    rw [CueQueue.pop_none hp]
    exact ⟨rfl, h, rfl⟩
  | some popped =>
    obtain ⟨cue, queue⟩ := popped
    rw [CueQueue.pop_some hp]
    exact sees_obey (b := { b with queue }) h cue

theorem sees_tickTrial (h : Sees q b.mechanism b.controller) :
    b.tickTrial.value.mechanism = b.mechanism.moveIf (b.planned b.mechanism) ∧
      Sees q b.tickTrial.value.mechanism b.tickTrial.value.controller ∧
      (b.trial = none → b.tickTrial.value.trial = none) := by
  unfold planned
  cases ht : b.trial with
  | none =>
    rw [value_tickTrial_none ht]
    exact ⟨rfl, h, fun _ => ht⟩
  | some t =>
    dsimp only [Option.bind_some]
    generalize hp : (t.tick b.mechanism).value = p
    obtain ⟨planned?, t'⟩ := p
    cases planned? with
    | none =>
      rw [value_tickTrial_rest ht hp]
      exact ⟨rfl, h, nofun⟩
    | some d =>
      rw [value_tickTrial_move ht hp]
      exact ⟨rfl, h.move d, nofun⟩

/-- A move that the trial asks for is held by no rail. -/
theorem atRail_of_planned {m : Mechanism} (h : b.planned m = some d) : m.atRail d = false := by
  obtain ⟨t, -, ht⟩ := Option.bind_eq_some_iff.mp h
  exact Trial.atRail_of_tick ht

/-- The travel of a tick: two quarters when it doubles, and else one at most. -/
def Travels (b b' : Bench ReferenceController) : Prop :=
  (∃ d, b.Doubles d ∧ b'.mechanism.quarters = b.mechanism.quarters + 2 * d.step) ∨
    (∀ d, ¬ b.Doubles d) ∧ (b'.mechanism.quarters - b.mechanism.quarters).natAbs ≤ 1

theorem Doubles.unique {e : Direction} (h : b.Doubles d) (h' : b.Doubles e) : d = e :=
  Option.some.inj (h.cued_eq.symm.trans h'.cued_eq)

theorem Travels.quarters_eq_iff (h : b.Travels b') (d : Direction) :
    b'.mechanism.quarters = b.mechanism.quarters + 2 * d.step ↔ b.Doubles d := by
  rcases h with ⟨e, he, hq⟩ | ⟨hno, hq⟩
  · constructor
    · intro hd
      have hstep : e.step = d.step := by omega
      have hed : e = d := by cases e <;> cases d <;> first | rfl | cases hstep
      exact hed ▸ he
    · intro hd
      rw [hq, he.unique hd]
  · refine iff_of_false (fun hd => ?_) (hno d)
    have hstep : d.step = -1 ∨ d.step = 1 := by cases d <;> decide
    omega

theorem Travels.natAbs_le (h : b.Travels b') (hno : ∀ d, ¬ b.Doubles d) :
    (b'.mechanism.quarters - b.mechanism.quarters).natAbs ≤ 1 := by
  rcases h with ⟨d, hd, -⟩ | ⟨-, hq⟩
  · exact absurd hd (hno d)
  · exact hq

theorem travels_of_quarters_eq (h : b'.mechanism.quarters = b.mechanism.quarters)
    (hd : ∀ d, ¬ b.Doubles d) : b.Travels b' := by
  refine Or.inr ⟨hd, ?_⟩
  rw [h]
  omega

/-- What a tick makes of the encoder, and of what the controller has seen of it. -/
theorem sees_tick (h : Sees b.mechanism.quarter b.mechanism b.controller) (lastTick : Nat) :
    let b' := ({ b with lastTick } : Bench ReferenceController).tick.value
    b'.mechanism.quarters =
        ((b.mechanism.moveIf b.cued).moveIf (b.planned (b.mechanism.moveIf b.cued))).quarters ∧
      Sees b.mechanism.quarter b'.mechanism b'.controller ∧ (b.trial = none → b'.trial = none) := by
  obtain ⟨hm, hs, ht⟩ := sees_obeyNext (b := { b with lastTick, ticks := b.ticks + 1 }) h
  rw [value_tick]
  generalize ({ b with lastTick, ticks := b.ticks + 1 } :
    Bench ReferenceController).obeyNext.value = b₁ at hm hs ht ⊢
  obtain ⟨hm', hs', ht'⟩ := sees_tickTrial hs
  have hr := Rests.refresh b₁.tickTrial.value
  have hplan : b₁.planned b₁.mechanism = b.planned (b.mechanism.moveIf b.cued) := by
    rw [hm, planned, ht]
    rfl
  rw [hplan, hm] at hm'
  exact ⟨hr.quarters_eq.trans (congrArg _ hm'), hr.sees _ hs',
    fun hn => hr.trial (ht' (ht.trans hn))⟩

theorem sees_tickIfDue (h : Sees b.mechanism.quarter b.mechanism b.controller)
    (hv : b.verdict = none) :
    b.Travels b.tickIfDue.value ∧
      Sees b.mechanism.quarter b.tickIfDue.value.mechanism b.tickIfDue.value.controller ∧
      (b.trial = none → b.tickIfDue.value.trial = none) := by
  by_cases hd : tickInterval < b.now - min b.lastTick b.now
  · obtain ⟨hq, hs, ht⟩ := sees_tick h b.now
    rw [value_tickIfDue hd]
    refine ⟨?_, hs, ht⟩
    unfold Travels
    rw [hq]
    rcases Mechanism.quarters_moveIf_moveIf h.aligned b.cued _ fun d => atRail_of_planned with
      ⟨d, hc, hp, hq⟩ | ⟨hno, hq⟩
    · refine Or.inl ⟨d, ⟨hv, hd, hc, ?_⟩, hq⟩
      rw [hc] at hp
      exact hp
    · refine Or.inr ⟨fun d hb => hno d ⟨hb.cued_eq, ?_⟩, hq⟩
      rw [hb.cued_eq]
      exact hb.planned_eq
  · rw [value_tickIfDue_of_not hd]
    exact ⟨travels_of_quarters_eq rfl fun d hb => hd hb.due, h, fun ht => ht⟩

/-! ### The step -/

/-- Between two steps the controller has seen the quarter at hand. -/
theorem sees_step (h : Sees b.mechanism.quarter b.mechanism b.controller) :
    b.Travels (b.after .step) ∧
      Sees (b.after .step).mechanism.quarter (b.after .step).mechanism (b.after .step).controller ∧
      (b.trial = none → (b.after .step).trial = none) := by
  cases hv : b.verdict with
  | some v =>
    rw [after, value_step_finished hv]
    refine ⟨travels_of_quarters_eq rfl fun d hb => ?_, h, fun ht => ht⟩
    cases hv.symm.trans hb.verdict_eq
  | none =>
    obtain ⟨htravel, hs, ht⟩ := sees_tickIfDue h hv
    generalize hb : b.tickIfDue.value = b₁ at htravel hs ht
    obtain ⟨hquarters, hquarter, hsees, htrial⟩ := (Rests.step hv hb).sliced
    refine ⟨?_, ?_, fun hn => htrial (ht hn)⟩
    · unfold Travels
      rw [hquarters]
      exact htravel
    · rw [hquarter]
      exact hsees _ hs.step

/-- A step notes a skipped quarter exactly when its tick doubles. -/
theorem noSkip_step_iff (h : Sees b.mechanism.quarter b.mechanism b.controller) :
    b.step.NoSkip ↔ ∀ d, ¬ b.Doubles d := by
  cases hv : b.verdict with
  | some v =>
    refine iff_of_true (b.noSkip_step_of_verdict hv) fun d hb => ?_
    cases hv.symm.trans hb.verdict_eq
  | none =>
    obtain ⟨htravel, hs, -⟩ := sees_tickIfDue h hv
    rw [b.noSkip_step hv, hs.noSkip_step]
    rcases htravel with ⟨d, hb, hq⟩ | ⟨hno, hq⟩
    · refine iff_of_false (fun hne => hne ?_) fun hno => hno d hb
      rw [hq]
      cases d <;> simp only [Direction.step] <;> omega
    · exact iff_of_true (by omega) hno

/-! ### Any schedule -/

theorem sees_play (h : Sees b.mechanism.quarter b.mechanism b.controller) (inputs : List Input) :
    Sees (b.play inputs).mechanism.quarter (b.play inputs).mechanism
        (b.play inputs).controller ∧
      (b.trial = none → (b.play inputs).trial = none) := by
  induction inputs generalizing b with
  | nil => exact ⟨h, fun ht => ht⟩
  | cons i inputs ih =>
    cases i with
    | step =>
      obtain ⟨-, hs, ht⟩ := sees_step h
      obtain ⟨hs', ht'⟩ := ih hs
      exact ⟨hs', fun hn => ht' (ht hn)⟩
    | cue cue =>
      obtain ⟨queue, hb, -⟩ := b.exists_after_cue cue
      have hs : Sees (b.after (.cue cue)).mechanism.quarter (b.after (.cue cue)).mechanism
          (b.after (.cue cue)).controller := by
        rw [hb]
        exact h
      obtain ⟨hs', ht'⟩ := ih hs
      refine ⟨hs', fun hn => ht' ?_⟩
      rw [hb]
      exact hn

theorem sees_assembled (s : Setup) (model : Model) (o? : Option TrialOptions) (tracing : Bool) :
    let assembled := assemble s (powerOn model)
    let b := (o?.elim assembled assembled.withTrial).setTracing tracing
    Sees b.mechanism.quarter b.mechanism b.controller := by
  have hc : (assemble s (powerOn model)).controller =
      (powerOn model).seeing (Mechanism.initial s).levels := controller_assemble ..
  have h := Sees.initial s model
  rw [← hc] at h
  cases o? <;> exact h

/-- A tick that doubles moves the encoder by two quarters, of which the controller misses one. -/
theorem Doubles.skips (hd : b.Doubles d)
    (h : Sees b.mechanism.quarter b.mechanism b.controller) :
    (b.after .step).mechanism.quarters = b.mechanism.quarters + 2 * d.step ∧
      Notice.controller .quarterSkipped ∈ b.step.notices := by
  refine ⟨((sees_step h).1.quarters_eq_iff d).mpr hd, ?_⟩
  exact Classical.not_not.mp fun hno => (noSkip_step_iff h).mp hno d hd

/-- Whatever the operator does and at whatever moment, with a trial and without one: a step moves
the encoder by two quarters exactly when a tick is due in which a cue and the trial move the
carriage the same way, and otherwise by one at most. In such a step, and in no other, the controller
notes a skipped quarter. Without a trial there is none. -/
theorem quarters_step_play (s : Setup) (model : Model) (o? : Option TrialOptions) (tracing : Bool)
    (inputs : List Input) :
    let assembled := assemble s (powerOn model)
    let b := ((o?.elim assembled assembled.withTrial).setTracing tracing).play inputs
    (∀ d, (b.after .step).mechanism.quarters = b.mechanism.quarters + 2 * d.step ↔ b.Doubles d) ∧
      ((∀ d, ¬ b.Doubles d) →
        ((b.after .step).mechanism.quarters - b.mechanism.quarters).natAbs ≤ 1) ∧
      (Notice.controller .quarterSkipped ∈ b.step.notices ↔ ∃ d, b.Doubles d) ∧
      (o? = none → ∀ d, ¬ b.Doubles d) := by
  intro assembled b
  obtain ⟨h, ht⟩ := sees_play (sees_assembled s model o? tracing) inputs
  obtain ⟨htravel, -, -⟩ := sees_step h
  have hskip : Notice.controller .quarterSkipped ∉ b.step.notices ↔ ∀ d, ¬ b.Doubles d :=
    noSkip_step_iff h
  refine ⟨htravel.quarters_eq_iff, htravel.natAbs_le,
    (not_iff_comm.mp hskip).symm.trans not_forall_not, ?_⟩
  rintro rfl d hb
  have hplan := hb.planned_eq
  rw [planned, ht rfl] at hplan
  cases hplan

/-- A schedule with a cue that hurries the carriage on while a trial sweeps. -/
def hurried : List Input :=
  List.replicate 8 .step ++ [.cue ⟨.moveRight, 0⟩, .step, .step]

theorem doubles_hurried :
    (((assemble .standard (powerOn .kh910)).withTrial {}).play hurried).Doubles .right := by
  constructor <;> decide +kernel

theorem quarter_skipped_hurried :
    let b := ((assemble .standard (powerOn .kh910)).withTrial {}).play hurried
    (b.after .step).mechanism.quarters = b.mechanism.quarters + 2 ∧
      Notice.controller .quarterSkipped ∈ b.step.notices := by
  intro b
  obtain ⟨h, -⟩ := sees_play (b := (assemble .standard (powerOn .kh910)).withTrial {})
    (sees_assembled .standard .kh910 (some {}) false) hurried
  exact doubles_hurried.skips h

end Bench

end KnitBench
