import KnitBench.Proofs.Bench.Crossing

/-! From one pass to the next: the carriage goes on to the rail, turns there, and comes back to the
range, by then with the next line. -/

namespace KnitBench

namespace Setup

variable {s : Setup} {d : Direction} {x k : Int}

/-- The needle that the selector meets first. -/
def firstNeedle (s : Setup) : Direction → Int
  | .right => s.start
  | .left => s.stop

theorem reach_le_firstNeedle (hk : (s.start : Int) ≤ k) (hk' : k ≤ s.stop) :
    s.reach d x k ≤ s.reach d x (s.firstNeedle d) := by
  unfold reach pushPoint firstNeedle
  cases d <;> simp only [Direction.step] <;> omega

end Setup

namespace Bench

open ReferenceController Trial

variable {b : Bench ReferenceController} {s : Setup} {o : TrialOptions} {n p : Nat}
  {m m' : Mechanism} {c : ReferenceController} {t : Trial} {d : Direction}

/-- The carriage on its way back to the range, for the pass in direction `d` after `p` others. What
is left of the way is enough for the line to come. -/
structure Returning (s : Setup) (o : TrialOptions) (d : Direction) (p : Nat) (m : Mechanism)
    (c : ReferenceController) (t : Trial) : Prop where
  between : Between s o (-s.reach d m.quarters (s.firstNeedle d)).toNat (s.carriage ≠ .garter) m c t
  known : Known m c
  direction_eq : c.tracker.direction = some d
  worked_eq : c.line.worked = none
  reach_le : s.reach d m.quarters (s.firstNeedle d) ≤ 0
  bound : Bound d p t

namespace Returning

theorem ahead {x : Int} (h : Returning s o d p m c t)
    (hx : s.reach d x (s.firstNeedle d) ≤ 0) : c.ahead (s.selectorAt d x) d :=
  ahead_of_reach h.between.serving.start_eq h.between.serving.stop_eq
    (fun _ hk hk' => Setup.reach_le_firstNeedle hk hk') (by omega)

theorem start_le (h : Returning s o d p m c t) : c.start ≤ c.stop := by
  rw [h.between.serving.start_eq, h.between.serving.stop_eq]
  exact s.start_le_stop

theorem atRail_eq (h : Returning s o d p m c t) : m.atRail d = false := by
  refine Mechanism.atRail_of_not_past (c := c) ?_ ?_
  · rw [h.between.setup_eq]
    exact leftRange_of_ahead h.start_le (h.ahead h.reach_le)
  · rw [h.between.setup_eq, h.between.serving.stop_eq]
    exact s.stop_lt_needleCount

/-- Off the range, a line that has come already is not begun. -/
theorem worked_eq_tracked (h : Returning s o d p m c t) (ho : Onward d m m' c)
    (hx : s.reach d m'.quarters (s.firstNeedle d) ≤ 0) :
    (c.seeing m'.levels).worked = (c.seeing m'.levels).tracked := by
  refine h.known.worked_eq h.between.wired ho h.worked_eq ?_
  rw [ho.setup_eq, h.between.setup_eq]
  exact inRange_of_ahead (h.ahead hx)

theorem rest (h : Returning s o d p m c t) :
    t.outgoing = [] ∧ Attached m c ∧ c.worked.Queues [] ∧
      Returning s o d p (m.latch c.worked.wantedRegister) (c.sliced m.hall) t := by
  have ho : Onward d m m c := .still h.between.wired.aligned h.direction_eq
  have hw := h.worked_eq_tracked ho h.reach_le
  obtain ⟨hk, hd⟩ := h.known.track h.between.wired ho
  rw [h.between.wired.seeing_self] at hw hk hd
  obtain ⟨hout, ha, hq, hb⟩ := h.between.rest hw
  refine ⟨hout, ha, hq, hb, ?_, ?_, ?_, h.reach_le, h.bound⟩ <;> rw [sliced, hw]
  · exact ⟨hk.1, hk.2, hk.3, hk.4⟩
  · exact hd
  · exact h.worked_eq

/-- As soon as the line is there, the pass begins. -/
theorem crossing (h : Returning s o d p m c t) (hr : c.line.ready = true) :
    Crossing s o d p m c t :=
  Crossing.of_known h.between h.known h.direction_eq hr h.worked_eq
    (fun _ hk hk' => Int.le_trans (Setup.reach_le_firstNeedle hk hk') h.reach_le) h.bound

/-- While the line is not there, a tick goes on. -/
theorem tick_on (h : Returning s o d p b.mechanism b.controller t) (hb : Timed 5 t b)
    (hr : b.controller.line.ready = false) :
    ∃ b' t', b.step.value = (.ok .running, b') ∧ Timed 1 t' b' ∧
      Returning s o d p b'.mechanism b'.controller t' ∧
      b'.mechanism.quarters = b.mechanism.quarters + d.step ∧
      s.reach d b.mechanism.quarters (s.firstNeedle d) < 0 := by
  have hneg : s.reach d b.mechanism.quarters (s.firstNeedle d) < 0 := by
    have hle := h.reach_le
    by_cases hz : s.reach d b.mechanism.quarters (s.firstNeedle d) = 0
    · have hserv := h.between.serving
      rw [hz] at hserv
      have hready := hserv.ready h.between.outgoing_eq
      rw [hr] at hready
      cases hready
    · omega
  have hstep := s.reach_step d b.mechanism.quarters (s.firstNeedle d)
  have hq := Mechanism.quarters_move_of_not_atRail h.between.wired.aligned h.atRail_eq
  have ho : Onward d b.mechanism (b.mechanism.move d) b.controller :=
    .move h.between.wired.aligned h.atRail_eq
  have hw := h.worked_eq_tracked ho (by rw [hq]; omega)
  obtain ⟨hk, hd⟩ := h.known.track h.between.wired ho
  have hbet := h.between
  rw [show (-s.reach d b.mechanism.quarters (s.firstNeedle d)).toNat =
    (-s.reach d (b.mechanism.quarters + d.step) (s.firstNeedle d)).toNat + 1 by omega] at hbet
  obtain ⟨stale, line, register, b', t', hs, ht', hbet', hbound, hline, hm', hc'⟩ :=
    hbet.tick_on hb h.bound h.worked_eq (leftRange_of_ahead h.start_le (h.ahead h.reach_le))
      (leftRange_of_ahead h.start_le (h.ahead (by omega))) hw
  have hq' : b'.mechanism.quarters = b.mechanism.quarters + d.step := by
    rw [hm', ← hq]
    rfl
  refine ⟨b', t', hs, ht', ⟨by rw [hq']; exact hbet', ?_, ?_, ?_, ?_, hbound⟩, hq', hneg⟩
  · rw [hm', hc']
    exact ⟨hk.1, hk.2, hk.3, hk.4⟩
  · rw [hc']
    exact hd
  · rw [hc']
    exact hline
  · rw [hq']
    omega

theorem neg_reach_le (h : Returning s o d p m c t) :
    -s.reach d m.quarters (s.firstNeedle d) ≤ 1200 := by
  have hb := h.between.wired.aligned.position_bounds
  have hp := m.position_eq
  have hlead := s.lead_bounds d
  have hn := s.model.needleCount_le
  have hcycle := s.model.solenoidCount_le
  have hh := s.carriage.homePosition_bounds
  have hrange := s.start_le_stop
  have hstop := s.stop_lt_needleCount
  rw [h.between.setup_eq] at hb
  unfold Setup.reach Setup.pushPoint Setup.firstNeedle Carriage.selectOffset
  cases d <;> simp only [Direction.step] <;> omega

/-- On its way back the carriage comes to the next pass. -/
theorem reaches (h : Phase (Returning s o d p) b) : Reaches (Phase (Crossing s o d p)) 6005 b := by
  refine Steady.reaches (n := 1200) (k := 0)
    (μ := fun m => (-s.reach d m.quarters (s.firstNeedle d)).toNat) (fun _ _ _ hc => hc.rest)
    (fun _ _ => rfl) ?_ ?_ h
  · intro m c t hc
    have hle := hc.neg_reach_le
    omega
  intro t b ht hc
  cases hr : b.controller.line.ready with
  | true => exact Or.inl ⟨5, t, Nat.le_refl 5, ht, hc.crossing hr⟩
  | false =>
    right
    obtain ⟨b', t', hs, ht', hc', hq, hneg⟩ := hc.tick_on ht hr
    have hstep := s.reach_step d b.mechanism.quarters (s.firstNeedle d)
    refine ⟨b', t', hs, ht', hc', ?_⟩
    rw [hq]
    omega

end Returning

namespace Leaving

theorem rest (h : Leaving s o d p m c t) :
    t.outgoing = [] ∧ Attached m c ∧ c.worked.Queues [] ∧
      Leaving s o d p (m.latch c.worked.wantedRegister) (c.sliced m.hall) t := by
  obtain ⟨hout, ha, hq, hb⟩ := h.toBeyond.rest
  exact ⟨hout, ha, hq, hb, h.passDirection_eq, h.passes_eq, h.reversals_eq⟩

/-- Away from the rail a tick goes on. -/
theorem tick_on (h : Leaving s o d p b.mechanism b.controller t) (hb : Timed 5 t b)
    (hrail : b.mechanism.atRail d = false) :
    ∃ b' t', b.step.value = (.ok .running, b') ∧ Timed 1 t' b' ∧
      Leaving s o d p b'.mechanism b'.controller t' ∧
      b'.mechanism.quarters = b.mechanism.quarters + d.step := by
  have hq := Mechanism.quarters_move_of_not_atRail h.between.wired.aligned hrail
  obtain ⟨t₁, hr, hcourse, hs⟩ := Beyond.exists_value_tick (n := 10) h.toBeyond hrail
  have hd := hcourse.passDirection_eq.trans h.passDirection_eq
  have hm : (t₁.afterMove (b.mechanism.move d)).value = (none, t₁) := by
    refine value_afterMove_of_not fun hpast => ?_
    rw [hd] at hpast
    cases d <;> exact nomatch hpast.1
  obtain ⟨stale, register, b', hstep, htime, hbey, hm'⟩ :=
    h.toBeyond.tick_on hb hrail hr hm (hs.mono (show 10 ≤ patience by decide))
      (hcourse.sweep_eq.trans h.sweep_eq)
  refine ⟨b', _, hstep, htime, ⟨hbey, hd, hcourse.passes_eq.trans h.passes_eq,
    hcourse.reversals_eq.trans h.reversals_eq⟩, ?_⟩
  rw [hm', ← hq]
  rfl

end Leaving

/-- At a rail the range is far away. -/
theorem reach_at_rail (hrail : m.atRail d = true) :
    m.setup.reach d.reversed (m.quarters + d.reversed.step) (m.setup.firstNeedle d.reversed) ≤ -11 ∧
      m.atRail d.reversed = false := by
  have hp := m.position_eq
  have hlead := m.setup.lead_bounds d.reversed
  have hn : 100 < m.setup.model.needleCount ∧ m.setup.model.solenoidCount ≤ 16 := by
    cases m.setup.model <;> decide
  have hh : 0 ≤ m.setup.carriage.homePosition := by
    cases m.setup.carriage <;> decide
  have hrange := m.setup.start_le_stop
  have hstop := m.setup.stop_lt_needleCount
  unfold Setup.reach Setup.pushPoint Setup.firstNeedle Carriage.selectOffset
  cases d <;>
    simp only [Mechanism.atRail, Direction.reversed, decide_eq_true_iff, decide_eq_false_iff_not]
      at hrail hlead ⊢ <;>
    simp only [Setup.leftRail, Setup.rightRail, margin] at hrail ⊢ <;>
    simp only [Direction.step] <;> omega

namespace Leaving

/-- At the rail the sweep turns. -/
theorem tick_turn (h : Leaving s o d p b.mechanism b.controller t) (hb : Timed 5 t b)
    (hrail : b.mechanism.atRail d = true) :
    Reaches (Phase (Returning s o d.reversed (p + 1))) 1 b := by
  have hserv := h.between.serving
  obtain ⟨hreach, hrail'⟩ := reach_at_rail hrail
  rw [h.between.setup_eq] at hreach
  have hq := Mechanism.quarters_move_of_not_atRail h.between.wired.aligned hrail'
  have ho : Onward d.reversed b.mechanism (b.mechanism.move d.reversed) b.controller :=
    .move h.between.wired.aligned hrail'
  have hahead : b.controller.ahead
      (s.selectorAt d.reversed (b.mechanism.quarters + d.reversed.step)) d.reversed :=
    ahead_of_reach hserv.start_eq hserv.stop_eq
      (fun _ hk hk' => Setup.reach_le_firstNeedle hk hk') (by omega)
  have hw : (b.controller.seeing (b.mechanism.move d.reversed).levels).worked =
      (b.controller.seeing (b.mechanism.move d.reversed).levels).tracked := by
    refine h.known.worked_eq h.between.wired ho h.worked_eq ?_
    rw [Mechanism.setup_move, h.between.setup_eq, hq]
    exact inRange_of_ahead hahead
  obtain ⟨hk, hd⟩ := h.known.track h.between.wired ho
  obtain ⟨hcourse, hs⟩ := Serving.deliver (n := 10) hserv h.between.outgoing_eq
  have hr := value_tick_knitting hserv.verdict_eq hserv.stage_eq b.mechanism
  generalize t.deliver.value = t₀ at hcourse hs hr
  have hsweep := hcourse.sweep_eq.trans h.sweep_eq
  rw [value_turn_atRail (by rw [hsweep]; exact hrail)
    (by rw [hcourse.reversals_eq, h.reversals_eq]; decide), hsweep] at hr
  have hs₁ : Serving s o 10 (s.carriage ≠ .garter)
      { t₀ with sweep := d.reversed, reversals := t₀.reversals + 1 } b.controller :=
    hs.congr_trial ⟨rfl, rfl, rfl, rfl, rfl, rfl⟩ hs.verdict_eq fun hg => ⟨hg, rfl⟩
  have hpd := hcourse.passDirection_eq.trans h.passDirection_eq
  have hpasses := hcourse.passes_eq.trans h.passes_eq
  have ht₁ : Bound d.reversed (p + 1)
      { t₀ with sweep := d.reversed, reversals := t₀.reversals + 1 } := ⟨rfl, hpd, hpasses⟩
  generalize ({ t₀ with sweep := d.reversed, reversals := t₀.reversals + 1 } : Trial) = t₁ at *
  have hm : (t₁.afterMove (b.mechanism.move d.reversed)).value = (none, t₁) := by
    refine hs₁.value_afterMove h.between.setup_eq ht₁.passDirection_eq ?_
    rw [hq]
    refine leftRange_of_ahead ?_ hahead
    rw [hserv.start_eq, hserv.stop_eq]
    exact s.start_le_stop
  obtain ⟨stale, line, register, b', hstep, htime, hbet, hline, hm', hc'⟩ :=
    h.between.tick_move hb hr hm hs₁ h.worked_eq hw
  have hq' : b'.mechanism.quarters = b.mechanism.quarters + d.reversed.step := by
    rw [hm', ← hq]
    rfl
  refine .step hstep ⟨1, _, by decide, htime, ⟨{ hbet with serving := hbet.serving.mono ?_ }, ?_,
    ?_, ?_, ?_, ⟨ht₁.1, ht₁.2, ht₁.3⟩⟩⟩
  · rw [hq']
    omega
  · rw [hm', hc']
    exact ⟨hk.1, hk.2, hk.3, hk.4⟩
  · rw [hc']
    exact hd
  · rw [hc']
    exact hline
  · rw [hq']
    omega

/-- The carriage goes on to the rail and turns. -/
theorem reaches (h : Phase (Leaving s o d p) b) :
    Reaches (Phase (Returning s o d.reversed (p + 1))) 5121 b := by
  refine Steady.reaches (n := 1023) (k := 1) (μ := fun m => (toRail s d m.quarters).toNat)
    (fun _ _ _ hc => hc.rest) (fun _ _ => rfl) ?_ ?_ h
  · intro m c t hc
    have hle := toRail_le hc.between.wired.aligned d
    rw [hc.between.setup_eq] at hle
    omega
  intro t b ht hc
  cases hrail : b.mechanism.atRail d with
  | true => exact Or.inl (hc.tick_turn ht hrail)
  | false =>
    right
    obtain ⟨b', t', hs, ht', hc', hq⟩ := hc.tick_on ht hrail
    have hstep := toRail_step s d b.mechanism.quarters
    have hpos := toRail_pos hrail
    rw [hc.between.setup_eq] at hpos
    refine ⟨b', t', hs, ht', hc', ?_⟩
    rw [hq]
    omega

end Leaving

end Bench

end KnitBench
