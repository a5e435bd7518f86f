import KnitBench.Proofs.Bench.Approach

/-! The carriage beyond the range, after a pass. With most carriages the trial has compared the
needles at the move that took the selector out of the range, with a garter carriage it does some
needles later. -/

namespace KnitBench.Bench

open ReferenceController Trial

variable {b : Bench ReferenceController} {s : Setup} {o : TrialOptions} {n n' p : Nat}
  {fresh fresh' : Prop} {m m' : Mechanism} {c : ReferenceController} {t t₁ t₂ : Trial}
  {d : Direction}

/-- The selector has left the range in direction `d` and goes on to the rail. -/
structure Beyond (s : Setup) (o : TrialOptions) (d : Direction) (n : Nat) (fresh : Prop)
    (m : Mechanism) (c : ReferenceController) (t : Trial) : Prop where
  between : Between s o n fresh m c t
  known : Known m c
  direction_eq : c.tracker.direction = some d
  worked_eq : c.line.worked = none
  past : c.leftRange (s.selectorAt d m.quarters) d = true
  sweep_eq : t.sweep = d

/-- The way, in quarters, that the selector of a garter carriage still has to go until the needles
are compared. -/
def clearingWay (s : Setup) (d : Direction) (x : Int) : Int :=
  match d with
  | .right => 4 * (s.stop + garterClearance + 1) - x
  | .left => x + 1 - 4 * (s.start - garterClearance)

/-- A garter carriage beyond the range, the pass not compared yet. -/
structure Clearing (s : Setup) (o : TrialOptions) (d : Direction) (p : Nat) (m : Mechanism)
    (c : ReferenceController) (t : Trial) : Prop
    extends Beyond s o d (clearingWay s d m.quarters).toNat True m c t where
  garter : s.carriage = .garter
  way_pos : 0 < clearingWay s d m.quarters
  passDirection_eq : t.passDirection = d
  passes_eq : t.passes = p
  knitted : Knitted s o m.needles

/-- The most ticks that a trial may keep the controller waiting for a line. -/
def patience : Nat := 11

/-- The carriage beyond the range, the pass in direction `d` compared. -/
structure Leaving (s : Setup) (o : TrialOptions) (d : Direction) (p : Nat) (m : Mechanism)
    (c : ReferenceController) (t : Trial) : Prop
    extends Beyond s o d patience (s.carriage ≠ .garter) m c t where
  passDirection_eq : t.passDirection = d.reversed
  passes_eq : t.passes = p + 1
  reversals_eq : t.reversals = 0

/-- The pass has been compared: the next step brings the verdict, or the trial goes on. -/
def Compared (s : Setup) (o : TrialOptions) (d : Direction) (p : Nat)
    (b : Bench ReferenceController) : Prop :=
  match judgement s o p d with
  | some v => b.step.value.1 = .ok (.finished v)
  | none => Phase (Leaving s o d p) b

namespace Compared

variable {v : Verdict}

/-- A pass that decides is the last one. -/
theorem of_some (hj : judgement s o p d = some v) :
    Compared s o d p b ↔ b.step.value.1 = .ok (.finished v) := by
  rw [Compared, hj]

theorem of_none (hj : judgement s o p d = none) :
    Compared s o d p b ↔ Phase (Leaving s o d p) b := by
  rw [Compared, hj]

end Compared

namespace Beyond

/-- With the selector off the range, the next line waits until the carriage comes back. -/
theorem worked_eq_tracked (h : Beyond s o d n fresh m c t) (ho : Onward d m m' c)
    (hl : c.leftRange (s.selectorAt d m'.quarters) d = true) :
    (c.seeing m'.levels).worked = (c.seeing m'.levels).tracked := by
  refine h.known.worked_eq h.between.wired ho h.worked_eq ?_
  rw [ho.setup_eq, h.between.setup_eq]
  exact inRange_of_past hl

theorem rest (h : Beyond s o d n fresh m c t) :
    t.outgoing = [] ∧ Attached m c ∧ c.worked.Queues [] ∧
      Beyond s o d n fresh (m.latch c.worked.wantedRegister) (c.sliced m.hall) t := by
  have ho : Onward d m m c := .still h.between.wired.aligned h.direction_eq
  have hw := h.worked_eq_tracked ho h.past
  obtain ⟨hk, hd⟩ := h.known.track h.between.wired ho
  rw [h.between.wired.seeing_self] at hw hk hd
  obtain ⟨hout, ha, hq, hb⟩ := h.between.rest hw
  refine ⟨hout, ha, hq, hb, ?_, ?_, ?_, ?_, h.sweep_eq⟩ <;> rw [sliced, hw]
  · exact ⟨hk.1, hk.2, hk.3, hk.4⟩
  · exact hd
  · exact h.worked_eq
  · exact h.past

/-- Farther on, the selector stays beyond the range. -/
theorem past_step (h : Beyond s o d n fresh m c t) :
    c.leftRange (s.selectorAt d (m.quarters + d.step)) d = true := by
  have hp := h.past
  have hs := s.selectorAt_step d m.quarters
  cases d <;> simp only [leftRange, decide_eq_true_iff] at hp ⊢ <;>
    simp only [Direction.step] at hs ⊢ <;> omega

/-- Away from the rail a tick of the trial goes on in the same direction. -/
theorem exists_value_tick (h : Beyond s o d (n + 1) fresh m c t) (hrail : m.atRail d = false) :
    ∃ t₁, (t.tick m).value = (some d, t₁) ∧ t.OnCourse t₁ ∧ Serving s o n fresh t₁ c := by
  have hserv := h.between.serving
  obtain ⟨hcourse, hs⟩ := hserv.deliver h.between.outgoing_eq
  have hsweep := hcourse.sweep_eq.trans h.sweep_eq
  refine ⟨t.deliver.value, ?_, hcourse, hs⟩
  rw [value_tick_knitting hserv.verdict_eq hserv.stage_eq,
    value_turn_of_not (by rw [hsweep]; exact hrail), hsweep]

/-- A tick away from the rail: one quarter on. -/
theorem tick_on (h : Beyond s o d n fresh b.mechanism b.controller t) (hb : Timed 5 t b)
    (hrail : b.mechanism.atRail d = false) (hr : (t.tick b.mechanism).value = (some d, t₁))
    (hm : (t₁.afterMove (b.mechanism.move d)).value = (none, t₂))
    (hs : Serving s o n' fresh' t₂ b.controller) (hsweep : t₂.sweep = d) :
    ∃ stale register b', b.step.value = (.ok .running, b') ∧
      Timed 1 { t₂ with outgoing := [] } b' ∧
      Beyond s o d n' fresh' b'.mechanism b'.controller { t₂ with outgoing := [] } ∧
      b'.mechanism = { b.mechanism.move d with stale, register } := by
  have hq := Mechanism.quarters_move_of_not_atRail h.between.wired.aligned hrail
  have ho : Onward d b.mechanism (b.mechanism.move d) b.controller :=
    .move h.between.wired.aligned hrail
  have hp : b.controller.leftRange (s.selectorAt d (b.mechanism.move d).quarters) d = true := by
    rw [hq]
    exact h.past_step
  obtain ⟨hk, hd⟩ := h.known.track h.between.wired ho
  obtain ⟨stale, line, register, b', hstep, htime, hbet, hline, hm', hc'⟩ :=
    h.between.tick_move hb hr hm hs h.worked_eq (h.worked_eq_tracked ho hp)
  refine ⟨stale, register, b', hstep, htime, ⟨hbet, ?_, ?_, ?_, ?_, hsweep⟩, hm'⟩
  · rw [hm', hc']
    exact ⟨hk.1, hk.2, hk.3, hk.4⟩
  · rw [hc']
    exact hd
  · rw [hc']
    exact hline
  · rw [hm', hc']
    exact hp

end Beyond

/-- Beyond the range no needle of it changes any more. -/
theorem knitted_move (hk : Knitted s o m.needles) (hse : m.setup = s) (hs : c.start = s.start)
    (hp : c.stop = s.stop)
    (hl : c.leftRange (s.selectorAt d (m.move d).quarters) d = true) :
    Knitted s o (m.move d).needles := by
  intro k hle
  have hrange := s.start_le_stop
  refine (Mechanism.needles_move_of_ne ?_).trans (hk k hle)
  rw [selected_move_eq, hse]
  cases d <;> simp only [leftRange, hs, hp, decide_eq_true_iff] at hl <;> omega

theorem clearingWay_step (s : Setup) (d : Direction) (x : Int) :
    clearingWay s d (x + d.step) = clearingWay s d x - 1 := by
  unfold clearingWay
  cases d <;> simp only [Direction.step] <;> omega

/-- A garter carriage has cleared the range when no way is left. -/
theorem pastRange_garter (hs : t.setup = s) (hg : s.carriage = .garter) (hd : t.passDirection = d)
    (x : Int) : t.pastRange (s.selectorAt d x) = decide (clearingWay s d x ≤ 0) := by
  have hsel : s.selectorAt d x = x / 4 := by
    unfold Setup.selectorAt Carriage.selectOffset
    rw [hg]
    cases d <;> simp only [Carriage.homePosition, Direction.step] <;> omega
  have hc : t.clearance = garterClearance := by
    unfold clearance
    rw [hs, if_pos hg]
  unfold pastRange
  rw [hs, hd, hc, hsel]
  cases d <;> refine decide_eq_decide.mpr ?_ <;>
    simp only [clearingWay, garterClearance] <;> omega

namespace Clearing

theorem rest (h : Clearing s o d p m c t) :
    t.outgoing = [] ∧ Attached m c ∧ c.worked.Queues [] ∧
      Clearing s o d p (m.latch c.worked.wantedRegister) (c.sliced m.hall) t := by
  obtain ⟨hout, ha, hq, hb⟩ := h.toBeyond.rest
  exact ⟨hout, ha, hq, hb, h.garter, h.way_pos, h.passDirection_eq, h.passes_eq, h.knitted⟩

theorem atRail_eq (h : Clearing s o d p m c t) : m.atRail d = false := by
  have hw := h.way_pos
  have hp := m.position_eq
  have hlt := s.stop_lt_needleCount
  have hse := h.between.setup_eq
  unfold clearingWay garterClearance at hw
  unfold Mechanism.atRail
  rw [hse]
  cases d <;> simp only [decide_eq_false_iff_not] at hw ⊢ <;>
    simp only [Setup.leftRail, Setup.rightRail, margin] <;> omega

/-- With a way still left, a tick goes on. -/
theorem tick_on (h : Clearing s o d p b.mechanism b.controller t) (hb : Timed 5 t b)
    (hway : 1 < clearingWay s d b.mechanism.quarters) :
    ∃ b' t', b.step.value = (.ok .running, b') ∧ Timed 1 t' b' ∧
      Clearing s o d p b'.mechanism b'.controller t' ∧
      b'.mechanism.quarters = b.mechanism.quarters + d.step := by
  have hserv := h.between.serving
  have hrail := h.atRail_eq
  have hstep := clearingWay_step s d b.mechanism.quarters
  have hq := Mechanism.quarters_move_of_not_atRail h.between.wired.aligned hrail
  have hn : (clearingWay s d b.mechanism.quarters).toNat =
      (clearingWay s d (b.mechanism.quarters + d.step)).toNat + 1 := by omega
  have hbeyond := h.toBeyond
  rw [hn] at hbeyond
  obtain ⟨t₁, hr, hcourse, hs⟩ := hbeyond.exists_value_tick hrail
  have hm : (t₁.afterMove (b.mechanism.move d)).value = (none, t₁) := by
    refine value_afterMove_of_not fun hpast => ?_
    have hpr := pastRange_garter hs.setup_eq h.garter
      (hcourse.passDirection_eq.trans h.passDirection_eq) (b.mechanism.quarters + d.step)
    rw [← hq, ← h.between.setup_eq, ← selected_move_eq, hpast.2, h.between.setup_eq, hq] at hpr
    have hle := of_decide_eq_true hpr.symm
    omega
  obtain ⟨stale, register, b', hstep', htime, hbey, hm'⟩ :=
    hbeyond.tick_on hb hrail hr hm hs (hcourse.sweep_eq.trans h.sweep_eq)
  have hq' : b'.mechanism.quarters = b.mechanism.quarters + d.step := by
    rw [hm', ← hq]
    rfl
  have hp : b.controller.leftRange (s.selectorAt d (b.mechanism.move d).quarters) d = true := by
    rw [hq]
    exact h.past_step
  refine ⟨b', _, hstep', htime, ⟨by rw [hq']; exact hbey, h.garter, ?_,
    hcourse.passDirection_eq.trans h.passDirection_eq, hcourse.passes_eq.trans h.passes_eq, ?_⟩,
    hq'⟩
  · rw [hq']
    omega
  · rw [hm']
    exact knitted_move h.knitted h.between.setup_eq hserv.start_eq hserv.stop_eq hp

/-- At the end of the way the needles are compared. -/
theorem tick_compare (h : Clearing s o d p b.mechanism b.controller t) (hb : Timed 5 t b)
    (hway : clearingWay s d b.mechanism.quarters = 1) : Reaches (Compared s o d p) 1 b := by
  have hserv := h.between.serving
  have hrail := h.atRail_eq
  have hstep := clearingWay_step s d b.mechanism.quarters
  have hq := Mechanism.quarters_move_of_not_atRail h.between.wired.aligned hrail
  have hbeyond := h.toBeyond
  rw [hway] at hbeyond
  obtain ⟨t₁, hr, hcourse, hs⟩ := hbeyond.exists_value_tick (n := 0) hrail
  have hd := hcourse.passDirection_eq.trans h.passDirection_eq
  have hpasses := hcourse.passes_eq.trans h.passes_eq
  have hsweep := hcourse.sweep_eq.trans h.sweep_eq
  have hp : b.controller.leftRange (s.selectorAt d (b.mechanism.move d).quarters) d = true := by
    rw [hq]
    exact h.past_step
  have hk := knitted_move h.knitted h.between.setup_eq hserv.start_eq hserv.stop_eq hp
  have hpast : t₁.pastRange (b.mechanism.move d).selected = true := by
    rw [selected_move_eq, hq, h.between.setup_eq, pastRange_garter hs.setup_eq h.garter hd]
    exact decide_eq_true (by omega)
  have hdel : t₁.lineDelivered = true := by
    refine hs.delivered trivial ?_
    cases hs.supply with
    | waiting w hw => omega
    | answering _ _ ho =>
      right
      rw [ho]
      exact List.cons_ne_nil _ _
    | holding hready => exact Or.inl hready
  obtain ⟨hfst, hsnd⟩ := value_afterMove hs.setup_eq hs.options_eq hk hs.verdict_eq hs.stage_eq
    hdel hd.symm hpast
  rw [hpasses, hd] at hfst hsnd
  have hagree := t₁.agrees_afterMove (b.mechanism.move d)
  generalize hv : (t₁.afterMove (b.mechanism.move d)).value = after at hfst hsnd hagree
  obtain ⟨v?, t₂⟩ := after
  cases hj : judgement s o p d with
  | some v =>
    rw [hj] at hfst
    subst hfst
    refine .now ((Compared.of_some hj).mpr ?_) 1
    have ho : Onward d b.mechanism (b.mechanism.move d) b.controller :=
      .move h.between.wired.aligned hrail
    have hqueues : (b.controller.seeing (b.mechanism.move d).levels).worked.Queues [] := by
      rw [h.toBeyond.worked_eq_tracked ho hp]
      exact h.between.empty
    exact hb.tick_verdict hr hv h.between.wired.toAttached hqueues nofun (heard_nil _)
      (by rw [hagree.outgoing_eq]; exact hs.fits_outgoing)
  | none =>
    rw [hj] at hfst
    subst hfst
    obtain rfl := hsnd hj
    have hs₂ : Serving s o patience (s.carriage ≠ .garter) _ b.controller :=
      (hs.congr_trial hagree hs.verdict_eq fun hg => absurd h.garter hg).mono (by decide)
    obtain ⟨stale, register, b', hstep', htime, hbey, hm'⟩ :=
      hbeyond.tick_on hb hrail hr hv hs₂ hsweep
    exact .step hstep' ((Compared.of_none hj).mpr
      ⟨1, _, by decide, htime, hbey, rfl, rfl, rfl⟩)

/-- The clearance is not wide. -/
theorem way_le (h : Clearing s o d p m c t) : clearingWay s d m.quarters ≤ 48 := by
  have hp := h.past
  have hs := h.between.serving.start_eq
  have hst := h.between.serving.stop_eq
  unfold Setup.selectorAt Carriage.selectOffset at hp
  rw [h.garter] at hp
  unfold clearingWay garterClearance
  cases d <;> simp only [leftRange, decide_eq_true_iff, hs, hst] at hp <;>
    simp only [Carriage.homePosition, Direction.step] at hp ⊢ <;> omega

/-- A garter carriage goes on until the needles are compared. -/
theorem reaches (h : Phase (Clearing s o d p) b) : Reaches (Compared s o d p) 246 b := by
  refine Steady.reaches (n := 48) (k := 1) (μ := fun m => (clearingWay s d m.quarters).toNat)
    (fun _ _ _ hc => hc.rest) (fun _ _ => rfl) ?_ ?_ h
  · intro m c t hc
    have hle := hc.way_le
    omega
  intro t b ht hc
  have hpos := hc.way_pos
  by_cases hway : clearingWay s d b.mechanism.quarters = 1
  · exact Or.inl (hc.tick_compare ht hway)
  · right
    obtain ⟨b', t', hs, ht', hc', hq⟩ := hc.tick_on ht (by omega)
    have hstep := clearingWay_step s d b.mechanism.quarters
    refine ⟨b', t', hs, ht', hc', ?_⟩
    rw [hq]
    omega

end Clearing

end KnitBench.Bench
