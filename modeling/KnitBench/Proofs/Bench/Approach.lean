import KnitBench.Proofs.Arrival
import KnitBench.Proofs.Bench.Supply

/-! The carriage on its way to the range: by the time its selector comes near the range, the
controller has told the carriage, and has its line. -/

namespace KnitBench.Bench

open ReferenceController Trial

variable {b : Bench ReferenceController} {s : Setup} {o : TrialOptions} {n p : Nat}
  {fresh : Prop} {m m' : Mechanism} {c c' : ReferenceController} {t : Trial} {d : Direction}

/-- The trial sweeps in direction `d`, and the pass in this direction is the next one to be
compared, after `p` others. -/
structure Bound (d : Direction) (p : Nat) (t : Trial) : Prop where
  sweep_eq : t.sweep = d
  passDirection_eq : t.passDirection = d
  passes_eq : t.passes = p

/-- A selector that has not left the range has not passed it by any clearance. -/
theorem pastRange_of_not_past (hs : c.start = t.setup.start) (hp : c.stop = t.setup.stop)
    {selected : Int} (hl : c.leftRange selected t.passDirection = false) :
    t.pastRange selected = false := by
  unfold pastRange
  cases hd : t.passDirection <;>
    simp only [hd, leftRange, decide_eq_false_iff_not] at hl ⊢ <;> omega

/-- The needle at the selector after a move. -/
theorem selected_move_eq (m : Mechanism) (d : Direction) :
    (m.move d).selected = m.setup.selectorAt d (m.move d).quarters := by
  rw [Mechanism.selected_move, Mechanism.position_eq]
  rfl

/-- As long as the selector has not left the range, nothing is compared. -/
theorem Serving.value_afterMove (h : Serving s o n fresh t c) (hs : m.setup = s)
    (hd : t.passDirection = d)
    (hl : c.leftRange (s.selectorAt d (m.move d).quarters) d = false) :
    (t.afterMove (m.move d)).value = (none, t) := by
  refine value_afterMove_of_not fun hpast => ?_
  rw [← hs, ← selected_move_eq] at hl
  subst hd
  have hnot := pastRange_of_not_past (h.start_eq.trans (congrArg Setup.start h.setup_eq.symm))
    (h.stop_eq.trans (congrArg Setup.stop h.setup_eq.symm)) hl
  exact Bool.false_ne_true (hnot.symm.trans hpast.2)

/-- A tick on the way to the range: one quarter on, and no verdict. -/
theorem Between.tick_on (h : Between s o (n + 1) fresh b.mechanism b.controller t)
    (hb : Timed 5 t b) (ht : Bound d p t) (hn : b.controller.line.worked = none)
    (hl : b.controller.leftRange (s.selectorAt d b.mechanism.quarters) d = false)
    (hl' : b.controller.leftRange (s.selectorAt d (b.mechanism.quarters + d.step)) d = false)
    (hw : (b.controller.seeing (b.mechanism.move d).levels).worked =
      (b.controller.seeing (b.mechanism.move d).levels).tracked) :
    ∃ stale line register b' t', b.step.value = (.ok .running, b') ∧ Timed 1 t' b' ∧
      Between s o n fresh b'.mechanism b'.controller t' ∧ Bound d p t' ∧ line.worked = none ∧
      b'.mechanism = { b.mechanism.move d with stale, register } ∧
      b'.controller = { (b.controller.seeing (b.mechanism.move d).levels).tracked with
        line
        register := some register
        outbox := #[]
        hall := (b.mechanism.move d).hall } := by
  have hserv := h.serving
  have hrail : b.mechanism.atRail d = false := by
    refine Mechanism.atRail_of_not_past (by rw [h.setup_eq]; exact hl) ?_
    rw [h.setup_eq, hserv.stop_eq]
    exact s.stop_lt_needleCount
  have hq := Mechanism.quarters_move_of_not_atRail h.wired.aligned hrail
  obtain ⟨hcourse, hs⟩ := hserv.deliver h.outgoing_eq
  have hr := value_tick_knitting hserv.verdict_eq hserv.stage_eq b.mechanism
  generalize t.deliver.value = t₁ at hcourse hs hr
  have ht₁ : Bound d p t₁ := ⟨hcourse.1.trans ht.1, hcourse.2.trans ht.2, hcourse.3.trans ht.3⟩
  rw [value_turn_of_not (by rw [ht₁.sweep_eq]; exact hrail), ht₁.sweep_eq] at hr
  have hm := hs.value_afterMove h.setup_eq ht₁.passDirection_eq (by rw [hq]; exact hl')
  obtain ⟨stale, line, register, b', hstep, htime, hbet, hline, hm', hc'⟩ :=
    h.tick_move hb hr hm hs hn hw
  exact ⟨stale, line, register, b', _, hstep, htime, hbet, ⟨ht₁.1, ht₁.2, ht₁.3⟩, hline, hm', hc'⟩

/-- The way in from the start side: what is left of it is enough for the first line to come. -/
structure LeadIn (s : Setup) (o : TrialOptions) (m : Mechanism) (c : ReferenceController)
    (t : Trial) : Prop where
  between : Between s o (s.shortOf m.quarters s.entry).toNat (s.carriage ≠ .garter) m c t
  coming : Coming s m c
  worked_eq : c.line.worked = none
  bound : Bound s.side.firstDirection 0 t

namespace LeadIn

theorem worked (h : LeadIn s o m c t) : c.worked = c.tracked := by
  have hw := h.coming.worked_eq h.between.wired h.between.wired.aligned h.coming.setup_eq
    (Or.inl rfl) h.coming.short h.worked_eq h.between.serving.start_eq h.between.serving.stop_eq
  rwa [h.between.wired.seeing_self] at hw

theorem rest (h : LeadIn s o m c t) :
    t.outgoing = [] ∧ Attached m c ∧ c.worked.Queues [] ∧
      LeadIn s o (m.latch c.worked.wantedRegister) (c.sliced m.hall) t := by
  obtain ⟨ho, ha, hq, hb⟩ := h.between.rest h.worked
  refine ⟨ho, ha, hq, hb, ?_, ?_, h.bound⟩
  · refine h.coming.slice h.between.wired ha.aligned h.coming.setup_eq (Or.inl rfl)
      h.coming.short h.coming.setup_eq rfl ?_ rfl ?_
    · rw [sliced, h.worked]
      rfl
    · rw [sliced, h.worked, ha.seeing_self]
  · rw [sliced, h.worked]
    exact h.worked_eq

theorem not_past {x : Int} (h : LeadIn s o m c t) (hx : 0 ≤ s.shortOf x s.entry) :
    c.leftRange (s.selectorAt s.side.firstDirection x) s.side.firstDirection = false := by
  have hserv := h.between.serving
  refine leftRange_of_ahead ?_ (ahead_of_reach hserv.start_eq hserv.stop_eq
    (fun k => Setup.reach_of_shortOf (k := k) hx) (by omega))
  rw [hserv.start_eq, hserv.stop_eq]
  exact s.start_le_stop

/-- Every tick brings the carriage one quarter closer to the entry. -/
theorem tick (h : LeadIn s o b.mechanism b.controller t) (hb : Timed 5 t b)
    (hs : 0 < s.shortOf b.mechanism.quarters s.entry) :
    ∃ b' t', b.step.value = (.ok .running, b') ∧ Timed 1 t' b' ∧
      LeadIn s o b'.mechanism b'.controller t' ∧
      s.shortOf b'.mechanism.quarters s.entry = s.shortOf b.mechanism.quarters s.entry - 1 := by
  have hst := s.shortOf_step b.mechanism.quarters s.entry
  have hnp := h.not_past (x := b.mechanism.quarters) (by omega)
  have hstop : b.controller.stop < b.mechanism.setup.model.needleCount := by
    rw [h.between.setup_eq, h.between.serving.stop_eq]
    exact s.stop_lt_needleCount
  have hq := Mechanism.quarters_move_of_not_atRail h.between.wired.aligned
    (Mechanism.atRail_of_not_past (by rw [h.between.setup_eq]; exact hnp) hstop)
  have ha := Mechanism.aligned_move h.between.wired.aligned s.side.firstDirection
  have hsh : 0 ≤ s.shortOf (b.mechanism.move s.side.firstDirection).quarters s.entry := by
    rw [hq]
    omega
  have hw := h.coming.worked_eq h.between.wired ha h.coming.setup_eq (Or.inr hq) hsh h.worked_eq
    h.between.serving.start_eq h.between.serving.stop_eq
  have hbet := h.between.serving.mono (show _ ≤
    (s.shortOf b.mechanism.quarters s.entry - 1).toNat + 1 by omega)
  obtain ⟨stale, line, register, b', t', hstep, htime, hbet', hbound, hline, hm', hc'⟩ :=
    Between.tick_on { h.between with serving := hbet } hb h.bound h.worked_eq hnp
      (h.not_past (by omega)) hw
  have hq' : b'.mechanism.quarters = (b.mechanism.move s.side.firstDirection).quarters := by
    rw [hm']
    rfl
  have hshort : s.shortOf b'.mechanism.quarters s.entry =
      s.shortOf b.mechanism.quarters s.entry - 1 := by
    rw [hq', hq, hst]
  refine ⟨b', t', hstep, htime, ⟨by rw [hshort]; exact hbet', ?_, ?_, hbound⟩, hshort⟩
  · refine h.coming.slice h.between.wired ha h.coming.setup_eq (Or.inr hq) hsh hbet'.setup_eq hq'
      ?_ ?_ ?_
    · rw [hc']
      rfl
    · rw [hc', hm']
    · rw [hc']
  · rw [hc']
    exact hline

end LeadIn

end KnitBench.Bench
