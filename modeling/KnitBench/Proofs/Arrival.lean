import KnitBench.Proofs.Pass

/-! The carriage on its way in from the start side: the controller has told it before its selector
comes near the range. -/

namespace KnitBench

open ReferenceController

namespace Setup

variable {s : Setup} {x k : Int}

/-- The travel one quarter beyond the telling magnet. -/
def entry (s : Setup) : Int := s.arrival s.tellingMagnet + s.side.firstDirection.step

theorem entry_mod_four (s : Setup) : s.entry % 4 ≠ 0 := by
  unfold entry arrival
  cases s.side <;> simp only [Side.firstDirection, Direction.step] <;> omega

/-- A quarter inwards. -/
theorem shortOf_step (s : Setup) (x y : Int) :
    s.shortOf (x + s.side.firstDirection.step) y = s.shortOf x y - 1 := by
  unfold shortOf
  cases s.side <;> simp only [Side.firstDirection, Direction.step] <;> omega

theorem eq_of_shortOf {y : Int} (h : s.shortOf x y = 0) : x = y := by
  unfold shortOf at h
  cases hs : s.side <;> simp only [hs] at h <;> omega

/-- Every carriage starts well short of its entry. -/
theorem shortOf_entry_initial (s : Setup) : 17 ≤ s.shortOf (4 * s.initialPosition) s.entry := by
  have h := Tracker.shortOf_initialPosition s
  unfold shortOf arrival firstMagnet at h
  unfold shortOf entry arrival tellingMagnet firstMagnet
  cases hc : s.carriage <;> cases hs : s.side <;>
    simp only [hc, hs, Side.firstDirection, Direction.step] at h ⊢ <;> omega

/-- Up to the entry, the cam has pushed no armature of the range. -/
theorem reach_of_shortOf (h : 0 ≤ s.shortOf x s.entry) (hk : (s.start : Int) ≤ k)
    (hk' : k ≤ s.stop) : s.reach s.side.firstDirection x k ≤ 0 := by
  have hstop := s.stop_lt_needleCount
  unfold shortOf entry arrival tellingMagnet firstMagnet at h
  unfold reach pushPoint Carriage.selectOffset
  have hn := s.model.needleCount_pos
  rcases s.runs_cases with ⟨hm, hc⟩ | ⟨hm | hm, hc | hc | hc⟩ <;>
    cases hs : s.side <;> cases hb : s.belt <;>
    simp only [hs, hc, hm, Side.firstDirection, Direction.step] at h hstop ⊢ <;>
    simp only [lead, hm, hb, Carriage.homePosition] <;> omega

end Setup

namespace ReferenceController

variable {c : ReferenceController} {s : Setup} {d : Direction} {x n : Int}

/-- Before the cam has pushed any armature of the range, the selector has the range ahead. -/
theorem ahead_of_reach (hs : c.start = s.start) (hp : c.stop = s.stop)
    (h : ∀ k : Int, (s.start : Int) ≤ k → k ≤ s.stop → s.reach d x k ≤ n) (hn : n ≤ 1) :
    c.ahead (s.selectorAt d x) d := by
  have hl := s.lead_bounds d
  have hle := s.start_le_stop
  cases d with
  | right =>
    have hr := h s.start (by omega) (by omega)
    have hb := s.reach_bounds .right x s.start
    simp only [Direction.step, reduceCtorEq, if_true, if_false] at hb
    rw [ahead, hs]
    omega
  | left =>
    have hr := h s.stop (by omega) (by omega)
    have hb := s.reach_bounds .left x s.stop
    simp only [Direction.step, reduceCtorEq, if_true, if_false] at hb
    rw [ahead, hp]
    omega

end ReferenceController

namespace ReferenceController.Tracker

variable {t : Tracker} {s : Setup} {c : ReferenceController} {x : Int} {carriage : Carriage}

/-- Whatever the controller takes the carriage for on its way in, it does not see the selector in
the range. -/
theorem inRange_of_located (h : Located s True True x t) (hx : 0 ≤ s.shortOf x s.entry)
    (hs : c.start = s.start) (hp : c.stop = s.stop) (hc : t.carriage = some carriage) :
    c.inRange (t.selected carriage s.side.firstDirection) = false := by
  cases h with
  | unseen hn =>
    rw [hn] at hc
    cases hc
  | seen hc' hpos =>
    obtain rfl := Option.some.inj (hc'.symm.trans hc)
    have ha := ahead_of_reach hs hp (fun k => Setup.reach_of_shortOf (k := k) hx) (by omega)
    unfold selected
    rw [hpos]
    exact inRange_of_ahead ha
  | half hg hc' _ hpos hb =>
    obtain rfl := Option.some.inj (hc'.symm.trans hc)
    have hstop := s.stop_lt_needleCount
    unfold selected
    rw [inRange, hs, hp, decide_eq_false_iff_not, hpos]
    unfold Before Setup.tellingMagnet at hb
    unfold halfShift Carriage.selectOffset
    cases hside : s.side <;>
      simp only [hg, hside, Setup.shortOf, Setup.arrival, Side.firstDirection, Direction.step,
        Carriage.homePosition] at hb ⊢ <;> omega
  | lost _ _ _ hn => exact absurd trivial hn

/-- At the entry the carriage has been told. -/
theorem seen_of_located (h : Located s True True s.entry t) :
    t.carriage = some s.carriage ∧ t.position = s.entry / 4 ∧
      (t.belt = none ∨ t.belt = some s.belt) := by
  cases h with
  | seen hc hp hb => exact ⟨hc, hp, hb⟩
  | unseen _ _ hb =>
    exfalso
    simp only [not_true_eq_false, false_and, false_or, Before, true_and] at hb
    unfold Setup.entry Setup.arrival Setup.tellingMagnet Setup.firstMagnet Setup.shortOf at hb
    cases hc : s.carriage <;> cases hs : s.side <;>
      simp only [hc, hs, Side.firstDirection, Direction.step] at hb <;> omega
  | half hg _ _ _ hb =>
    exfalso
    unfold Before Setup.entry Setup.arrival Setup.shortOf at hb
    cases hs : s.side <;> simp only [hs, Side.firstDirection, Direction.step] at hb <;> omega
  | lost _ _ _ hn => exact absurd trivial hn

end ReferenceController.Tracker

/-- Mechanism and controller while the carriage comes in from the start side. -/
structure Coming (s : Setup) (m : Mechanism) (c : ReferenceController) : Prop where
  setup_eq : m.setup = s
  model_eq : c.model = s.model
  hall_eq : c.hall = m.hall
  located : Tracker.Located s True True m.quarters c.tracker
  direction_eq : c.tracker.direction = some s.side.firstDirection ∨
    (c.tracker.direction = none ∧ m.quarters = 4 * s.initialPosition)
  short : 0 ≤ s.shortOf m.quarters s.entry

namespace Coming

variable {s : Setup} {m m' m'' : Mechanism} {c c' : ReferenceController}

theorem initial (s : Setup) :
    Coming s (.initial s)
      (Controller.raiseLevels (Mechanism.initial s).levels (powerOn s.model)) := by
  have hq : (Mechanism.initial s).quarters = 4 * s.initialPosition := by
    simp [Mechanism.quarters, Mechanism.initial]
  have hs := s.shortOf_entry_initial
  rw [raiseLevels_eq]
  refine ⟨rfl, rfl, rfl, ?_, Or.inr ⟨rfl, hq⟩, by rw [hq]; omega⟩
  rw [hq]
  exact Tracker.located_initial s True

/-- What the controller knows of the carriage after one more slice of time. -/
theorem track (h : Coming s m c) (hw : Wired m c) (ha : m'.Aligned) (hs : m'.setup = s)
    (hy : m'.quarters = m.quarters ∨
      m'.quarters = m.quarters + s.side.firstDirection.step) :
    Tracker.Located s True True m'.quarters (c.seeing m'.levels).tracked.tracker ∧
      ((c.seeing m'.levels).tracked.tracker.direction = some s.side.firstDirection ∨
        ((c.seeing m'.levels).tracked.tracker.direction = none ∧
          m'.quarters = 4 * s.initialPosition)) := by
  have hh : c.hall = Mechanism.hallAt s (m.quarters / 4) := by
    rw [h.hall_eq, hw.aligned.hall_eq, h.setup_eq, m.position_eq]
  have hb : m'.levels.belt = s.levelAt m'.quarters := by
    rw [← hs]
    exact Mechanism.belt_levels ha
  have hy' : m'.quarters = m.quarters ∨ m'.quarters = m.quarters + 1 ∨
      m'.quarters = m.quarters - 1 := by
    cases hd : s.side.firstDirection <;> simp only [hd, Direction.step] at hy <;> omega
  have hin : True → 0 ≤ s.shortOf m.quarters m'.quarters := by
    unfold Setup.shortOf
    cases hside : s.side <;> simp only [hside, Side.firstDirection, Direction.step] at hy ⊢ <;>
      omega
  have htr : (c.seeing m'.levels).tracked.tracker =
      (c.tracker.track s.model m'.levels c.hall).value := by
    rw [← h.model_eq]
    rfl
  rw [htr]
  constructor
  · rw [hh]
    exact Tracker.located_track (Tracker.located_sense h.located) hw.val_quarter m'.quarter_levels
      hb hy' hin
  · rw [Tracker.direction_track hw.val_quarter m'.quarter_levels hy']
    rcases hy with hy | hy
    · rw [hy, Tracker.heading_self]
      exact h.direction_eq
    · left
      rw [hy]
      cases s.side.firstDirection
      · exact Tracker.heading_pred ..
      · exact Tracker.heading_succ ..

/-- A slice of time on the way in, after a move inwards or none. -/
theorem slice (h : Coming s m c) (hw : Wired m c) (ha : m'.Aligned) (hs : m'.setup = s)
    (hy : m'.quarters = m.quarters ∨
      m'.quarters = m.quarters + s.side.firstDirection.step)
    (hx : 0 ≤ s.shortOf m'.quarters s.entry) (hs' : m''.setup = s)
    (hq : m''.quarters = m'.quarters) (hc : c'.model = c.model) (hh : c'.hall = m''.hall)
    (ht : c'.tracker = (c.seeing m'.levels).tracked.tracker) : Coming s m'' c' := by
  obtain ⟨hl, hd⟩ := h.track hw ha hs hy
  rw [← ht, ← hq] at hl hd
  exact ⟨hs', hc.trans h.model_eq, hh, hl, hd, by rw [hq]; exact hx⟩

/-- Messages do not come between. -/
theorem answers (h : Coming s m c) (ha : c.Answers c') (hm : c'.model = s.model) :
    Coming s m c' := by
  refine ⟨h.setup_eq, hm, ha.hall_eq.trans h.hall_eq, ?_, ?_, h.short⟩
  · rw [ha.tracker_eq]
    exact h.located
  · rw [ha.tracker_eq]
    exact h.direction_eq

/-- On the way in, a line that is there already is not begun. -/
theorem worked_eq (h : Coming s m c) (hw : Wired m c) (ha : m'.Aligned) (hs : m'.setup = s)
    (hy : m'.quarters = m.quarters ∨
      m'.quarters = m.quarters + s.side.firstDirection.step)
    (hx : 0 ≤ s.shortOf m'.quarters s.entry) (hn : c.line.worked = none)
    (hstart : c.start = s.start) (hstop : c.stop = s.stop) :
    (c.seeing m'.levels).worked = (c.seeing m'.levels).tracked := by
  obtain ⟨hl, hd⟩ := h.track hw ha hs hy
  refine worked_eq_tracked hn fun _ carriage d hc hd' => ?_
  rcases hd with hd | ⟨hd, -⟩
  · obtain rfl := Option.some.inj (hd.symm.trans hd')
    exact Tracker.inRange_of_located (c := c.seeing m'.levels) hl hx hstart hstop hc
  · rw [hd] at hd'
    cases hd'

/-- At the entry one more slice of time tells the controller the belt phase as well. -/
theorem known (h : Coming s m c) (hw : Wired m c) (hx : m.quarters = s.entry) :
    Known m c.tracked ∧ c.tracked.tracker.direction = some s.side.firstDirection := by
  have hseen := h.located
  rw [hx] at hseen
  obtain ⟨hc, hp, hb⟩ := Tracker.seen_of_located hseen
  have hd : c.tracker.direction = some s.side.firstDirection := by
    rcases h.direction_eq with hd | ⟨-, hi⟩
    · exact hd
    · have hs := s.shortOf_entry_initial
      rw [← hi, hx] at hs
      unfold Setup.shortOf at hs
      cases hside : s.side <;> simp only [hside] at hs <;> omega
  have hh : c.hall = Mechanism.hallAt s (m.quarters / 4) := by
    rw [h.hall_eq, hw.aligned.hall_eq, h.setup_eq, m.position_eq]
  have hbelt : m.levels.belt = s.levelAt m.quarters := by
    rw [← h.setup_eq]
    exact Mechanism.belt_levels hw.aligned
  rw [← hx] at hp
  obtain ⟨south, ht⟩ := Tracker.value_track_seen (l := m.levels) hc hp hw.val_quarter
    m.quarter_levels hbelt (Or.inl rfl)
  have htr : c.tracked.tracker = (c.tracker.track s.model m.levels
      (Mechanism.hallAt s (m.quarters / 4))).value := by
    rw [← hh, ← h.model_eq, ← hw.levels_eq]
    rfl
  refine ⟨⟨?_, ?_, ?_, ?_⟩, ?_⟩
  · rw [h.setup_eq]
    exact h.model_eq
  · rw [htr, ht, h.setup_eq]
  · rw [htr, ht, m.position_eq]
  · intro hm
    rw [h.setup_eq] at hm ⊢
    rw [htr, ht]
    exact Tracker.settled_eq hb hm (by rw [hx]; exact s.entry_mod_four)
  · rw [htr, ht]
    dsimp only
    rw [Tracker.heading_self, hd]

end Coming

end KnitBench
