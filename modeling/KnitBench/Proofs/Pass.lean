import KnitBench.Proofs.Controller.Window
import KnitBench.Proofs.Mechanism.Pass
import KnitBench.Proofs.Wiring

/-! A pass with a line: the controller knows the carriage and holds a line, and the selector has yet
to leave the range. -/

namespace KnitBench

namespace ReferenceController

variable {c : ReferenceController} {d : Direction} {carriage : Carriage}

/-- Whether the selector has the range still ahead. -/
def ahead (c : ReferenceController) (selected : Int) : Direction → Prop
  | .right => selected < c.start
  | .left => (c.stop : Int) < selected

/-- On its way through the range the selector is ahead of it, then in it, then past it. -/
theorem inRange_of_not_ahead {selected : Int} (ha : ¬ c.ahead selected d)
    (hl : c.leftRange selected d = false) : c.inRange selected = true := by
  unfold inRange
  cases d <;>
    simp only [ahead, leftRange, decide_eq_false_iff_not, decide_eq_true_iff] at ha hl ⊢ <;> omega

theorem leftRange_of_ahead {selected : Int} (hs : c.start ≤ c.stop) (ha : c.ahead selected d) :
    c.leftRange selected d = false := by
  cases d <;> simp only [ahead, leftRange, decide_eq_false_iff_not] at ha ⊢ <;> omega

theorem inRange_of_past {selected : Int} (hl : c.leftRange selected d = true) :
    c.inRange selected = false := by
  unfold inRange
  cases d <;> simp only [leftRange, decide_eq_false_iff_not, decide_eq_true_iff] at hl ⊢ <;> omega

theorem inRange_of_ahead {selected : Int} (ha : c.ahead selected d) :
    c.inRange selected = false := by
  unfold inRange
  cases d <;> simp only [ahead, decide_eq_false_iff_not] at ha ⊢ <;> omega

/-- A line is noted as entered as soon as the selector is no longer ahead of the range. -/
theorem entered_eq (carriage : Carriage) (h : c.line.worked = some d ∨ (c.line.worked = none ∧
    c.leftRange (c.tracker.selected carriage d) d = false)) :
    c.entered carriage d = some d ∨ (c.entered carriage d = none ∧ c.line.worked = none ∧
      c.ahead (c.tracker.selected carriage d) d) := by
  unfold entered
  rcases h with h | ⟨h, hl⟩
  · rw [h]
    exact Or.inl rfl
  · rw [h]
    by_cases ha : c.ahead (c.tracker.selected carriage d) d
    · rw [inRange_of_ahead ha]
      exact Or.inr ⟨rfl, rfl, ha⟩
    · rw [inRange_of_not_ahead ha hl]
      exact Or.inl rfl

end ReferenceController

open ReferenceController

/-- As long as the selector has not left the range, no rail is near. -/
theorem Mechanism.atRail_of_not_past {m : Mechanism} {c : ReferenceController} {d : Direction}
    (hl : c.leftRange (m.setup.selectorAt d m.quarters) d = false)
    (hstop : c.stop < m.setup.model.needleCount) : m.atRail d = false := by
  have hp := m.position_eq
  have hh := m.setup.carriage.homePosition_bounds
  unfold Setup.selectorAt Carriage.selectOffset at hl
  generalize m.setup.carriage.homePosition = home at hl hh
  cases d <;> simp only [leftRange, decide_eq_false_iff_not] at hl <;>
    simp only [Direction.step] at hl <;>
    simp only [atRail, decide_eq_false_iff_not] <;>
    simp only [Setup.leftRail, Setup.rightRail, margin] <;> omega

/-- The controller knows the carriage, its place, and how the belt is coupled where that matters. -/
structure Known (m : Mechanism) (c : ReferenceController) : Prop where
  model_eq : c.model = m.setup.model
  carriage_eq : c.tracker.carriage = some m.setup.carriage
  position_eq : c.tracker.position = m.position
  belt_eq : m.setup.model ≠ .kh270 → c.tracker.belt = some m.setup.belt

/-- A pass is under way: the controller holds a line, and the selector is ahead of the range or in
it. -/
structure Underway (d : Direction) (m : Mechanism) (c : ReferenceController) : Prop
    extends Known m c where
  mode_eq : c.mode = .knitting
  ready_eq : c.line.ready = true
  start_le : c.start ≤ c.stop
  entered : (c.line.worked = none ∧ c.ahead (m.setup.selectorAt d m.quarters) d) ∨
    (c.line.worked = some d ∧ c.leftRange (m.setup.selectorAt d m.quarters) d = false)

variable {d : Direction} {m m' : Mechanism} {c : ReferenceController} {ms : List (List UInt8)}

/-- The carriage has gone on in direction `d`, or has stayed where it was after such a move. -/
structure Onward (d : Direction) (m m' : Mechanism) (c : ReferenceController) : Prop where
  setup_eq : m'.setup = m.setup
  register_eq : m'.register = m.register
  aligned : m'.Aligned
  quarters_eq : m'.quarters = m.quarters + d.step ∨
    (m'.quarters = m.quarters ∧ c.tracker.direction = some d)

/-- The carriage stays. -/
theorem Onward.still (ha : m.Aligned) (hd : c.tracker.direction = some d) : Onward d m m c :=
  ⟨rfl, rfl, ha, Or.inr ⟨rfl, hd⟩⟩

/-- The carriage moves. -/
theorem Onward.move (ha : m.Aligned) (hr : m.atRail d = false) : Onward d m (m.move d) c :=
  ⟨rfl, rfl, Mechanism.aligned_move ha d, Or.inl (Mechanism.quarters_move_of_not_atRail ha hr)⟩

theorem Onward.shown (ho : Onward d m m' c) (stale : Bool) : Onward d m { m' with stale } c :=
  ⟨ho.setup_eq, ho.register_eq, Mechanism.aligned_shown ho.aligned stale, ho.quarters_eq⟩

theorem Onward.attached (ho : Onward d m m' c) (ha : Attached m c) :
    Attached m' (c.seeing m'.levels) where
  aligned := ho.aligned
  levels_eq := rfl
  register_eq r hr := ho.register_eq.trans (ha.register_eq r hr)
  queues := ha.queues

theorem Known.hall_eq (hk : Known m c) (hw : Wired m c) : c.hall = m.hall := by
  rcases hw.hall_eq with h | ⟨-, hc, -⟩
  · exact h
  · rw [hk.carriage_eq] at hc
    cases hc

/-- A carriage that is known stays known. -/
theorem Known.track (hk : Known m c) (hw : Wired m c) (ho : Onward d m m' c) :
    Known m' (c.seeing m'.levels).tracked ∧
      (c.seeing m'.levels).tracked.tracker.direction = some d := by
  have hh : c.hall = Mechanism.hallAt m.setup (m.quarters / 4) := by
    rw [hk.hall_eq hw, hw.aligned.hall_eq, ← m.position_eq]
  have hb : m'.levels.belt = m.setup.levelAt m'.quarters := by
    rw [← ho.setup_eq]
    exact Mechanism.belt_levels ho.aligned
  have hy : m'.quarters = m.quarters ∨ m'.quarters = m.quarters + 1 ∨
      m'.quarters = m.quarters - 1 := by
    rcases ho.quarters_eq with h | ⟨h, -⟩
    · cases d <;> simp only [Direction.step] at h <;> omega
    · exact Or.inl h
  obtain ⟨south, ht⟩ := Tracker.value_track_seen (l := m'.levels) hk.carriage_eq
    (hk.position_eq.trans m.position_eq) hw.val_quarter m'.quarter_levels hb hy
  have htr : (c.seeing m'.levels).tracked.tracker =
      (c.tracker.track m.setup.model m'.levels
        (Mechanism.hallAt m.setup (m.quarters / 4))).value := by
    rw [← hh, ← hk.model_eq]
    rfl
  have hse := ho.setup_eq
  refine ⟨⟨?_, ?_, ?_, ?_⟩, ?_⟩
  · rw [hse]
    exact hk.model_eq
  · rw [htr, ht, hse]
  · rw [htr, ht, m'.position_eq]
  · intro hm
    rw [hse] at hm ⊢
    rw [htr, ht]
    dsimp only
    rw [hk.belt_eq hm]
    exact Tracker.settled_some _
  · rw [htr, ht]
    dsimp only
    rcases ho.quarters_eq with h | ⟨h, hd⟩
    · rw [h]
      cases d
      · exact Tracker.heading_pred ..
      · exact Tracker.heading_succ ..
    · rw [h, Tracker.heading_self, hd]

theorem Known.selected_eq (hk : Known m c) (d : Direction) :
    c.tracker.selected m.setup.carriage d = m.setup.selectorAt d m.quarters := by
  unfold Tracker.selected Setup.selectorAt
  rw [hk.position_eq, m.position_eq]

/-- While the selector is off the range, a line that has not been begun is left alone. -/
theorem Known.worked_eq (hk : Known m c) (hw : Wired m c) (ho : Onward d m m' c)
    (hn : c.line.worked = none)
    (hout : c.inRange (m'.setup.selectorAt d m'.quarters) = false) :
    (c.seeing m'.levels).worked = (c.seeing m'.levels).tracked := by
  obtain ⟨hk', hd⟩ := hk.track hw ho
  refine worked_eq_tracked hn fun _ carriage d' hc hd' => ?_
  obtain rfl := Option.some.inj (hk'.carriage_eq.symm.trans hc)
  obtain rfl := Option.some.inj (hd.symm.trans hd')
  rw [hk'.selected_eq]
  exact hout

/-- One slice of a pass: the line goes on, or it is finished because the selector has left the
range. -/
theorem Underway.worked (hu : Underway d m c) (hw : Wired m c) (ho : Onward d m m' c) :
    (c.leftRange (m'.setup.selectorAt d m'.quarters) d = false ∧ ∃ worked,
      (c.seeing m'.levels).worked =
        (c.seeing m'.levels).tracked.noting worked ∧
      ((worked = none ∧ c.ahead (m'.setup.selectorAt d m'.quarters) d) ∨ worked = some d)) ∨
    (c.leftRange (m'.setup.selectorAt d m'.quarters) d = true ∧
      (c.seeing m'.levels).worked =
        ((c.seeing m'.levels).tracked.noting (some d)).finishLine.value) := by
  obtain ⟨hk, hd⟩ := hu.toKnown.track hw ho
  have hsel := hk.selected_eq d
  have hv := value_workLine (c := (c.seeing m'.levels).tracked) hu.mode_eq hu.ready_eq
    hk.carriage_eq hd
  rw [hsel] at hv
  have hstep : m'.setup.selectorAt d m'.quarters = m.setup.selectorAt d m.quarters ∨
      m'.setup.selectorAt d m'.quarters = m.setup.selectorAt d m.quarters + d.step := by
    rw [ho.setup_eq]
    rcases ho.quarters_eq with h | ⟨h, -⟩
    · rw [h]
      exact m.setup.selectorAt_step d m.quarters
    · exact Or.inl (by rw [h])
  have hpre : c.line.worked = some d ∨ (c.line.worked = none ∧
      c.leftRange (m'.setup.selectorAt d m'.quarters) d = false) := by
    rcases hu.entered with ⟨hn, ha⟩ | ⟨hn, -⟩
    · refine Or.inr ⟨hn, ?_⟩
      have hle := hu.start_le
      cases d <;>
        simp only [ahead, leftRange, Direction.step, decide_eq_false_iff_not] at ha hstep ⊢ <;>
        omega
    · exact Or.inl hn
  have he := entered_eq (c := (c.seeing m'.levels).tracked) (d := d)
    m'.setup.carriage (by rw [hsel]; exact hpre)
  rw [hsel] at he
  rcases he with he | ⟨he, -, ha⟩
  · rw [he] at hv
    cases hl : c.leftRange (m'.setup.selectorAt d m'.quarters) d with
    | false =>
      exact Or.inl ⟨rfl, some d, hv.trans (if_neg (ne_true_of_eq_false hl)), Or.inr rfl⟩
    | true => exact Or.inr ⟨rfl, hv.trans (if_pos hl)⟩
  · rw [he] at hv
    exact Or.inl ⟨leftRange_of_ahead hu.start_le ha, none, hv, Or.inl ⟨rfl, ha⟩⟩

/-- On the bench the controller finds the solenoid that drives a needle. -/
theorem Known.solenoidFor_eq (hk : Known m c) (k : Int) :
    c.solenoidFor m.setup.carriage d k = m.setup.solenoidOf d k := by
  unfold solenoidFor Setup.solenoidOf Carriage.armatureIndex Carriage.armatureShift
  rw [hk.model_eq]
  cases hm : m.setup.model with
  | kh270 => rfl
  | kh910 | kh930 =>
    rw [hk.belt_eq (by simp [hm])]
    rfl

/-- While a line is held, every needle that the cam is about to come to, or has just left, has its
solenoid as the line says. -/
theorem Known.commanded (hk : Known m c) (hd : c.tracker.direction = some d)
    (hm : c.mode = .knitting) (hr : c.line.ready = true) :
    (m.latch c.wantedRegister).Commanded d c.start c.stop
      fun k => c.line.bitmap.selects k.toNat := by
  intro k hk₀ hk₁ hr₀ hr₁
  have hreg := wantedRegister_of_ready hm hr hk.carriage_eq hd
  have hsel := hk.selected_eq d
  change 1 ≤ m.setup.reach d m.quarters k at hr₀
  change m.setup.reach d m.quarters k ≤ 5 at hr₁
  change (m.setup.model.solenoidBits c.wantedRegister).getLsbD (m.setup.solenoidOf d k) = _
  have hb := m.setup.reach_bounds d m.quarters k
  have hl := m.setup.lead_bounds d
  rw [← hsel] at hb
  -- the place of the needle in the window
  obtain ⟨j, hj, hjk⟩ : ∃ j < c.model.solenoidCount,
      c.windowNeedle m.setup.carriage d j = k := by
    rw [hk.model_eq]
    refine ⟨(d.step * (k - c.tracker.selected m.setup.carriage d) - 1).toNat, ?_, ?_⟩
    · have hl₄ := hl.2.2.1
      cases d <;>
        simp only [Direction.step, reduceCtorEq, if_true, if_false, true_implies] at hb hl₄ ⊢ <;>
        omega
    · have hl₄ := hl.2.2.1
      unfold windowNeedle
      cases d <;>
        simp only [Direction.step, reduceCtorEq, if_true, if_false, true_implies] at hb hl₄ ⊢ <;>
        omega
  have hbit := getLsbD_lineRegister_window (c := c) (d := d) m.setup.carriage hj
  rw [hjk, hk.solenoidFor_eq, hk.model_eq, ← hreg] at hbit
  rw [hbit, wants, inRange, decide_eq_true ⟨hk₀, hk₁⟩, Bool.true_and]

/-- The controller holds the same line, apart from the note of where the selector has entered. -/
structure Held (c c' : ReferenceController) : Prop where
  mode_eq : c'.mode = c.mode
  start_eq : c'.start = c.start
  stop_eq : c'.stop = c.stop
  line_eq : ∃ worked, c'.line = { c.line with worked }

theorem Held.trans {c' c'' : ReferenceController} (h : Held c c') (h' : Held c' c'') :
    Held c c'' where
  mode_eq := h'.mode_eq.trans h.mode_eq
  start_eq := h'.start_eq.trans h.start_eq
  stop_eq := h'.stop_eq.trans h.stop_eq
  line_eq := by
    obtain ⟨w, hw⟩ := h.line_eq
    obtain ⟨w', hw'⟩ := h'.line_eq
    exact ⟨w', by rw [hw', hw]⟩

/-- As long as the selector has not left the range, the pass goes on with the same line. -/
theorem Underway.slice (hu : Underway d m c) (hw : Wired m c) (ho : Onward d m m' c)
    (hq : c.Queues ms) (hl : c.leftRange (m'.setup.selectorAt d m'.quarters) d = false) :
    Underway d (m'.latch (c.seeing m'.levels).worked.wantedRegister)
        ((c.seeing m'.levels).sliced m'.hall) ∧
      Held c ((c.seeing m'.levels).sliced m'.hall) ∧
      ((c.seeing m'.levels).sliced m'.hall).tracker.direction = some d ∧
      (m'.latch (c.seeing m'.levels).worked.wantedRegister).Commanded d c.start c.stop
        (fun k => c.line.bitmap.selects k.toNat) ∧
      (c.seeing m'.levels).worked.Queues ms := by
  obtain ⟨hk, hd⟩ := hu.toKnown.track hw ho
  obtain ⟨-, worked, hwd, hn⟩ | ⟨hp, -⟩ := hu.worked hw ho
  · have hk' : Known m' ((c.seeing m'.levels).tracked.noting worked) := ⟨hk.1, hk.2, hk.3, hk.4⟩
    have hcom := hk'.commanded hd hu.mode_eq hu.ready_eq
    unfold sliced
    rw [hwd]
    refine ⟨⟨⟨hk.1, hk.2, hk.3, hk.4⟩, hu.mode_eq, hu.ready_eq, hu.start_le, ?_⟩,
      ⟨rfl, rfl, rfl, worked, rfl⟩, hd, hcom, hq⟩
    rcases hn with ⟨rfl, ha⟩ | rfl
    · exact Or.inl ⟨rfl, ha⟩
    · exact Or.inr ⟨rfl, hl⟩
  · rw [hl] at hp
    cases hp

/-- When the selector leaves the range, the controller is done with the line at once, and asks for
the next one. -/
theorem Underway.finish (hu : Underway d m c) (hw : Wired m c) (ho : Onward d m m' c)
    (hq : c.Queues ms) (hl : c.leftRange (m'.setup.selectorAt d m'.quarters) d = true)
    (hlast : c.line.last = false) :
    Known (m'.latch (c.seeing m'.levels).worked.wantedRegister)
        ((c.seeing m'.levels).sliced m'.hall) ∧
      ((c.seeing m'.levels).sliced m'.hall).tracker.direction = some d ∧
      ((c.seeing m'.levels).sliced m'.hall).mode = .knitting ∧
      ((c.seeing m'.levels).sliced m'.hall).start = c.start ∧
      ((c.seeing m'.levels).sliced m'.hall).stop = c.stop ∧
      ((c.seeing m'.levels).sliced m'.hall).line =
        { c.line with ready := false, worked := none, index := c.line.index + 1 } ∧
      (c.seeing m'.levels).worked.Queues (ms ++ [Message.reqLine (c.line.index + 1)]) := by
  obtain ⟨hk, hd⟩ := hu.toKnown.track hw ho
  obtain ⟨hp, -⟩ | ⟨-, hwd⟩ := hu.worked hw ho
  · rw [hl] at hp
    cases hp
  · have hqn : ((c.seeing m'.levels).tracked.noting (some d)).Queues ms := hq
    obtain ⟨lamp1, outbox, hv, hm⟩ := exists_value_finishLine hqn hlast
    rw [← hwd] at hm
    rw [← hwd] at hv
    unfold sliced
    rw [hv]
    exact ⟨⟨hk.1, hk.2, hk.3, hk.4⟩, hd, hu.mode_eq, rfl, rfl, rfl, hv ▸ hm⟩

/-- After the last line the controller is ready for another pattern. -/
theorem Underway.finish_last (hu : Underway d m c) (hw : Wired m c) (ho : Onward d m m' c)
    (hq : c.Queues ms) (hl : c.leftRange (m'.setup.selectorAt d m'.quarters) d = true)
    (hlast : c.line.last = true) :
    Known (m'.latch (c.seeing m'.levels).worked.wantedRegister)
        ((c.seeing m'.levels).sliced m'.hall) ∧
      ((c.seeing m'.levels).sliced m'.hall).mode = .ready ∧
      ((c.seeing m'.levels).sliced m'.hall).line =
        { c.line with ready := false, worked := none } ∧
      (c.seeing m'.levels).worked.Queues ms := by
  obtain ⟨hk, -⟩ := hu.toKnown.track hw ho
  obtain ⟨hp, -⟩ | ⟨-, hwd⟩ := hu.worked hw ho
  · rw [hl] at hp
    cases hp
  · have hqn : ((c.seeing m'.levels).tracked.noting (some d)).Queues ms := hq
    obtain ⟨lamp0, lamp1, outbox, hv, hm⟩ := exists_value_finishLine_last hqn hlast
    rw [← hwd] at hm
    rw [← hwd] at hv
    unfold sliced
    rw [hv]
    exact ⟨⟨hk.1, hk.2, hk.3, hk.4⟩, rfl, rfl, hv ▸ hm⟩

end KnitBench
