import KnitBench.Mechanism
import KnitBench.Proofs.Mechanism.Geometry

/-! The travel of the carriage, counted in quarter needles: every move changes the count by one
quarter, unless a rail holds it, and the phase of the cam follows the count. -/

namespace KnitBench

namespace Mechanism

variable {m : Mechanism} {d : Direction} {s : Setup}

/-- The travel of the carriage from needle 0, in quarter needles. -/
def quarters (m : Mechanism) : Int := 4 * m.position + ((m.phase % 4 : Nat) : Int)

theorem position_eq (m : Mechanism) : m.position = m.quarters / 4 := by
  unfold quarters
  omega

theorem phase_mod_four (m : Mechanism) : ((m.phase % 4 : Nat) : Int) = m.quarters % 4 := by
  unfold quarters
  omega

/-- The phase follows the travel, the carriage is between the rails, and sensors and needle row
are those of the setup. -/
structure Aligned (m : Mechanism) : Prop where
  phase_lt : m.phase < m.span
  dvd_phase : (m.span : Int) ∣ m.quarters - 4 * m.setup.initialPosition - m.phase
  leftRail_le : m.setup.leftRail ≤ m.position
  le_rightRail : m.position ≤ m.setup.rightRail
  hall_eq : m.hall = hallAt m.setup m.position
  size_needles : m.needles.size = m.setup.model.needleCount

/-- Between the rails lie the bed and the margins. -/
theorem Aligned.position_bounds (h : m.Aligned) :
    -28 ≤ m.position ∧ m.position ≤ m.setup.model.needleCount + 27 := by
  have hr := h.le_rightRail
  unfold Setup.rightRail margin at hr
  exact ⟨h.leftRail_le, by omega⟩

/-- The count after one move. -/
def advanced (m : Mechanism) : Direction → Int
  | .right => min (m.quarters + 1) (4 * m.setup.rightRail + 3)
  | .left => max (m.quarters - 1) (4 * m.setup.leftRail)

theorem span_cases (m : Mechanism) : m.span = 64 ∨ m.span = 48 := by
  unfold span
  obtain h | h := m.setup.model.solenoidCount_cases <;> simp [h]

theorem quarters_move (h : m.Aligned) (d : Direction) : (m.move d).quarters = m.advanced d := by
  have hp := h.phase_lt
  have hl := h.leftRail_le
  have hr := h.le_rightRail
  cases d <;> simp only [quarters, advanced, move, stepped] <;>
    obtain hs | hs := m.span_cases <;> rw [hs] at hp ⊢ <;> split <;> try split
  all_goals
    dsimp only
    omega

/-- Away from the rails a move is one quarter. -/
theorem advanced_mem (h : m.Aligned) (d : Direction) :
    m.advanced d = m.quarters + d.step ∨ m.advanced d = m.quarters := by
  have hl := h.leftRail_le
  have hr := h.le_rightRail
  have hq := m.position_eq
  cases d <;> simp only [advanced, Direction.step] <;> omega

theorem quarters_move_of_not_atRail (h : m.Aligned) (hr : m.atRail d = false) :
    (m.move d).quarters = m.quarters + d.step := by
  have hp := m.position_eq
  rw [quarters_move h]
  cases d <;> simp only [atRail, decide_eq_false_iff_not] at hr <;>
    simp only [advanced, Direction.step] <;> omega

/-- The carriage is never at both rails. -/
theorem atRail_reversed (hr : m.atRail d = true) : m.atRail d.reversed = false := by
  have hn := m.setup.model.needleCount_pos
  unfold atRail Setup.leftRail Setup.rightRail margin at *
  cases d <;> simp only [Direction.reversed, decide_eq_true_eq, decide_eq_false_iff_not] at hr ⊢ <;>
    omega

/-- Away from the rails the cam turns with the carriage. -/
theorem phase_move_of_not_atRail (h : m.Aligned) (hr : m.atRail d = false) :
    ((m.move d).phase : Int) = (m.phase + d.step) % m.span := by
  have hp := h.phase_lt
  obtain hs | hs := m.span_cases <;> rw [hs] at hp ⊢ <;> cases d <;>
    simp only [atRail, decide_eq_false_iff_not, Int.not_le] at hr <;>
    simp only [move, stepped, hs, if_pos hr, Direction.step] <;> split <;>
    dsimp only <;> omega

theorem dvd_phase_move (h : m.Aligned) (d : Direction) :
    (m.span : Int) ∣ (m.move d).quarters - 4 * m.setup.initialPosition - (m.move d).phase := by
  have hp := h.phase_lt
  have hd := h.dvd_phase
  have hl := h.leftRail_le
  have hr := h.le_rightRail
  cases d <;> simp only [quarters, move, stepped] at hd ⊢ <;>
    obtain hs | hs := m.span_cases <;> rw [hs] at hp hd ⊢ <;> split <;> try split
  all_goals
    dsimp only at *
    omega

theorem phase_move_lt (h : m.Aligned) (d : Direction) : (m.move d).phase < m.span := by
  have hp := h.phase_lt
  cases d <;> simp only [move, stepped] <;>
    obtain hs | hs := m.span_cases <;> rw [hs] at hp ⊢ <;> split <;> try split
  all_goals
    dsimp only
    omega

theorem position_move_bounds (h : m.Aligned) (d : Direction) :
    m.setup.leftRail ≤ (m.move d).position ∧ (m.move d).position ≤ m.setup.rightRail := by
  have hq := quarters_move h d
  have hl := h.leftRail_le
  have hr := h.le_rightRail
  have hp := m.position_eq
  rw [(m.move d).position_eq, hq]
  cases d <;> simp only [advanced] <;> omega

theorem aligned_move (h : m.Aligned) (d : Direction) : (m.move d).Aligned where
  phase_lt := phase_move_lt h d
  dvd_phase := dvd_phase_move h d
  leftRail_le := (position_move_bounds h d).1
  le_rightRail := (position_move_bounds h d).2
  hall_eq := rfl
  size_needles := by
    have hn := h.size_needles
    simp only [move]
    split <;> simpa using hn

/-- The sensor bands leave out no magnet. -/
theorem hallAt_eq (s : Setup) (p : Int) :
    hallAt s p = s.carriage.reading s.model s.model.needleCount p := by
  have hk : 100 < (s.model.needleCount : Int) := by cases s.model <;> decide
  change (if (s.bands.1.covers p || s.bands.2.covers p) = true then _ else _) = _
  unfold Setup.bands Band.covers
  generalize (s.model.needleCount : Int) = k at hk
  cases s.carriage <;> simp only [Carriage.sensorBands, Carriage.reading] <;> grind

/-- No carriage starts over a magnet. -/
theorem hallAt_initialPosition (s : Setup) : hallAt s s.initialPosition = .idle := by
  have hr := s.runs_cases
  rw [hallAt_eq]
  unfold Setup.initialPosition Setup.rightRail Setup.leftRail margin
  rcases hr with ⟨hm, hc⟩ | ⟨hm | hm, hc | hc | hc⟩ <;> rw [hm, hc] <;>
    cases s.side <;> cases s.belt <;> decide

theorem aligned_initial (s : Setup) : (initial s).Aligned where
  phase_lt := by
    have h := (initial s).span_cases
    change 0 < (initial s).span
    omega
  dvd_phase := by simp [quarters, initial]
  leftRail_le := s.initialPosition_bounds.1
  le_rightRail := s.initialPosition_bounds.2
  hall_eq := (hallAt_initialPosition s).symm
  size_needles := by simp [initial]

theorem aligned_latch (h : m.Aligned) (r : Register) : (m.latch r).Aligned :=
  ⟨h.1, h.2, h.3, h.4, h.5, h.6⟩

theorem aligned_shown (h : m.Aligned) (stale : Bool) : Aligned { m with stale } :=
  ⟨h.1, h.2, h.3, h.4, h.5, h.6⟩

end Mechanism

/-- The quarters to the rail. -/
def toRail (s : Setup) (d : Direction) (x : Int) : Int :=
  match d with
  | .right => 4 * s.rightRail + 3 - x
  | .left => x - 4 * s.leftRail

variable {m : Mechanism} {d : Direction}

theorem toRail_step (s : Setup) (d : Direction) (x : Int) :
    toRail s d (x + d.step) = toRail s d x - 1 := by
  unfold toRail
  cases d <;> simp only [Direction.step] <;> omega

/-- From rail to rail it is the bed and both margins. -/
theorem toRail_lt (h : m.Aligned) (d : Direction) :
    toRail m.setup d m.quarters < 4 * (m.setup.model.needleCount + 56) := by
  have hb := h.position_bounds
  have hp := m.position_eq
  unfold toRail Setup.leftRail Setup.rightRail margin
  cases d <;> dsimp only <;> omega

theorem toRail_le (h : m.Aligned) (d : Direction) : toRail m.setup d m.quarters ≤ 1023 := by
  have ht := toRail_lt h d
  have hn := m.setup.model.needleCount_le
  omega

theorem toRail_pos (hr : m.atRail d = false) : 0 < toRail m.setup d m.quarters := by
  have hp := m.position_eq
  unfold toRail
  cases d <;> simp only [Mechanism.atRail, decide_eq_false_iff_not] at hr ⊢ <;> omega

end KnitBench
