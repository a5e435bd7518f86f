import KnitBench.Setup

/-! The geometry of the setups: where the carriage starts, which solenoid belongs to which needle,
and where the carriage is when the cam pushes the armature of a needle. -/

namespace KnitBench

theorem Model.solenoidCount_cases (m : Model) : m.solenoidCount = 16 ∨ m.solenoidCount = 12 := by
  cases m <;> simp [solenoidCount]

theorem Model.needleCount_le (m : Model) : m.needleCount ≤ 200 := by
  cases m <;> decide

theorem Carriage.homePosition_bounds (c : Carriage) :
    0 ≤ c.homePosition ∧ c.homePosition ≤ 24 := by
  cases c <;> decide

/-- The solenoid of a needle, whole cycles left out. -/
theorem Carriage.dvd_armatureIndex (c : Carriage) (m : Model) (belt : BeltPhase) (d : Direction)
    (k : Int) :
    (m.solenoidCount : Int) ∣ k + c.armatureShift m belt d - c.armatureIndex m belt d k := by
  unfold armatureIndex
  obtain h | h := m.solenoidCount_cases <;> rw [h] <;> omega

namespace Setup

variable {s : Setup} {d : Direction} {k : Int}

/-- Needles that the belt is coupled late. -/
def beltShift (s : Setup) : Int :=
  if s.belt = .shifted then ((s.model.solenoidCount / 2 : Nat) : Int) else 0

/-- What may be said of all setups by looking at each machine, carriage, belt phase and side. -/
theorem runs_cases (s : Setup) :
    (s.model = .kh270 ∧ s.carriage = .knit270) ∨
      ((s.model = .kh910 ∨ s.model = .kh930) ∧
        (s.carriage = .knit ∨ s.carriage = .lace ∨ s.carriage = .garter)) := by
  have h := s.runs
  unfold Carriage.RunsOn at h
  cases hm : s.model <;> cases hc : s.carriage <;> simp_all

theorem initialPosition_bounds (s : Setup) :
    s.leftRail ≤ s.initialPosition ∧ s.initialPosition ≤ s.rightRail := by
  unfold initialPosition leftRail rightRail margin
  have hn := s.model.solenoidCount_pos
  have hk := s.model.needleCount_pos
  cases s.side <;> dsimp only <;> obtain h | h := s.model.solenoidCount_cases <;> rw [h] <;>
    cases s.model <;> simp only [Model.needleCount, Model.solenoidCount] at * <;> omega

/-- Whole cycles lie between the first place of the carriage and its home. -/
theorem dvd_initialPosition (s : Setup) :
    (s.model.solenoidCount : Int) ∣ s.initialPosition - s.carriage.homePosition - s.beltShift := by
  unfold initialPosition beltShift
  cases s.side <;> dsimp only <;> obtain h | h := s.model.solenoidCount_cases <;> rw [h] <;>
    split <;> omega

/-- The needles between the selector and the needle whose armature the cam is pushing. -/
def lead (s : Setup) (d : Direction) : Int :=
  match s.model, s.belt, d with
  | .kh910, _, _ | .kh930, _, _ => 8
  | .kh270, .regular, .right => 2
  | .kh270, .regular, .left => 10
  | .kh270, .shifted, .right => 8
  | .kh270, .shifted, .left => 4

/-- The travel, in quarter needles, at which the cam pushes the armature of needle `k`. -/
def pushPoint (s : Setup) (d : Direction) (k : Int) : Int :=
  4 * (k - s.lead d * d.step - s.carriage.selectOffset d)

/-- The solenoid of needle `k` on a pass in direction `d`. -/
def solenoidOf (s : Setup) (d : Direction) (k : Int) : Nat :=
  s.carriage.armatureIndex s.model s.belt d k

theorem solenoidOf_lt : s.solenoidOf d k < s.model.solenoidCount :=
  Carriage.armatureIndex_lt ..

theorem dvd_solenoidOf (s : Setup) (d : Direction) (k : Int) :
    (s.model.solenoidCount : Int) ∣
      k + s.carriage.armatureShift s.model s.belt d - s.solenoidOf d k :=
  Carriage.dvd_armatureIndex ..

theorem lead_bounds (s : Setup) (d : Direction) :
    2 ≤ s.lead d ∧ s.lead d + 2 ≤ s.model.solenoidCount ∧ (d = .left → 4 ≤ s.lead d) ∧
      (d = .right → s.lead d ≤ 8) := by
  unfold lead
  cases s.model <;> cases s.belt <;> cases d <;> decide

/-- At its push point a needle is half a revolution of the cam away from solenoid 0. -/
theorem dvd_lead (s : Setup) (d : Direction) :
    (4 * s.model.solenoidCount : Int) ∣
      4 * (s.lead d * d.step + s.carriage.selectOffset d + s.initialPosition +
        s.carriage.armatureShift s.model s.belt d) + 2 * s.model.solenoidCount := by
  have hi := s.dvd_initialPosition
  generalize s.initialPosition = p at hi ⊢
  unfold beltShift at hi
  unfold lead Carriage.armatureShift Carriage.selectOffset
  rcases s.runs_cases with ⟨hm, hc⟩ | ⟨hm | hm, hc | hc | hc⟩ <;> rw [hm, hc] at hi ⊢ <;>
    cases hb : s.belt <;> cases d <;> rw [hb] at hi <;>
    simp only [Model.solenoidCount, Carriage.homePosition, Carriage.shiftsMovingLeft,
      Direction.step, reduceCtorEq, if_true, if_false, and_true, and_false, Int.cast_ofNat_Int,
      Int.reduceMul, Nat.reduceDiv] at hi ⊢ <;>
    omega

end Setup

end KnitBench
