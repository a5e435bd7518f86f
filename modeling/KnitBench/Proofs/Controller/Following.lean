import KnitBench.Controller.Reference.Tracker
import KnitBench.Proofs.Mechanism.Travel

/-! How the tracker follows the travel of a carriage, counted in quarter needles: a quarter step of
the encoder is one quarter of travel, and the belt sensor shows no other belt phase than the one at
hand. -/

namespace KnitBench

namespace Setup

/-- The phase of the cam at a travel. -/
def phaseAt (s : Setup) (x : Int) : Nat :=
  ((x - 4 * s.initialPosition) % (4 * s.model.solenoidCount : Nat)).toNat

/-- The level of the belt sensor at a travel. -/
def levelAt (s : Setup) (x : Int) : Bool := beltLevel (s.phaseAt x) s.model.solenoidCount

/-- The level at a travel, were the belt coupled the other way. -/
def otherLevelAt (s : Setup) (x : Int) : Bool := s.levelAt (x + 2 * s.model.solenoidCount)

/-- Between whole needles the belt sensor tells both belt phases apart. -/
theorem otherLevelAt_ne (s : Setup) {x : Int} (hx : x % 4 ≠ 0) :
    s.otherLevelAt x ≠ s.levelAt x := by
  unfold otherLevelAt levelAt beltLevel beltLead phaseAt
  rw [ne_eq, decide_eq_decide]
  obtain hn | hn := s.model.solenoidCount_cases <;> rw [hn] <;> omega

end Setup

namespace Mechanism

variable {m : Mechanism}

theorem phase_eq (h : m.Aligned) : m.phase = m.setup.phaseAt m.quarters := by
  have hp := h.phase_lt
  have hd := h.dvd_phase
  unfold Setup.phaseAt
  unfold span at hp hd
  obtain hn | hn := m.setup.model.solenoidCount_cases <;> rw [hn] at hp hd ⊢ <;> omega

theorem quarter_levels (m : Mechanism) :
    ((Levels.quarter m.levels.v1 m.levels.v2).val : Int) = m.quarters % 4 := by
  rw [← m.phase_mod_four]
  exact congrArg _ (Levels.quarter_ofPhase _ _)

theorem belt_levels (h : m.Aligned) : m.levels.belt = m.setup.levelAt m.quarters := by
  unfold Setup.levelAt
  rw [← phase_eq h]
  rfl

end Mechanism

namespace ReferenceController.Tracker

variable {t : Tracker} {s : Setup} {l : Levels} {x y : Int}

/-- The direction known after the travel has gone from `x` to `y`. -/
def heading (x y : Int) (known : Option Direction) : Option Direction :=
  if y = x + 1 then some .right else if y = x - 1 then some .left else known

@[simp] theorem heading_self (x : Int) (known : Option Direction) : heading x x known = known := by
  simp [heading, show ¬ x = x + 1 by omega, show ¬ x = x - 1 by omega]

@[simp] theorem heading_succ (x : Int) (known : Option Direction) :
    heading x (x + 1) known = some .right := by
  simp [heading]

@[simp] theorem heading_pred (x : Int) (known : Option Direction) :
    heading x (x - 1) known = some .left := by
  simp [heading, show ¬ x - 1 = x + 1 by omega]

theorem quarter_sub (q w : Fin 4) :
    (w.val = q.val → w - q = 0) ∧ (w.val = (q.val + 1) % 4 → w - q = 1) ∧
      (w.val = (q.val + 3) % 4 → w - q = 3) := by
  revert q w
  decide

/-- A quarter step is decoded as one quarter of travel. -/
theorem value_decode (hq : (t.quarter.val : Int) = x % 4)
    (hl : ((Levels.quarter l.v1 l.v2).val : Int) = y % 4)
    (h : y = x ∨ y = x + 1 ∨ y = x - 1) :
    (t.decode l).value = { t with
      quarter := Levels.quarter l.v1 l.v2
      direction := heading x y t.direction
      position := t.position + (y / 4 - x / 4) } := by
  obtain ⟨h₀, h₁, h₃⟩ := quarter_sub t.quarter (Levels.quarter l.v1 l.v2)
  unfold decode
  dsimp only
  generalize Levels.quarter l.v1 l.v2 = w at hl h₀ h₁ h₃ ⊢
  rcases h with rfl | rfl | rfl
  · have hw : w = t.quarter := Fin.ext (by omega)
    have hd : w - t.quarter = 0 := h₀ (by omega)
    simp [hw]
  · have hd : w - t.quarter = 1 := h₁ (by omega)
    have hz : w.val = 0 ↔ (x + 1) / 4 = x / 4 + 1 := by omega
    have hp : (if w.val = 0 then t.position + 1 else t.position) =
        t.position + ((x + 1) / 4 - x / 4) := by
      split <;> omega
    rw [hd, heading_succ, ← hp]
    rfl
  · have hd : w - t.quarter = 3 := h₃ (by omega)
    have hz : w.val = 3 ↔ (x - 1) / 4 = x / 4 - 1 := by omega
    have hp : (if w.val = 3 then t.position - 1 else t.position) =
        t.position + ((x - 1) / 4 - x / 4) := by
      split <;> omega
    rw [hd, heading_pred, ← hp]
    rfl

@[simp] theorem quarter_decode (t : Tracker) (l : Levels) :
    (t.decode l).value.quarter = Levels.quarter l.v1 l.v2 := by
  have hz : ∀ q w : Fin 4, w - q = 0 → q = w := by decide
  simp only [decode]
  split
  · rename_i h
    exact hz _ _ h
  all_goals rfl

/-- What is expected of the belt at hand is what its sensor shows; of the other one, half a cycle of
the cam later. -/
theorem expectedBelt_eq (hx : 4 * t.position + (t.quarter.val : Int) = x) (b : BeltPhase) :
    t.expectedBelt s.model s.carriage (if b = .shifted then s.model.solenoidCount / 2 else 0) =
      if b = s.belt then s.levelAt x else s.otherLevelAt x := by
  have hi := s.dvd_initialPosition
  unfold Setup.beltShift at hi
  unfold expectedBelt Setup.otherLevelAt Setup.levelAt Setup.phaseAt beltLevel beltLead
  dsimp only
  have hq := t.quarter.isLt
  generalize t.quarter.val = q at hx hq ⊢
  generalize s.initialPosition = p at hi ⊢
  obtain hn | hn := s.model.solenoidCount_cases <;> rw [hn] at hi ⊢ <;>
    cases b <;> cases hb : s.belt <;> rw [hb] at hi <;>
    simp only [reduceCtorEq, if_true, if_false, decide_eq_decide] at hi ⊢ <;> omega

/-- The belt phase known after a look at the belt sensor. -/
def settled (s : Setup) (x : Int) (known : Option BeltPhase) : Option BeltPhase :=
  if s.model = .kh270 ∨ known.isSome ∨ s.otherLevelAt x = s.levelAt x then known else some s.belt

theorem value_inferBelt (hx : 4 * t.position + (t.quarter.val : Int) = x)
    (hc : t.carriage = some s.carriage) :
    (t.inferBelt s.model (s.levelAt x)).value = { t with belt := settled s x t.belt } := by
  have h₀ := expectedBelt_eq hx (s := s) .regular
  have h₁ := expectedBelt_eq hx (s := s) .shifted
  simp only [reduceCtorEq, if_true, if_false] at h₀ h₁
  obtain ⟨quarter, direction, position, carriage, southSeen, belt⟩ := t
  obtain rfl : carriage = some s.carriage := hc
  unfold inferBelt settled
  cases belt with
  | some b => simp
  | none =>
    by_cases hm : s.model = .kh270
    · simp [hm]
    · simp only [hm, if_false, h₀, h₁]
      cases s.belt <;> cases s.otherLevelAt x <;> cases s.levelAt x <;> simp

/-- Looking at the belt sensor changes nothing but the belt phase. -/
theorem exists_value_inferBelt (t : Tracker) (m : Model) (level : Bool) :
    ∃ b, (t.inferBelt m level).value = { t with belt := b } := by
  unfold inferBelt
  split
  · split
    · exact ⟨t.belt, rfl⟩
    · dsimp only
      split
      · exact ⟨some .regular, rfl⟩
      · exact ⟨some .shifted, rfl⟩
      · exact ⟨t.belt, rfl⟩
  · exact ⟨t.belt, rfl⟩

/-- A slice of time is for the sensors and the encoder. What it tells of the belt is its phase. -/
theorem exists_value_track (t : Tracker) (m : Model) (l : Levels) (hall : HallReading) :
    ∃ b, (t.track m l hall).value = { ((t.sense m hall).value.decode l).value with belt := b } :=
  exists_value_inferBelt ..

theorem settled_mem {known : Option BeltPhase} (h : known = none ∨ known = some s.belt) :
    settled s x known = none ∨ settled s x known = some s.belt := by
  unfold settled
  split
  · exact h
  · exact Or.inr rfl

@[simp] theorem settled_some (b : BeltPhase) : settled s x (some b) = some b := by
  simp [settled]

/-- Between whole needles the belt phase gets known. -/
theorem settled_eq {known : Option BeltPhase} (h : known = none ∨ known = some s.belt)
    (hm : s.model ≠ .kh270) (hx : x % 4 ≠ 0) : settled s x known = some s.belt := by
  rcases h with rfl | rfl
  · simp [settled, hm, s.otherLevelAt_ne hx]
  · simp

end ReferenceController.Tracker

end KnitBench
