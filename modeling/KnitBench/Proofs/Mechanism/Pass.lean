import KnitBench.Proofs.Mechanism.Cam

/-! A pass over a range of needles: while the carriage keeps its direction, each armature takes the
level commanded for its needle, and keeps it until the selector has left the needle behind. -/

namespace KnitBench

namespace Setup

/-- How far the carriage has come beyond the push point of needle `k`, in quarter needles. -/
def reach (s : Setup) (d : Direction) (x k : Int) : Int := d.step * (x - s.pushPoint d k)

/-- The needle at the selector of a carriage that has come to a travel. -/
def selectorAt (s : Setup) (d : Direction) (x : Int) : Int := x / 4 + s.carriage.selectOffset d

variable {s : Setup} {d : Direction} {x k : Int}

theorem reach_step (s : Setup) (d : Direction) (x k : Int) :
    s.reach d (x + d.step) k = s.reach d x k + 1 := by
  unfold reach
  cases d <;> simp only [Direction.step] <;> omega

/-- The selector comes to needle `k` when the armature has been pushed `lead` needles before. -/
theorem reach_bounds (s : Setup) (d : Direction) (x k : Int) :
    4 * (d.step * (s.selectorAt d x - k) + s.lead d) - (if d = .left then 3 else 0) ≤
        s.reach d x k ∧
      s.reach d x k ≤
        4 * (d.step * (s.selectorAt d x - k) + s.lead d) + (if d = .right then 3 else 0) := by
  unfold reach selectorAt pushPoint
  cases d <;> simp only [Direction.step, reduceCtorEq, if_true, if_false] <;> omega

/-- In one move the selector goes on by one needle at most. -/
theorem selectorAt_step (s : Setup) (d : Direction) (x : Int) :
    s.selectorAt d (x + d.step) = s.selectorAt d x ∨
      s.selectorAt d (x + d.step) = s.selectorAt d x + d.step := by
  unfold selectorAt
  cases d <;> simp only [Direction.step] <;> omega

end Setup

namespace Mechanism

variable {m : Mechanism} {d : Direction} {k : Int}

/-- The distance of the cam is what the carriage has come beyond the push point, or what it lacks to
the next revolution. -/
theorem camDistance_of_reach (h : m.Aligned) (h₀ : 0 ≤ m.setup.reach d m.quarters k)
    (h₁ : m.setup.reach d m.quarters k ≤ m.span) :
    (camDistance m.setup.model.solenoidCount m.phase (m.setup.solenoidOf d k) : Int) =
      min (m.setup.reach d m.quarters k) (m.span - m.setup.reach d m.quarters k) := by
  unfold Setup.reach at h₀ h₁ ⊢
  generalize hv : m.quarters - m.setup.pushPoint d k = v at h₀ h₁ ⊢
  by_cases hu : 2 * (d.step * v) ≤ m.span
  · rw [camDistance_solenoidOf h (v := v)]
    · cases d <;> simp only [Direction.step] at h₀ h₁ hu ⊢ <;> omega
    · rw [hv, Int.sub_self]
      exact Int.dvd_zero _
    all_goals cases d <;> simp only [Direction.step] at h₀ h₁ hu <;> omega
  · rw [camDistance_solenoidOf h (v := v - d.step * m.span)]
    · cases d <;> simp only [Direction.step] at h₀ h₁ hu ⊢ <;> omega
    · rw [hv, Int.sub_sub_self]
      exact Int.dvd_mul_left ..
    all_goals cases d <;> simp only [Direction.step] at h₀ h₁ hu ⊢ <;> omega

/-- The armatures and needles of a range on a pass in direction `d` that is to leave the needles as
`wants` says: an armature agrees from its push until the next one comes near, a needle from the
moment that the selector is there. -/
structure Shaped (m : Mechanism) (d : Direction) (start stop : Nat) (wants : Int → Bool) :
    Prop where
  armature : ∀ k : Int, (start : Int) ≤ k → k ≤ stop → 2 ≤ m.setup.reach d m.quarters k →
    m.setup.reach d m.quarters k + 7 ≤ m.span →
    m.armatures.getLsbD (m.setup.solenoidOf d k) = !wants k
  needle : ∀ k : Nat, start ≤ k → k ≤ stop → 0 ≤ d.step * (m.setup.selectorAt d m.quarters - k) →
    m.needles[k]? = some (needleOf (!wants k))

/-- The solenoids of a range hold what `wants` says, each from shortly before the cam pushes its
armature until the armature is free. -/
def Commanded (m : Mechanism) (d : Direction) (start stop : Nat) (wants : Int → Bool) : Prop :=
  ∀ k : Int, (start : Int) ≤ k → k ≤ stop → 1 ≤ m.setup.reach d m.quarters k →
    m.setup.reach d m.quarters k ≤ 5 →
    (m.setup.model.solenoidBits m.register).getLsbD (m.setup.solenoidOf d k) = !wants k

variable {start stop : Nat} {wants : Int → Bool}

/-- Before the cam has pushed any armature of the range, nothing is asked of it. -/
theorem shaped_of_reach_le (h : ∀ k : Int, (start : Int) ≤ k → k ≤ stop →
    m.setup.reach d m.quarters k ≤ 1) : m.Shaped d start stop wants where
  armature k hk hk' hr := by
    have := h k hk hk'
    omega
  needle k hk hk' hs := by
    have hr := h k (by omega) (by omega)
    have hb := m.setup.reach_bounds d m.quarters k
    have hl := m.setup.lead_bounds d
    split at hb <;> omega

/-- A move keeps the armatures right. -/
theorem getLsbD_armatures_pass (hs : m.Shaped d start stop wants)
    (hc : m.Commanded d start stop wants) (ha : m.Aligned)
    (hq : (m.move d).quarters = m.quarters + d.step) (hk : (start : Int) ≤ k) (hk' : k ≤ stop)
    (hr : 2 ≤ m.setup.reach d (m.move d).quarters k)
    (hr' : m.setup.reach d (m.move d).quarters k + 7 ≤ m.span) :
    (m.move d).armatures.getLsbD (m.setup.solenoidOf d k) = !wants k := by
  have hd := camDistance_of_reach (k := k) (aligned_move ha d) (d := d)
    (by rw [setup_move]; omega)
    (by rw [setup_move]; change _ ≤ (m.span : Int); omega)
  rw [setup_move] at hd
  change _ = min _ ((m.span : Int) - _) at hd
  have hu := m.setup.reach_step d m.quarters k
  rw [← hq] at hu
  have hspan := m.span_cases
  rw [getLsbD_armatures_move d Setup.solenoidOf_lt]
  generalize camDistance _ _ _ = distance at hd
  unfold followed engageReach releaseReach
  by_cases h₂ : distance ≤ 2
  · rw [if_pos h₂]
    exact hc k hk hk' (by omega) (by omega)
  · rw [if_neg h₂]
    have harm := hs.armature k hk hk' (by omega) (by omega)
    by_cases h₆ : distance ≤ 6
    · rw [harm, hc k hk hk' (by omega) (by omega)]
      cases wants k <;> simp
    · rw [if_neg fun h => h₆ h.1, harm]

/-- A move keeps armatures and needles right. -/
theorem shaped_move (hs : m.Shaped d start stop wants) (hc : m.Commanded d start stop wants)
    (ha : m.Aligned) (hq : (m.move d).quarters = m.quarters + d.step)
    (hstop : stop < m.setup.model.needleCount) : (m.move d).Shaped d start stop wants where
  armature k hk hk' hr hr' := getLsbD_armatures_pass hs hc ha hq hk hk' hr hr'
  needle k hk hk' hsel := by
    have hsm : (m.move d).selected = m.setup.selectorAt d (m.move d).quarters := by
      rw [selected_move, position_eq]
      rfl
    rw [setup_move] at hsel
    by_cases hke : (m.move d).selected = k
    · have hb := m.setup.reach_bounds d (m.move d).quarters k
      have hl := m.setup.lead_bounds d
      rw [← hsm, hke, Int.sub_self, Int.mul_zero] at hb
      rw [needles_move_selected hke (by rw [ha.size_needles]; omega),
        getLsbD_armatures_pass hs hc ha hq (by omega) (by omega)]
      · cases d <;> simp only [reduceCtorEq, if_true, if_false] at hb <;> omega
      · have hl₈ := hl.2.2.2
        have hspan : m.span = 4 * m.setup.model.solenoidCount := rfl
        have hn := m.setup.model.solenoidCount_cases
        cases d with
        | left =>
          simp only [reduceCtorEq, if_false] at hb
          omega
        | right =>
          have := hl₈ rfl
          simp only [if_true] at hb
          omega
    · rw [needles_move_of_ne hke]
      refine hs.needle k hk hk' ?_
      have hst := m.setup.selectorAt_step d m.quarters
      rw [← hq] at hst
      rw [hsm] at hke
      cases d <;> simp only [Direction.step] at hst hsel ⊢ <;> omega

/-- New commands touch neither armatures nor needles. -/
theorem shaped_latch (hs : m.Shaped d start stop wants) (r : Register) :
    (m.latch r).Shaped d start stop wants :=
  ⟨hs.armature, hs.needle⟩

end Mechanism

end KnitBench
