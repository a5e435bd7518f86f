import KnitBench.Proofs.Mechanism.Travel

/-! The cam of the needle selector, needle by needle: at which travel the armature of a needle is
pushed, and what a move does to each armature and to each needle. -/

namespace KnitBench

namespace Mechanism

variable {m : Mechanism} {d : Direction} {i j n phase : Nat} {sol arm : Register}

/-- What becomes of an armature when the cam has passed at a distance. -/
def followed (distance : Nat) (level armature : Bool) : Bool :=
  if distance ≤ engageReach then level
  else if distance ≤ releaseReach ∧ level = false then false
  else armature

theorem getLsbD_follow (distance : Nat) (hj : j < 16) :
    (follow distance sol arm i).getLsbD j =
      if j = i then followed distance (sol.getLsbD i) (arm.getLsbD i) else arm.getLsbD j := by
  unfold follow followed
  split
  · rw [Register.getLsbD_put]
    simp [hj]
  · split
    · rw [Register.getLsbD_put]
      simp [hj]
    · split <;> simp_all

theorem getLsbD_fold_follow (distance : Nat → Nat) (hi : i < 16) :
    (n.fold (fun i _ a => follow (distance i) sol a i) arm).getLsbD i =
      if i < n then followed (distance i) (sol.getLsbD i) (arm.getLsbD i) else arm.getLsbD i := by
  induction n with
  | zero => simp
  | succ n ih =>
    rw [Nat.fold_succ, getLsbD_follow _ hi]
    by_cases h : i = n
    · subst h
      simp [ih]
    · rw [if_neg h, ih]
      simp only [show (i < n + 1) = (i < n) from propext (by omega)]

theorem getLsbD_followAll (hi : i < n) (hn : n ≤ 16) :
    (followAll n phase sol arm).getLsbD i =
      followed (camDistance n phase i) (sol.getLsbD i) (arm.getLsbD i) := by
  rw [followAll, getLsbD_fold_follow _ (by omega), if_pos hi]

/-- The distance of the cam from the armature of a needle is the travel from the push point of that
needle, whole revolutions left out. -/
theorem camDistance_solenoidOf (h : m.Aligned) {k v : Int}
    (hv : (m.span : Int) ∣ m.quarters - m.setup.pushPoint d k - v)
    (hl : -(m.span : Int) ≤ 2 * v) (hu : 2 * v ≤ m.span) :
    camDistance m.setup.model.solenoidCount m.phase (m.setup.solenoidOf d k) = v.natAbs := by
  have hp := h.phase_lt
  have hd := h.dvd_phase
  have hs := m.setup.dvd_solenoidOf d k
  have ht := m.setup.dvd_lead d
  have hi : m.setup.solenoidOf d k < m.setup.model.solenoidCount := Setup.solenoidOf_lt
  unfold Setup.pushPoint at hv
  generalize m.setup.solenoidOf d k = i at hs hi ⊢
  unfold span at hv hl hu hp hd
  unfold camDistance
  obtain hn | hn := m.setup.model.solenoidCount_cases <;> rw [hn] at hv hl hu hp hd hs ht hi ⊢ <;>
    dsimp only <;> omega

theorem getLsbD_armatures_move (d : Direction) (hi : i < m.setup.model.solenoidCount) :
    (m.move d).armatures.getLsbD i =
      followed (camDistance m.setup.model.solenoidCount (m.move d).phase i)
        ((m.setup.model.solenoidBits m.register).getLsbD i) (m.armatures.getLsbD i) :=
  getLsbD_followAll hi m.setup.model.solenoidCount_le

theorem selected_move (m : Mechanism) (d : Direction) :
    (m.move d).selected = (m.move d).position + m.setup.carriage.selectOffset d := rfl

/-- A move leaves all needles alone but the one that comes to the selector. -/
theorem needles_move_of_ne {k : Nat} (hk : (m.move d).selected ≠ k) :
    (m.move d).needles[k]? = m.needles[k]? := by
  rw [selected_move] at hk
  simp only [move] at hk ⊢
  split
  · rw [Array.getElem?_setIfInBounds_ne]
    omega
  · rfl

/-- The needle at the selector is left as its armature says. -/
theorem needles_move_selected {k : Nat} (hk : (m.move d).selected = k) (hb : k < m.needles.size) :
    (m.move d).needles[k]? =
      some (needleOf ((m.move d).armatures.getLsbD (m.setup.solenoidOf d k))) := by
  have he : (m.move d).position + m.setup.carriage.selectOffset d = k := hk
  have hs : (m.stepped d).1 + m.setup.carriage.selectOffset d = k := he
  simp only [move]
  rw [hs, if_pos (Int.natCast_nonneg k), Int.toNat_natCast,
    Array.getElem?_setIfInBounds_self_of_lt hb]
  rfl

end Mechanism

end KnitBench
