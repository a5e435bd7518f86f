import Mathlib.Data.Finset.Card
import KnitBench.Controller.Reference.Knitting
import KnitBench.Proofs.Mechanism.Geometry

/-! The solenoids of a line: the needles in the window ahead of the selector and the solenoids go
with each other one to one, and a solenoid is powered exactly when the line selects its needle.
Register bits without a solenoid are left alone. -/

namespace KnitBench

namespace Register

variable {n b : Nat}

/-- Clearing some bits of a register clears those bits and no others. -/
theorem getLsbD_fold_put (p : Nat → Bool) (g : Nat → Nat) (r : Register) (hb : b < 16) :
    (n.fold (fun i _ r => if p i then r.put (g i) false else r) r).getLsbD b =
      (r.getLsbD b && decide (∀ i < n, p i = true → g i ≠ b)) := by
  induction n with
  | zero => simp
  | succ n ih =>
    have hsplit : (∀ i < n + 1, p i = true → g i ≠ b) ↔
        (∀ i < n, p i = true → g i ≠ b) ∧ (p n = true → g n ≠ b) := by
      constructor
      · exact fun h => ⟨fun i hi => h i (by omega), h n (by omega)⟩
      · rintro ⟨h, hn⟩ i hi
        obtain hi | rfl : i < n ∨ i = n := by omega
        · exact h i hi
        · exact hn
    rw [Nat.fold_succ, decide_eq_decide.mpr hsplit, Bool.decide_and, ← Bool.and_assoc, ← ih]
    split
    · rename_i hp
      rw [getLsbD_put]
      by_cases hg : b = g n
      · rw [if_pos ⟨hg, hb⟩]
        simp [hg, hp]
      · simp [hg, Ne.symm hg]
    · rename_i hp
      simp [hp]

end Register

namespace Model

variable {m : Model} {i : Nat} {r : Register}

theorem registerBit_lt (hi : i < m.solenoidCount) : m.registerBit i < 16 := by
  cases m <;> simp only [solenoidCount, registerBit] at hi ⊢ <;> omega

/-- The solenoids of the KH270 sit in the middle of the register. -/
theorem registerBit_kh270 (hi : i < kh270.solenoidCount) :
    3 ≤ kh270.registerBit i ∧ kh270.registerBit i ≤ 14 := by
  simp only [solenoidCount, registerBit] at hi ⊢
  omega

theorem registerBit_inj {j : Nat} : m.registerBit i = m.registerBit j ↔ i = j := by
  cases m <;> simp [registerBit]

theorem getLsbD_solenoidBits (r : Register) (hi : i < m.solenoidCount) :
    (m.solenoidBits r).getLsbD i = r.getLsbD (m.registerBit i) := by
  cases m with
  | kh910 | kh930 => rfl
  | kh270 =>
    have hm : ∀ i < 12, (0x0FFF#16).getLsbD i = true := by decide
    simp [solenoidBits, registerBit, hm i hi, Nat.add_comm]

theorem getLsbD_idleRegister (hi : i < m.solenoidCount) :
    m.idleRegister.getLsbD (m.registerBit i) = true := by
  have h16 : ∀ i < 16, (0xFFFF#16).getLsbD i = true := by decide
  have h12 : ∀ i < 12, (0x0FFF#16 <<< 3).getLsbD (i + 3) = true := by decide
  cases m with
  | kh910 | kh930 => exact h16 i hi
  | kh270 => exact h12 i hi

end Model

namespace ReferenceController

variable {c : ReferenceController} {carriage : Carriage} {d : Direction}

/-- Whether the line selects a needle of the range. -/
def wants (c : ReferenceController) (k : Int) : Bool :=
  c.inRange k && c.line.bitmap.selects k.toNat

/-- The `j`-th needle of the window ahead of the selector. -/
def windowNeedle (c : ReferenceController) (carriage : Carriage) (d : Direction) (j : Nat) : Int :=
  c.tracker.selected carriage d + (j + 1 : Nat) * d.step

/-- The solenoid that the controller takes for a needle. -/
def solenoidFor (c : ReferenceController) (carriage : Carriage) (d : Direction) (k : Int) : Nat :=
  carriage.armatureIndex c.model (c.tracker.belt.getD .regular) d k

theorem solenoidFor_lt (c : ReferenceController) (carriage : Carriage) (d : Direction) (k : Int) :
    c.solenoidFor carriage d k < c.model.solenoidCount := Carriage.armatureIndex_lt ..

theorem dvd_solenoidFor (c : ReferenceController) (carriage : Carriage) (d : Direction) (k : Int) :
    (c.model.solenoidCount : Int) ∣
      k + carriage.armatureShift c.model (c.tracker.belt.getD .regular) d -
        c.solenoidFor carriage d k :=
  Carriage.dvd_armatureIndex ..

/-- No two needles of the window share a solenoid. -/
theorem solenoidFor_window_inj {i j : Nat} (hi : i < c.model.solenoidCount)
    (hj : j < c.model.solenoidCount)
    (h : c.solenoidFor carriage d (c.windowNeedle carriage d i) =
      c.solenoidFor carriage d (c.windowNeedle carriage d j)) : i = j := by
  have h₁ := c.dvd_solenoidFor carriage d (c.windowNeedle carriage d i)
  have h₂ := c.dvd_solenoidFor carriage d (c.windowNeedle carriage d j)
  rw [h] at h₁
  unfold windowNeedle at h₁ h₂
  cases d <;> simp only [Direction.step] at h₁ h₂ <;>
    obtain hn | hn := c.model.solenoidCount_cases <;> rw [hn] at h₁ h₂ hi hj <;> omega

/-- A line clears the bits of the solenoids whose needles it selects, and no others. -/
theorem getLsbD_lineRegister_bit (carriage : Carriage) (d : Direction) {b : Nat} (hb : b < 16) :
    (c.lineRegister carriage d).getLsbD b =
      (c.model.idleRegister.getLsbD b &&
        decide (∀ j < c.model.solenoidCount, c.wants (c.windowNeedle carriage d j) = true →
          c.model.registerBit (c.solenoidFor carriage d (c.windowNeedle carriage d j)) ≠ b)) :=
  Register.getLsbD_fold_put (fun j => c.wants (c.windowNeedle carriage d j))
    (fun j => c.model.registerBit (c.solenoidFor carriage d (c.windowNeedle carriage d j)))
    c.model.idleRegister hb

theorem getLsbD_lineRegister {i : Nat} (hi : i < c.model.solenoidCount) :
    (c.model.solenoidBits (c.lineRegister carriage d)).getLsbD i =
      decide (∀ j < c.model.solenoidCount, c.wants (c.windowNeedle carriage d j) = true →
        c.solenoidFor carriage d (c.windowNeedle carriage d j) ≠ i) := by
  have hf := getLsbD_lineRegister_bit (c := c) carriage d (Model.registerBit_lt hi)
  rw [Model.getLsbD_idleRegister hi, Bool.true_and] at hf
  simp only [ne_eq, Model.registerBit_inj] at hf
  exact (Model.getLsbD_solenoidBits _ hi).trans hf

/-- In the window, the solenoid of a needle is powered exactly when the line selects it. -/
theorem getLsbD_lineRegister_window (carriage : Carriage) {j : Nat}
    (hj : j < c.model.solenoidCount) :
    (c.model.solenoidBits (c.lineRegister carriage d)).getLsbD
        (c.solenoidFor carriage d (c.windowNeedle carriage d j)) =
      !c.wants (c.windowNeedle carriage d j) := by
  rw [getLsbD_lineRegister (c.solenoidFor_lt ..), Bool.eq_iff_iff, decide_eq_true_iff,
    Bool.not_eq_true', ← Bool.not_eq_true]
  constructor
  · exact fun h hw => h j hj hw rfl
  · intro hw i hi hwi he
    rw [solenoidFor_window_inj hi hj he] at hwi
    exact hw hwi

/-- The needles that the controller looks ahead to: one for each solenoid, from the first in front
of the selector on. -/
def window (c : ReferenceController) (carriage : Carriage) (d : Direction) : Set Int :=
  {k | 1 ≤ (k - c.tracker.selected carriage d) * d.step ∧
    (k - c.tracker.selected carriage d) * d.step ≤ c.model.solenoidCount}

theorem mem_window_iff {k : Int} :
    k ∈ c.window carriage d ↔ ∃ j < c.model.solenoidCount, c.windowNeedle carriage d j = k := by
  simp only [window, windowNeedle, Set.mem_ofPred_eq]
  constructor
  · rintro ⟨hfirst, hlast⟩
    refine ⟨((k - c.tracker.selected carriage d) * d.step - 1).toNat, by omega, ?_⟩
    cases d <;> simp only [Direction.step] at hfirst ⊢ <;> omega
  · rintro ⟨j, hj, rfl⟩
    cases d <;> simp only [Direction.step] <;> omega

/-- There are as many needles in the window as solenoids, and no two share one: each solenoid has
its needle. -/
theorem bijOn_solenoidFor (c : ReferenceController) (carriage : Carriage) (d : Direction) :
    Set.BijOn (c.solenoidFor carriage d) (c.window carriage d)
      (Set.Iio c.model.solenoidCount) := by
  refine ⟨fun k _ => c.solenoidFor_lt carriage d k, ?_, ?_⟩
  · intro k hk k' hk' he
    obtain ⟨i, hi, rfl⟩ := mem_window_iff.mp hk
    obtain ⟨j, hj, rfl⟩ := mem_window_iff.mp hk'
    rw [solenoidFor_window_inj hi hj he]
  · intro i hi
    have hmaps : Set.MapsTo (fun j => c.solenoidFor carriage d (c.windowNeedle carriage d j))
        (Finset.range c.model.solenoidCount) (Finset.range c.model.solenoidCount) := by
      intro j _
      exact Finset.mem_coe.mpr (Finset.mem_range.mpr (c.solenoidFor_lt ..))
    have hinj : Set.InjOn (fun j => c.solenoidFor carriage d (c.windowNeedle carriage d j))
        (Finset.range c.model.solenoidCount) := by
      intro i hi j hj he
      exact solenoidFor_window_inj (Finset.mem_range.mp hi) (Finset.mem_range.mp hj) he
    obtain ⟨j, hj, rfl⟩ := Finset.surjOn_of_injOn_of_card_le _ hmaps hinj le_rfl
      (Finset.mem_coe.mpr (Finset.mem_range.mpr hi))
    exact ⟨_, mem_window_iff.mpr ⟨j, Finset.mem_range.mp hj, rfl⟩, rfl⟩

/-- A bit without a solenoid is as it is when no solenoid has power. -/
theorem getLsbD_lineRegister_of_ne (carriage : Carriage) (d : Direction) {b : Nat}
    (hb : ∀ i < c.model.solenoidCount, c.model.registerBit i ≠ b) :
    (c.lineRegister carriage d).getLsbD b = c.model.idleRegister.getLsbD b := by
  by_cases h16 : b < 16
  · rw [getLsbD_lineRegister_bit carriage d h16, decide_eq_true, Bool.and_true]
    intro j _ _
    exact hb _ (c.solenoidFor_lt ..)
  · have hle : 16 ≤ b := Nat.le_of_not_lt h16
    rw [BitVec.getLsbD_of_ge _ _ hle, BitVec.getLsbD_of_ge _ _ hle]

/-- With a line at hand and the carriage known, that line is what belongs on the solenoids. -/
theorem wantedRegister_of_ready (hm : c.mode = .knitting) (hr : c.line.ready = true)
    (hc : c.tracker.carriage = some carriage) (hd : c.tracker.direction = some d) :
    c.wantedRegister = c.lineRegister carriage d := by
  have ht : c.mode ≠ .test := by
    rw [hm]
    decide
  rw [wantedRegister, if_neg ht, if_pos ⟨hm, hr⟩, hc, hd]

/-- Wherever the carriage is and whichever machine, carriage, belt phase and direction the
controller goes by: with a line at hand, the needles in its window and the solenoids of its machine
go with each other one to one. The solenoid of a needle has power exactly when the needle lies in
the range and the line selects it. The bits of the register that belong to no solenoid are as they
are when none has power. -/
theorem solenoidBits_wantedRegister (hm : c.mode = .knitting) (hr : c.line.ready = true)
    (hc : c.tracker.carriage = some carriage) (hd : c.tracker.direction = some d) :
    Set.BijOn (c.solenoidFor carriage d) (c.window carriage d)
        (Set.Iio c.model.solenoidCount) ∧
      (∀ k ∈ c.window carriage d,
        ((c.model.solenoidBits c.wantedRegister).getLsbD (c.solenoidFor carriage d k) = false ↔
          ((c.start : Int) ≤ k ∧ k ≤ c.stop) ∧ c.line.bitmap.selects k.toNat = true)) ∧
      ∀ b, (∀ i < c.model.solenoidCount, c.model.registerBit i ≠ b) →
        c.wantedRegister.getLsbD b = c.model.idleRegister.getLsbD b := by
  rw [wantedRegister_of_ready hm hr hc hd]
  refine ⟨c.bijOn_solenoidFor carriage d, ?_, fun b => getLsbD_lineRegister_of_ne carriage d⟩
  intro k hk
  obtain ⟨j, hj, rfl⟩ := mem_window_iff.mp hk
  rw [getLsbD_lineRegister_window carriage hj, Bool.not_eq_false', wants, inRange,
    Bool.and_eq_true, decide_eq_true_eq]

/-- A controller of a KH270 that knits every needle of a line, the carriage on its way out to the
left. -/
def outward : ReferenceController where
  model := .kh270
  mode := .knitting
  stop := 111
  line := { bitmap := Vector.replicate _ 0xFF, ready := true }
  tracker := { carriage := some .knit270, direction := some .left, position := -10 }
  testRegister := 0

theorem solenoidBits_wantedRegister_outward :
    outward.mode = .knitting ∧ outward.line.ready = true ∧
      (3 ∈ outward.window .knit270 .left ∧ outward.solenoidFor .knit270 .left 3 = 1 ∧
        (outward.model.solenoidBits outward.wantedRegister).getLsbD 1 = false) ∧
      (-2 ∈ outward.window .knit270 .left ∧ outward.solenoidFor .knit270 .left (-2) = 8 ∧
        (outward.model.solenoidBits outward.wantedRegister).getLsbD 8 = true) ∧
      outward.wantedRegister.getLsbD 15 = false := by
  have hc : outward.tracker.carriage = some .knit270 := rfl
  have hd : outward.tracker.direction = some .left := rfl
  obtain ⟨-, hbits, hrest⟩ := solenoidBits_wantedRegister (c := outward) rfl rfl hc hd
  have hon : (3 : Int) ∈ outward.window .knit270 .left :=
    mem_window_iff.mpr ⟨1, by decide, by decide⟩
  have hoff : (-2 : Int) ∈ outward.window .knit270 .left :=
    mem_window_iff.mpr ⟨6, by decide, by decide⟩
  refine ⟨rfl, rfl, ⟨hon, by decide, (hbits 3 hon).mpr (by decide)⟩, ⟨hoff, by decide, ?_⟩, ?_⟩
  · refine Bool.eq_true_of_not_eq_false fun h => ?_
    exact absurd ((hbits (-2) hoff).mp h) (by decide)
  · exact (hrest 15 (by decide)).trans (by decide)

end ReferenceController

end KnitBench
