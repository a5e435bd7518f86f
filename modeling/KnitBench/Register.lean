/-! The sixteen-bit output register of a controller, addressed bit by bit. -/

namespace KnitBench

/-- The levels of sixteen solenoid outputs. A set bit releases its solenoid. -/
abbrev Register := BitVec 16

namespace Register

/-- Sets bit `i` to a level; indices beyond the register have no bit. -/
def put (r : Register) (i : Nat) (level : Bool) : Register :=
  if level then r ||| 1#16 <<< i else r &&& ~~~(1#16 <<< i)

variable (r : Register) (i j : Nat) (level : Bool)

/-- The word with only bit `i` set. -/
theorem getLsbD_one_shiftLeft (hj : j < 16) :
    (1#16 <<< i).getLsbD j = decide (j = i) := by
  rw [BitVec.getLsbD_shiftLeft, BitVec.getLsbD_one]
  by_cases he : j = i
  · simp [he, he ▸ hj]
  · by_cases hlt : j < i
    · simp [hlt, he]
    · simp [hlt, he, show ¬ j - i = 0 by omega]

/-- Writing a bit changes that bit and no other. -/
theorem getLsbD_put :
    (r.put i level).getLsbD j = if j = i ∧ j < 16 then level else r.getLsbD j := by
  by_cases hj : j < 16
  · cases level
    · rw [put, if_neg Bool.false_ne_true, BitVec.getLsbD_and, BitVec.getLsbD_not,
        getLsbD_one_shiftLeft _ _ hj]
      by_cases he : j = i
      · simp [he, he ▸ hj]
      · simp [he, hj]
    · rw [put, if_pos rfl, BitVec.getLsbD_or, getLsbD_one_shiftLeft _ _ hj]
      by_cases he : j = i
      · simp [he, he ▸ hj]
      · simp [he]
  · rw [BitVec.getLsbD_of_ge _ _ (Nat.le_of_not_lt hj),
      BitVec.getLsbD_of_ge _ _ (Nat.le_of_not_lt hj)]
    simp [hj]

end Register

end KnitBench
