import KnitBench.Proofs.Wire.Canonical

/-! Reading stuffed input into a buffer of fixed size. The buffer gets what reading without a bound
gives, as far as it has room for it, and keeps what it held behind that. -/

namespace KnitBench.Wire

variable {b : UInt8} {input rest : List UInt8}

theorem unstuff_of_none (h : nextByte? input = none) : unstuff input = [] := by
  revert h
  fun_cases nextByte? input with
  | case1 => exact fun _ => rfl
  | case2 => exact fun _ => rfl
  | case3 => exact nofun
  | case4 => exact nofun
  | case5 => exact nofun

/-- What is read begins with the next byte, and goes on with the input that is left. -/
theorem unstuff_of_some (h : nextByte? input = some (b, rest)) :
    unstuff input = b :: unstuff rest := by
  revert h
  fun_cases nextByte? input with
  | case1 => exact nofun
  | case2 => exact nofun
  | case3 x hx =>
    rintro ⟨⟩
    exact unstuff_cons hx []
  | case4 c later =>
    rintro ⟨⟩
    rw [unstuff, if_pos rfl]
  | case5 x c later hx =>
    rintro ⟨⟩
    exact unstuff_cons hx _

/-- A buffer of any size is filled up with what is read. -/
theorem unstuffInto_eq (input buffer : List UInt8) :
    unstuffInto input buffer =
      (min buffer.length (unstuff input).length,
        (unstuff input).take buffer.length ++ buffer.drop (unstuff input).length) := by
  -- on the slots that are left
  induction buffer generalizing input with
  | nil => simp [unstuffInto]
  | cons slot buffer ih =>
    rw [unstuffInto]
    cases h : nextByte? input with
    | none => simp [unstuff_of_none h]
    | some next =>
      obtain ⟨b, rest⟩ := next
      simp [unstuff_of_some h, ih rest, Nat.add_min_add_right]

/-- Into a buffer of any size, as many bytes are written as are read without a bound, or as it has
slots if these are fewer. They are the first bytes of what is read, and every slot behind them keeps
what it held. A buffer as long as the input has room for all that is read. -/
theorem unstuffInto_take_drop (input buffer : List UInt8) :
    (unstuffInto input buffer).1 = min buffer.length (unstuff input).length ∧
      (unstuffInto input buffer).2 =
        (unstuff input).take (unstuffInto input buffer).1 ++
          buffer.drop (unstuffInto input buffer).1 ∧
      (unstuffInto input (List.replicate input.length 0)).2.take
        (unstuffInto input (List.replicate input.length 0)).1 = unstuff input := by
  have hb := unstuffInto_eq input buffer
  have hw := unstuffInto_eq input (List.replicate input.length 0)
  refine ⟨congrArg Prod.fst hb, ?_, ?_⟩
  · have htake : (unstuff input).take (min buffer.length (unstuff input).length) =
        (unstuff input).take buffer.length := List.take_eq_take_iff.mpr (by omega)
    have hdrop : buffer.drop (min buffer.length (unstuff input).length) =
        buffer.drop (unstuff input).length := List.drop_eq_drop_iff.mpr (by omega)
    rw [hb, htake, hdrop]
  · have hl := length_unstuff_le input
    rw [hw, List.length_replicate, Nat.min_eq_right hl, List.take_of_length_le hl,
      List.take_left]

/-- The last slot takes a whole pair, and the byte behind it is not read. -/
example : unstuffInto [escape, 0x10, escape, delimiterStandIn, 0x11] [1, 2] =
    (2, [0x10, delimiter]) := by decide

end KnitBench.Wire
