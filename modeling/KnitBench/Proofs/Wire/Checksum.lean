import Mathlib.Data.List.Induction
import Mathlib.Data.Nat.Count
import Mathlib.Dynamics.PeriodicPts.Lemmas
import Mathlib.Tactic.NormNum.Prime
import KnitBench.Wire.Checksum

/-! The check as a linear register. Bits come in one by one, the lowest bit of each byte first, and
after each of them the remainder is shifted. Shifts respect exclusive or, can be undone, keep the
parity of the remainder, and bring 1 back after 127 of them and not before. -/

namespace KnitBench.Wire

namespace Checksum

variable {a b r : UInt8} {i j k n : Nat} {bits bits' : Nat → Bool}

/-! ### Bits of a byte -/

/-- Bit `i` of a byte, the lowest one first. -/
def bit (b : UInt8) (i : Nat) : Bool := b.toNat.testBit i

theorem bit_xor (a b : UInt8) (i : Nat) : bit (a ^^^ b) i = (bit a i ^^ bit b i) := by
  rw [bit, UInt8.toNat_xor, Nat.testBit_xor]
  rfl

theorem bit_of_le (b : UInt8) (hi : 8 ≤ i) : bit b i = false :=
  Nat.testBit_lt_two_pow (Nat.lt_of_lt_of_le b.toNat_lt (Nat.pow_le_pow_right (by decide) hi))

theorem eq_of_bit_eq (h : ∀ i < 8, bit a i = bit b i) : a = b := by
  refine UInt8.toNat_inj.mp (Nat.eq_of_testBit_eq fun i => ?_)
  by_cases hi : i < 8
  · exact h i hi
  · exact (bit_of_le a (Nat.le_of_not_lt hi)).trans (bit_of_le b (Nat.le_of_not_lt hi)).symm

theorem bit_shiftRight_one (b : UInt8) (i : Nat) : bit (b >>> 1) i = bit b (i + 1) := by
  simp [bit, Nat.testBit_shiftRight, Nat.add_comm]

/-- The byte with a bit at place `n` and no other. -/
def place (n : Nat) (c : Bool) : UInt8 := c.toUInt8 <<< UInt8.ofNat n

theorem bit_place (hn : n < 8) (c : Bool) (i : Nat) :
    bit (place n c) i = (decide (i = n) && c) := by
  have hpow : ∀ m : Fin 8, (place m true).toNat = 2 ^ m.val := by decide
  cases c with
  | false =>
    rw [place, show Bool.toUInt8 false = 0 from rfl, UInt8.zero_shiftLeft, Bool.and_false, bit,
      UInt8.toNat_zero, Nat.zero_testBit]
  | true => simp [bit, hpow ⟨n, hn⟩, Nat.testBit_two_pow, eq_comm]

/-! ### Shifts -/

theorem shift_eq (r : UInt8) : shift r = (r >>> 1) ^^^ if bit r 0 then polynomial else 0 := by
  have h : r &&& 1 = 1 ↔ bit r 0 = true := by
    rw [← UInt8.toNat_inj, UInt8.toNat_and, bit, Nat.testBit_zero, decide_eq_true_eq]
    exact Eq.congr_left (Nat.and_one_is_mod _)
  unfold shift
  by_cases hb : bit r 0 = true
  · rw [if_pos (h.mpr hb), if_pos hb]
  · rw [if_neg (mt h.mp hb), if_neg hb, UInt8.xor_zero]

theorem bit_shift (r : UInt8) (i : Nat) :
    bit (shift r) i = (bit r (i + 1) ^^ (bit r 0 && bit polynomial i)) := by
  rw [shift_eq, bit_xor, bit_shiftRight_one]
  cases bit r 0
  · simp [bit]
  · simp

/-- Shifts respect exclusive or. -/
theorem shift_xor (a b : UInt8) : shift (a ^^^ b) = shift a ^^^ shift b := by
  refine eq_of_bit_eq fun i _ => ?_
  simp only [bit_xor, bit_shift]
  cases bit a 0 <;> cases bit b 0 <;> cases bit polynomial i <;> simp

theorem iterate_shift_xor (n : Nat) (a b : UInt8) :
    shift^[n] (a ^^^ b) = shift^[n] a ^^^ shift^[n] b := by
  induction n with
  | zero => rfl
  | succ n ih => simp only [Function.iterate_succ_apply', ih, shift_xor]

theorem iterate_shift_zero (n : Nat) : shift^[n] 0 = 0 := Function.iterate_fixed rfl n

/-- The top bit of the polynomial tells that the low bit has been divided out. -/
theorem eq_zero_of_shift (h : shift r = 0) : r = 0 := by
  have hbit (i : Nat) : (bit r (i + 1) ^^ (bit r 0 && bit polynomial i)) = false := by
    rw [← bit_shift, h]
    simp [bit]
  have hlow : bit r 0 = false := by
    have h₇ := hbit 7
    rw [bit_of_le r (Nat.le_refl 8), show bit polynomial 7 = true by decide] at h₇
    simpa using h₇
  refine eq_of_bit_eq fun i _ => ?_
  rw [show bit 0 i = false from Nat.zero_testBit i]
  cases i with
  | zero => exact hlow
  | succ i => simpa [hlow] using hbit i

/-- Shifts can be undone. -/
theorem shift_injective : Function.Injective shift := by
  intro a b h
  have hz : shift (a ^^^ b) = 0 := by rw [shift_xor, h, UInt8.xor_self]
  exact UInt8.xor_eq_zero_iff.mp (eq_zero_of_shift hz)

theorem iterate_shift_ne_zero (n : Nat) (h : r ≠ 0) : shift^[n] r ≠ 0 := by
  intro hz
  exact h (shift_injective.iterate n (hz.trans (iterate_shift_zero n).symm))

/-- A bit that has waited at its place reaches the low end just in time. -/
theorem iterate_shift_place (hn : n < 8) (c : Bool) : shift^[n] (place n c) = c.toUInt8 := by
  have hall : ∀ m : Fin 8, ∀ c : Bool, shift^[m.val] (place m.val c) = c.toUInt8 := by decide
  exact hall ⟨n, hn⟩ c

/-! ### Parity -/

/-- Whether an odd number of the first `n` bits is set. -/
def parity (bits : Nat → Bool) : Nat → Bool
  | 0 => false
  | n + 1 => parity bits n ^^ bits n

theorem parity_eq (bits : Nat → Bool) (n : Nat) :
    parity bits n = decide (Odd (Nat.count (fun i => bits i = true) n)) := by
  induction n with
  | zero => rfl
  | succ n ih =>
    rw [parity, ih, Nat.count_succ]
    cases bits n with
    | false => simp
    | true => simp [Nat.odd_add_one, ← Nat.not_even_iff_odd]

theorem parity_xor (bits bits' : Nat → Bool) (n : Nat) :
    parity (fun i => bits i ^^ bits' i) n = (parity bits n ^^ parity bits' n) := by
  induction n with
  | zero => rfl
  | succ n ih =>
    rw [parity, ih, parity, parity]
    cases bits n <;> cases bits' n <;> simp

theorem parity_and (c : Bool) (bits : Nat → Bool) (n : Nat) :
    parity (fun i => c && bits i) n = (c && parity bits n) := by
  cases c with
  | true => simp
  | false =>
    induction n with
    | zero => rfl
    | succ n ih => rw [parity, ih]; rfl

theorem parity_succ (bits : Nat → Bool) (n : Nat) :
    parity bits (n + 1) = (bits 0 ^^ parity (fun i => bits (i + 1)) n) := by
  induction n with
  | zero => simp [parity]
  | succ n ih => rw [parity, ih, parity, Bool.xor_assoc]

/-- The polynomial has an odd number of bits: it makes up for the bit that is divided out. -/
theorem parity_shift (r : UInt8) : parity (bit (shift r)) 8 = parity (bit r) 8 := by
  have hp : parity (bit polynomial) 8 = true := by decide
  have hr : (bit r 0 ^^ parity (fun i => bit r (i + 1)) 8) = parity (bit r) 8 := by
    rw [← parity_succ, parity, bit_of_le r (Nat.le_refl 8), Bool.xor_false]
  calc parity (bit (shift r)) 8
      = parity (fun i => bit r (i + 1) ^^ (bit r 0 && bit polynomial i)) 8 := by
        rw [funext (bit_shift r)]
    _ = (parity (fun i => bit r (i + 1)) 8 ^^ bit r 0) := by
        rw [parity_xor, parity_and, hp, Bool.and_true]
    _ = parity (bit r) 8 := by rw [Bool.xor_comm, hr]

/-! ### Periods -/

/-- 127 shifts bring 1 back. As 127 is prime, fewer do not. -/
theorem minimalPeriod_shift_one : Function.minimalPeriod shift 1 = 127 := by
  have hprime : Fact (Nat.Prime 127) := ⟨by norm_num⟩
  have hper : Function.IsPeriodicPt shift 127 1 := by decide +kernel
  have hfix : ¬ Function.IsFixedPt shift 1 := by decide
  exact Function.minimalPeriod_eq_prime hper hfix

theorem iterate_shift_one_eq_iff (n : Nat) : shift^[n] 1 = 1 ↔ 127 ∣ n := by
  rw [← minimalPeriod_shift_one]
  exact Function.isPeriodicPt_iff_minimalPeriod_dvd

/-- What a bit has come to when it reaches the low end is 1 or nothing, so 127 shifts bring back
every bit at every place. -/
theorem isPeriodicPt_place (hn : n < 8) (c : Bool) :
    Function.IsPeriodicPt shift 127 (place n c) := by
  have hc : shift^[127] c.toUInt8 = c.toUInt8 := by
    cases c with
    | false => exact iterate_shift_zero 127
    | true => exact (iterate_shift_one_eq_iff 127).mpr (Nat.dvd_refl 127)
  refine shift_injective.iterate n ?_
  rw [← Function.iterate_add_apply, Nat.add_comm, Function.iterate_add_apply,
    iterate_shift_place hn, hc]

/-! ### The remainder of a sequence of bits -/

/-- The remainder after the first `k` bits of a sequence. -/
def remainder (bits : Nat → Bool) : Nat → UInt8
  | 0 => 0
  | k + 1 => shift (remainder bits k ^^^ (bits k).toUInt8)

/-- The bits from `k` on as a byte: bit `k` at the low end, and so on for `n` bits. -/
def window (bits : Nat → Bool) (k : Nat) : Nat → UInt8
  | 0 => 0
  | n + 1 => window bits k n ^^^ place n (bits (k + n))

theorem bit_window (bits : Nat → Bool) (k : Nat) (hn : n ≤ 8) (i : Nat) :
    bit (window bits k n) i = (decide (i < n) && bits (k + i)) := by
  induction n with
  | zero => simp [window, bit]
  | succ n ih =>
    rw [window, bit_xor, ih (by omega), bit_place hn]
    rcases Nat.lt_trichotomy i n with hi | rfl | hi
    · simp [hi, Nat.lt_succ_of_lt hi, Nat.ne_of_lt hi]
    · simp
    · simp [Nat.not_lt_of_lt hi, Nat.ne_of_gt hi, show ¬ i < n + 1 by omega]

/-- A byte is the window over its own bits. -/
theorem window_eq (h : ∀ i < 8, bits (k + i) = bit b i) : window bits k 8 = b := by
  refine eq_of_bit_eq fun i hi => ?_
  rw [bit_window bits k (Nat.le_refl 8), h i hi, decide_eq_true hi, Bool.true_and]

theorem isPeriodicPt_window (bits : Nat → Bool) (k : Nat) (hn : n ≤ 8) :
    Function.IsPeriodicPt shift 127 (window bits k n) := by
  induction n with
  | zero => exact iterate_shift_zero 127
  | succ n ih =>
    have hp := isPeriodicPt_place hn (bits (k + n))
    exact (iterate_shift_xor 127 _ _).trans (congrArg₂ _ (ih (by omega)) hp)

/-- 127 shifts bring every byte back. -/
theorem isPeriodicPt_shift (b : UInt8) : Function.IsPeriodicPt shift 127 b := by
  have hw : window (bit b) 0 8 = b := window_eq fun i _ => by rw [Nat.zero_add]
  rw [← hw]
  exact isPeriodicPt_window (bit b) 0 (Nat.le_refl 8)

/-- Up to eight bits may come in at once. -/
theorem remainder_add (bits : Nat → Bool) (k : Nat) (hn : n ≤ 8) :
    remainder bits (k + n) = shift^[n] (remainder bits k ^^^ window bits k n) := by
  induction n with
  | zero => rw [window, UInt8.xor_zero]; rfl
  | succ n ih =>
    rw [← Nat.add_assoc, remainder, ih (by omega), ← iterate_shift_place hn,
      ← iterate_shift_xor, UInt8.xor_assoc, ← window, Function.iterate_succ_apply']

/-- Clear bits only shift the remainder. -/
theorem remainder_of_clear (h : ∀ i < n, bits (k + i) = false) :
    remainder bits (k + n) = shift^[n] (remainder bits k) := by
  induction n with
  | zero => rfl
  | succ n ih =>
    rw [← Nat.add_assoc, remainder, h n (Nat.lt_succ_self n), Function.iterate_succ_apply',
      ih fun i hi => h i (Nat.lt_succ_of_lt hi)]
    exact congrArg shift (UInt8.xor_zero)

theorem remainder_congr (h : ∀ i < k, bits i = bits' i) : remainder bits k = remainder bits' k := by
  induction k with
  | zero => rfl
  | succ k ih =>
    rw [remainder, remainder, ih fun i hi => h i (Nat.lt_succ_of_lt hi), h k (Nat.lt_succ_self k)]

theorem parity_remainder (bits : Nat → Bool) (k : Nat) :
    parity (bit (remainder bits k)) 8 = parity bits k := by
  induction k with
  | zero =>
    have hz : parity (bit 0) 8 = false := by decide
    exact hz
  | succ k ih =>
    have hc (c : Bool) : parity (bit c.toUInt8) 8 = c := by cases c <;> decide
    rw [remainder, parity_shift, funext (bit_xor _ _), parity_xor, ih, hc, parity]

/-! ### The check of a message -/

/-- The bits of a message, those of the first byte first. -/
def bitsOf (bytes : List UInt8) (p : Nat) : Bool := bit (bytes[p / 8]?.getD 0) (p % 8)

theorem bitsOf_of_le {bytes : List UInt8} {p : Nat} (hp : 8 * bytes.length ≤ p) :
    bitsOf bytes p = false := by
  rw [bitsOf, List.getElem?_eq_none (by omega)]
  exact Nat.zero_testBit _

/-- Taking in a message byte by byte is taking in its bits. -/
theorem remainder_bitsOf (bytes : List UInt8) :
    remainder (bitsOf bytes) (8 * bytes.length) = checksum bytes := by
  induction bytes using List.reverseRecOn with
  | nil => rfl
  | append_singleton bytes b ih =>
    have hfront : ∀ p < 8 * bytes.length, bitsOf (bytes ++ [b]) p = bitsOf bytes p := by
      intro p hp
      rw [bitsOf, List.getElem?_append_left (by omega), bitsOf]
    have hlast : ∀ i < 8, bitsOf (bytes ++ [b]) (8 * bytes.length + i) = bit b i := by
      intro i hi
      have hdiv : (8 * bytes.length + i) / 8 = bytes.length := by omega
      have hmod : (8 * bytes.length + i) % 8 = i := by omega
      rw [bitsOf, hdiv, hmod, List.getElem?_concat_length]
      rfl
    rw [List.length_append, List.length_singleton, Nat.mul_add, remainder_add _ _ (Nat.le_refl 8),
      remainder_congr hfront, ih, window_eq hlast, checksum_concat]
    rfl

theorem absorb_injective (b : UInt8) : Function.Injective (absorb · b) := by
  intro r r' h
  exact (UInt8.xor_left_inj b).mp (shift_injective.iterate 8 h)

theorem foldl_absorb_injective (bytes : List UInt8) :
    Function.Injective fun r => bytes.foldl absorb r := by
  induction bytes with
  | nil => exact Function.injective_id
  | cons b bytes ih => exact ih.comp (absorb_injective b)

theorem foldl_absorb_xor (bytes bytes' : List UInt8) (h : bytes.length = bytes'.length)
    (r r' : UInt8) :
    (bytes.zipWith (· ^^^ ·) bytes').foldl absorb (r ^^^ r') =
      bytes.foldl absorb r ^^^ bytes'.foldl absorb r' := by
  induction bytes generalizing bytes' r r' with
  | nil =>
    obtain rfl := List.length_eq_zero_iff.mp h.symm
    rfl
  | cons b bytes ih =>
    cases bytes' with
    | nil => cases h
    | cons b' bytes' =>
      have hb : absorb (r ^^^ r') (b ^^^ b') = absorb r b ^^^ absorb r' b' := by
        have he : (r ^^^ r') ^^^ (b ^^^ b') = (r ^^^ b) ^^^ (r' ^^^ b') := by ac_rfl
        rw [absorb, he]
        exact iterate_shift_xor 8 (r ^^^ b) (r' ^^^ b')
      rw [List.zipWith_cons_cons, List.foldl_cons, hb]
      exact ih bytes' (Nat.succ.inj h) (absorb r b) (absorb r' b')

theorem eq_zero_of_shift_eq_self (h : shift r = r) (hlow : bit r 0 = false) : r = 0 := by
  have hhalf : r.toNat / 2 = r.toNat := by
    rw [shift_eq, if_neg (by simp [hlow]), UInt8.xor_zero] at h
    simpa [Nat.shiftRight_one] using congrArg UInt8.toNat h
  refine UInt8.toNat_inj.mp ?_
  rw [UInt8.toNat_zero]
  omega

/-- Apart from 0, a shift leaves one remainder alone. -/
theorem shift_eq_self_iff : shift r = r ↔ r = 0 ∨ r = 0xF7 := by
  have hf : shift 0xF7 = 0xF7 := by decide
  constructor
  · intro h
    cases hlow : bit r 0 with
    | false => exact Or.inl (eq_zero_of_shift_eq_self h hlow)
    | true =>
      have hz : r ^^^ 0xF7 = 0 := by
        apply eq_zero_of_shift_eq_self
        · rw [shift_xor, h, hf]
        · rw [bit_xor, hlow]
          decide
      exact Or.inr (UInt8.xor_eq_zero_iff.mp hz)
  · rintro (rfl | rfl)
    · rfl
    · exact hf

/-- One byte brings back what one bit does not change: 8 and 127 have no common divisor. -/
theorem iterate_shift_eight_eq_self_iff : shift^[8] r = r ↔ r = 0 ∨ r = 0xF7 := by
  rw [← shift_eq_self_iff]
  constructor
  · intro h
    have h₈ : Function.IsPeriodicPt shift 8 r := h
    exact h₈.gcd (isPeriodicPt_shift r)
  · intro h
    exact Function.iterate_fixed h 8

end Checksum

open Checksum in
/-- Two neighbouring bytes may change places unnoticed exactly when they are equal or differ by
`0xF7`, whatever stands before and behind them. -/
theorem checksum_swap_iff (front back : List UInt8) (a b : UInt8) :
    checksum (front ++ [a, b] ++ back) = checksum (front ++ [b, a] ++ back) ↔
      a = b ∨ a ^^^ b = 0xF7 := by
  have hswap (r : UInt8) :
      absorb (absorb r a) b = absorb (absorb r b) a ↔ shift^[8] (a ^^^ b) = a ^^^ b := by
    have hx (c : UInt8) : absorb r c = shift^[8] r ^^^ shift^[8] c := iterate_shift_xor 8 r c
    calc absorb (absorb r a) b = absorb (absorb r b) a
        ↔ absorb r a ^^^ b = absorb r b ^^^ a := (shift_injective.iterate 8).eq_iff
      _ ↔ shift^[8] a ^^^ b = shift^[8] b ^^^ a := by
        rw [hx, hx, UInt8.xor_assoc, UInt8.xor_assoc, UInt8.xor_right_inj]
      _ ↔ (shift^[8] a ^^^ shift^[8] b) ^^^ (a ^^^ b) = 0 := by
        rw [← UInt8.xor_eq_zero_iff]
        exact Eq.congr_left (by ac_rfl)
      _ ↔ shift^[8] (a ^^^ b) = a ^^^ b := by
        rw [UInt8.xor_eq_zero_iff, iterate_shift_xor]
  simp only [checksum, List.foldl_append, List.foldl_cons, List.foldl_nil]
  rw [(foldl_absorb_injective back).eq_iff, hswap, iterate_shift_eight_eq_self_iff,
    UInt8.xor_eq_zero_iff]

end KnitBench.Wire
