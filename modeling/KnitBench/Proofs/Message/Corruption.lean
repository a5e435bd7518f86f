import KnitBench.Message.Stamp
import KnitBench.Proofs.Wire.Checksum

/-! What the check byte tells of a message that has been damaged on the way. Damage is a mask of the
bits that have changed, and it shows exactly when the check of the mask alone is not zero. -/

namespace KnitBench.Message

open Wire Wire.Checksum

variable {body mask message payload : List UInt8} {code last : UInt8} {n : Nat}

/-- A message in which the bits of a mask have changed. -/
def damaged (message mask : List UInt8) : List UInt8 := message.zipWith (· ^^^ ·) mask

/-- An odd number of bits. -/
def OddlyMany (mask : List UInt8) : Prop :=
  Odd (Nat.count (fun p => bitsOf mask p = true) (8 * mask.length))

/-- Some bits, none of them eight or more places from another. -/
def Burst (mask : List UInt8) : Prop :=
  (∃ p, bitsOf mask p = true) ∧ ∃ q, ∀ p, bitsOf mask p = true → q ≤ p ∧ p < q + 8

/-- Two bits, at a distance that is no multiple of 127. -/
def Pair (mask : List UInt8) : Prop :=
  ∃ p q, p < q ∧ ¬ 127 ∣ q - p ∧ ∀ r, bitsOf mask r = true ↔ r = p ∨ r = q

theorem split_concat (code : UInt8) (payload : List UInt8) (last : UInt8) :
    split (code :: (payload ++ [last])) =
      if checksum (code :: payload) = last then .ok (code, payload)
      else .error (.badChecksum code (checksum (code :: payload)) last) := by
  simp [split]

/-- Only what has been stamped is taken for a message. -/
theorem split_eq_ok_iff :
    split message = .ok (code, payload) ↔ message = stamp (code :: payload) := by
  constructor
  · intro h
    cases message with
    | nil => cases h
    | cons first rest =>
      rcases rest.eq_nil_or_concat with rfl | ⟨front, last, rfl⟩
      · cases h
      · rw [List.concat_eq_append, split_concat] at h
        split at h
        · rename_i hlast
          cases h
          rw [stamp, hlast, List.concat_eq_append]
          rfl
        · cases h
  · rintro rfl
    exact split_stamp

/-- The check of a whole message is zero exactly when its last byte is right. -/
theorem checksum_concat_eq_zero_iff : checksum (body ++ [last]) = 0 ↔ checksum body = last := by
  rw [checksum_concat, ← UInt8.xor_eq_zero_iff (a := checksum body)]
  constructor
  · intro h
    exact shift_injective.iterate 8 (h.trans (iterate_shift_zero 8).symm)
  · intro h
    rw [absorb, h]
    rfl

/-- Of a damaged message the check sees only the damage. -/
theorem checksum_damaged (hl : mask.length = (stamp body).length) :
    checksum (damaged (stamp body) mask) = checksum mask := by
  have hs : checksum (stamp body) = 0 := checksum_concat_eq_zero_iff.mpr rfl
  have hx := foldl_absorb_xor (stamp body) mask hl.symm 0 0
  change checksum _ = checksum _ ^^^ checksum _ at hx
  rw [damaged, hx, hs, UInt8.zero_xor]

theorem exists_split_damaged (hb : body ≠ []) (hl : mask.length = (stamp body).length)
    (hm : checksum mask ≠ 0) : ∃ code expected actual,
      split (damaged (stamp body) mask) = .error (.badChecksum code expected actual) := by
  have hlen : 2 ≤ (damaged (stamp body) mask).length := by
    have := List.length_pos_iff.mpr hb
    rw [damaged, List.length_zipWith, hl, Nat.min_self, stamp, List.length_append,
      List.length_singleton]
    omega
  rw [← checksum_damaged hl] at hm
  generalize damaged (stamp body) mask = message at hlen hm
  cases message with
  | nil => cases hlen
  | cons code rest =>
    rcases rest.eq_nil_or_concat with rfl | ⟨payload, last, rfl⟩
    · simp at hlen
    · rw [List.concat_eq_append] at hm ⊢
      rw [← List.cons_append, Ne, checksum_concat_eq_zero_iff] at hm
      exact ⟨code, _, last, by rw [split_concat, if_neg hm]⟩

/-! ### Damage that is seen -/

theorem checksum_ne_zero_of_oddlyMany (h : OddlyMany mask) : checksum mask ≠ 0 := by
  intro hz
  have hodd : parity (bitsOf mask) (8 * mask.length) = true := by
    rw [parity_eq]
    exact decide_eq_true h
  rw [← parity_remainder, remainder_bitsOf, hz] at hodd
  exact absurd hodd (by decide)

/-- Behind the last byte the remainder is only shifted: where the message ends is of no account. -/
theorem checksum_ne_zero_of_remainder
    (h : remainder (bitsOf mask) (n + 8 * mask.length) ≠ 0) : checksum mask ≠ 0 := by
  intro hz
  rw [Nat.add_comm, remainder_of_clear fun i _ => bitsOf_of_le (Nat.le_add_right ..),
    remainder_bitsOf, hz, iterate_shift_zero] at h
  exact h rfl

theorem remainder_before {bits : Nat → Bool} (h : ∀ i < n, bits i = false) :
    remainder bits n = 0 := by
  have hr : remainder bits (0 + n) = shift^[n] 0 :=
    remainder_of_clear fun i hi => by rw [Nat.zero_add, h i hi]
  rw [Nat.zero_add] at hr
  exact hr.trans (iterate_shift_zero n)

theorem checksum_ne_zero_of_burst (h : Burst mask) : checksum mask ≠ 0 := by
  obtain ⟨⟨p, hp⟩, q, hq⟩ := h
  have clear (i : Nat) (hi : i < q ∨ q + 8 ≤ i) : bitsOf mask i = false := by
    rw [Bool.eq_false_iff]
    intro hs
    have := hq i hs
    omega
  have hwindow : window (bitsOf mask) q 8 ≠ 0 := by
    intro hz
    have hbit := bit_window (bitsOf mask) q (Nat.le_refl 8) (p - q)
    obtain ⟨hqp, hpq⟩ := hq p hp
    rw [hz, Nat.add_sub_cancel' hqp, hp, decide_eq_true (by omega)] at hbit
    exact Bool.false_ne_true ((Nat.zero_testBit _).symm.trans hbit)
  refine checksum_ne_zero_of_remainder (n := q + 8) ?_
  rw [remainder_of_clear fun i _ => clear _ (by omega), remainder_add _ _ (Nat.le_refl 8),
    remainder_before fun i hi => clear i (Or.inl hi), UInt8.zero_xor]
  exact iterate_shift_ne_zero _ (iterate_shift_ne_zero 8 hwindow)

theorem checksum_ne_zero_of_pair (h : Pair mask) : checksum mask ≠ 0 := by
  obtain ⟨p, q, hpq, hd, hset⟩ := h
  have clear (i : Nat) (hp : i ≠ p) (hq : i ≠ q) : bitsOf mask i = false := by
    rw [Bool.eq_false_iff]
    intro hs
    rcases (hset i).mp hs with rfl | rfl
    · exact hp rfl
    · exact hq rfl
  obtain ⟨d, rfl⟩ := Nat.exists_eq_add_of_lt hpq
  have hfirst : remainder (bitsOf mask) (p + 1) = shift 1 := by
    rw [remainder, remainder_before fun i hi => clear i (by omega) (by omega),
      (hset p).mpr (Or.inl rfl)]
    rfl
  have hsecond : remainder (bitsOf mask) (p + d + 1) = shift^[d + 1] 1 := by
    rw [Nat.add_right_comm, remainder_of_clear fun i _ => clear _ (by omega) (by omega), hfirst]
    rfl
  have hne : shift^[d + 1] 1 ^^^ 1 ≠ 0 := by
    rw [Ne, UInt8.xor_eq_zero_iff, iterate_shift_one_eq_iff]
    rwa [Nat.add_assoc, Nat.add_sub_cancel_left] at hd
  refine checksum_ne_zero_of_remainder (n := p + d + 1 + 1) ?_
  rw [remainder_of_clear fun i _ => clear _ (by omega) (by omega), remainder, hsecond,
    (hset _).mpr (Or.inr rfl)]
  exact iterate_shift_ne_zero _ (iterate_shift_ne_zero 1 hne)

/-- Damage to an odd number of bits, to bits within eight places, or to two bits at a distance that
is no multiple of 127 never goes unnoticed. And a message is taken exactly when it is what stamping
its command and payload yields. -/
theorem split_damaged :
    (∀ body mask : List UInt8, body ≠ [] → mask.length = (stamp body).length →
      OddlyMany mask ∨ Burst mask ∨ Pair mask → ∃ code expected actual,
        split (damaged (stamp body) mask) = .error (.badChecksum code expected actual)) ∧
    ∀ (message : List UInt8) (code : UInt8) (payload : List UInt8),
      split message = .ok (code, payload) ↔ message = stamp (code :: payload) := by
  constructor
  · intro body mask hb hl hm
    refine exists_split_damaged hb hl ?_
    rcases hm with hm | hm | hm
    · exact checksum_ne_zero_of_oddlyMany hm
    · exact checksum_ne_zero_of_burst hm
    · exact checksum_ne_zero_of_pair hm
  · intro message code payload
    exact split_eq_ok_iff

/-- Six bits in a row are changed, across the end of a byte. -/
theorem split_damaged_straddling :
    let body : List UInt8 := [0x01, 0, 199, 0]
    let mask : List UInt8 := [0, 0xE0, 0x07, 0, 0]
    body ≠ [] ∧ mask.length = (stamp body).length ∧
      (OddlyMany mask ∨ Burst mask ∨ Pair mask) ∧ ∃ code expected actual,
        split (damaged (stamp body) mask) = .error (.badChecksum code expected actual) := by
  intro body mask
  have hburst : Burst mask := by
    have hall : ∀ p : Fin 40, bitsOf mask p = true → 13 ≤ p.val ∧ p.val < 13 + 8 := by decide
    refine ⟨⟨13, by decide⟩, 13, fun p hp => ?_⟩
    by_cases hlt : p < 40
    · exact hall ⟨p, hlt⟩ hp
    · rw [bitsOf_of_le (Nat.le_of_not_lt hlt)] at hp
      cases hp
  have hb : body ≠ [] := List.cons_ne_nil _ _
  have hl : mask.length = (stamp body).length := by simp [mask, body, stamp]
  exact ⟨hb, hl, Or.inr (Or.inl hburst),
    split_damaged.1 body mask hb hl (Or.inr (Or.inl hburst))⟩

end KnitBench.Message
