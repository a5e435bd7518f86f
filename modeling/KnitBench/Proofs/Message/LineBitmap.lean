import Mathlib.Algebra.Group.Nat.Defs
import KnitBench.Message.LineBitmap

/-! The bitmap of a line: how it is read from the bytes of a message, and which needles the line of
a pattern selects. -/

namespace KnitBench.LineBitmap

variable {bytes : List UInt8}

theorem exists_ofBytes? (h : size ≤ bytes.length) : ∃ bits, ofBytes? bytes = some bits := by
  have hl : (bytes.take size).toArray.size = size := by
    rw [List.size_toArray, List.length_take, Nat.min_eq_left h]
  exact ⟨_, dif_pos hl⟩

theorem ofBytes?_of_lt (h : ¬ size ≤ bytes.length) : ofBytes? bytes = none := by
  have hl : ¬ (bytes.take size).toArray.size = size := by
    rw [List.size_toArray, List.length_take]
    omega
  exact dif_neg hl

/-- A bitmap read back from its bytes. -/
theorem ofBytes?_toList (bits : LineBitmap) : ofBytes? bits.toList = some bits := by
  have hl : bits.toList.length = size := bits.length_toList
  have hf : (bits.toList.take size).toArray = bits.toArray := by
    rw [List.take_of_length_le (Nat.le_of_eq hl)]
    exact bits.toArray_toList
  unfold ofBytes?
  simp only [hf]
  rw [dif_pos bits.size_toArray]

/-- A byte with one bit. -/
theorem toNat_one_shiftLeft {n : Nat} (hn : n < 8) :
    ((1 : UInt8) <<< UInt8.ofNat n).toNat = 2 ^ n := by
  have hall : ∀ i : Fin 8, ((1 : UInt8) <<< UInt8.ofNat i.val).toNat = 2 ^ i.val := by decide
  exact hall ⟨n, hn⟩

theorem testBit_fold (bits : Nat → Bool) {n : Nat} (hn : n ≤ 8) (j : Nat) :
    ((List.range n).foldl
      (fun (b : UInt8) i => if bits i then b ||| (1 : UInt8) <<< UInt8.ofNat i else b)
      0).toNat.testBit j = (decide (j < n) && bits j) := by
  induction n with
  | zero => simp
  | succ n ih =>
    have hpow := toNat_one_shiftLeft hn
    rw [List.range_succ, List.foldl_append, List.foldl_cons, List.foldl_nil]
    have hstep : decide (j < n + 1) = (decide (j < n) || decide (j = n)) := by
      rw [← Bool.decide_or, decide_eq_decide]
      omega
    rw [hstep, Bool.and_or_distrib_right, ← ih (by omega)]
    by_cases hj : j = n
    · subst hj
      cases bits j <;> simp [hpow]
    · cases bits n <;> simp [hj, hpow, Ne.symm hj]

theorem testBit_byteOf (bits : Nat → Bool) {j : Nat} (hj : j < 8) :
    (byteOf bits).toNat.testBit j = bits j := by
  rw [byteOf, testBit_fold bits (Nat.le_refl 8), decide_eq_true hj, Bool.true_and]

/-- A bitmap made of cells selects what the cells want. -/
theorem selects_ofCells (cells : Array Needle) (start stop : Nat) {k : Nat} (hk : k < 8 * size) :
    (ofCells cells start stop).selects k = wants cells start stop k := by
  have hb : k / 8 < size := by omega
  have hget : (ofCells cells start stop).toArray[k / 8]? =
      some (byteOf fun j => wants cells start stop (8 * (k / 8) + j)) := by
    simp [ofCells, hb]
  rw [selects, bitAt, hget, Option.any_some, testBit_byteOf _ (Nat.mod_lt k (by decide)),
    Nat.div_add_mod]

/-- A pattern repeated over a range wants its needle at every offset. -/
theorem wants_cells (p : Pattern) {start stop k : Nat} (h : start + k ≤ stop) :
    wants p.cells start stop (start + k) = decide (p.needleAt k = .selected) := by
  have hmod : k % p.cells.size < p.cells.size := Nat.mod_lt _ p.size_pos
  rw [wants, decide_eq_true ⟨Nat.le_add_right .., h⟩, Bool.true_and, Nat.add_sub_cancel_left,
    Array.getElem?_eq_getElem hmod]
  unfold Pattern.needleAt
  cases p.cells[k % p.cells.size] <;> rfl

/-- A bitmap ends after its last byte. -/
theorem selects_of_le (bits : LineBitmap) {k : Nat} (hk : 8 * size ≤ k) :
    bits.selects k = false := by
  have hb : bits.toArray[k / 8]? = none := by
    rw [Array.getElem?_eq_none_iff, bits.size_toArray]
    omega
  rw [selects, bitAt, hb]
  rfl

/-- A byte asks for its needle exactly if it is a bar. -/
theorem getElem?_map_ofByte (pattern : Array UInt8) (i : Nat) :
    (pattern.map Needle.ofByte)[i]? = some .selected ↔ pattern[i]? = some 0x7C := by
  rw [Array.getElem?_map]
  cases pattern[i]? with
  | none => simp
  | some b => by_cases hb : b = 0x7C <;> simp [Needle.ofByte, hb]

/-- Bytes, repeated from `start` to `stop`, ask for a needle where they have a bar. -/
theorem wants_map_ofByte (pattern : Array UInt8) (start stop k : Nat) :
    wants (pattern.map Needle.ofByte) start stop k = true ↔
      start ≤ k ∧ k ≤ stop ∧ pattern[(k - start) % pattern.size]? = some 0x7C := by
  rw [wants, Array.size_map, Bool.and_eq_true, decide_eq_true_eq, beq_iff_eq, getElem?_map_ofByte,
    and_assoc]

/-- Which needles the line of a pattern selects. -/
theorem selects_map_ofByte (pattern : Array UInt8) (start stop k : Nat) :
    (ofCells (pattern.map Needle.ofByte) start stop).selects k = true ↔
      k < 8 * size ∧ start ≤ k ∧ k ≤ stop ∧
        pattern[(k - start) % pattern.size]? = some 0x7C := by
  by_cases hk : k < 8 * size
  · rw [selects_ofCells _ _ _ hk, wants_map_ofByte, and_iff_right hk]
  · simp [selects_of_le _ (Nat.le_of_not_lt hk), hk]

/-- Which needles the line of a text selects. -/
theorem selects_rowOfText (text : String) (start stop k : Nat) :
    (ofCells (Needle.rowOfText text) start stop).selects k = true ↔
      k < 8 * size ∧ start ≤ k ∧ k ≤ stop ∧
        text.toUTF8.data[(k - start) % text.toUTF8.size]? = some 0x7C :=
  selects_map_ofByte text.toUTF8.data start stop k

end KnitBench.LineBitmap
