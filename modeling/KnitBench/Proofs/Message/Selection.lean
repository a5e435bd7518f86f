import Mathlib.Data.Set.Card
import KnitBench.Message.Describe
import KnitBench.Proofs.Message.LineBitmap
import KnitBench.Proofs.Wire.Delivery

/-! The needles that the line of a pattern selects: those of its range at which the pattern,
repeated from the first needle on, has a bar, as far as the bitmap goes. Marking them one after
another makes the bitmap, and a line in words tells how many they are. -/

namespace KnitBench

namespace LineBitmap

variable {bits bits' : LineBitmap} {bytes : Array UInt8} {cells : Array Needle}
  {start stop j k : Nat}

/-- The bitmap with needle `k` selected as well, if it has a bit for it. -/
def mark (bits : LineBitmap) (k : Nat) : LineBitmap :=
  if h : k / 8 < size then
    bits.set (k / 8) (bits[k / 8] ||| (1 : UInt8) <<< UInt8.ofNat (k % 8))
  else bits

/-- The needles from `start` to `stop`. -/
def span (start stop : Nat) : List Nat := List.range' start (stop + 1 - start)

theorem mem_span : k ∈ span start stop ↔ start ≤ k ∧ k ≤ stop := by
  rw [span, List.mem_range'_1]
  omega

theorem selects_eq (bits : LineBitmap) (hj : j / 8 < size) :
    bits.selects j = bits[j / 8].toNat.testBit (j % 8) := by
  simp [selects, bitAt, hj]

/-- Marking a needle selects that needle and changes no other. -/
theorem selects_mark (bits : LineBitmap) (k j : Nat) :
    (bits.mark k).selects j = true ↔ bits.selects j = true ∨ j = k ∧ k < 8 * size := by
  by_cases hk : k / 8 < size
  · rw [mark, dif_pos hk]
    by_cases hj : j / 8 < size
    · have hbit := toNat_one_shiftLeft (Nat.mod_lt k (by decide : 0 < 8))
      rw [selects_eq _ hj, selects_eq _ hj]
      by_cases hw : k / 8 = j / 8
      · have he : k % 8 = j % 8 ↔ j = k ∧ k < 8 * size := by
          constructor
          · intro h
            omega
          · rintro ⟨rfl, -⟩
            rfl
        simp only [hw, Vector.getElem_set_self, UInt8.toNat_or, Nat.testBit_or, hbit,
          Nat.testBit_two_pow, Bool.or_eq_true, decide_eq_true_eq, he]
      · have hne : ¬ (j = k ∧ k < 8 * size) := by
          rintro ⟨rfl, -⟩
          exact hw rfl
        rw [Vector.getElem_set_ne _ _ hw, or_iff_left hne]
    · have hne : ¬ (j = k ∧ k < 8 * size) := by
        rintro ⟨rfl, -⟩
        exact hj hk
      have hle : 8 * size ≤ j := by omega
      rw [selects_of_le _ hle, selects_of_le _ hle, or_iff_left hne]
  · have hne : ¬ (j = k ∧ k < 8 * size) := by
      rintro ⟨-, h⟩
      omega
    rw [mark, dif_neg hk, or_iff_left hne]

/-- Needles that are marked one after another are all selected, as far as the bitmap goes. -/
theorem selects_foldl_mark (ks : List Nat) (bits : LineBitmap) (j : Nat) :
    (ks.foldl mark bits).selects j = true ↔ bits.selects j = true ∨ j ∈ ks ∧ j < 8 * size := by
  induction ks generalizing bits with
  | nil => simp
  | cons k ks ih =>
    rw [List.foldl_cons, ih, selects_mark, List.mem_cons, or_assoc, or_and_right]
    apply or_congr_right
    apply or_congr_left
    constructor
    · rintro ⟨rfl, hk⟩
      exact ⟨rfl, hk⟩
    · rintro ⟨rfl, hk⟩
      exact ⟨rfl, hk⟩

theorem selects_blank (j : Nat) : blank.selects j = false := by
  by_cases hj : j / 8 < size
  · simp [selects_eq _ hj, blank]
  · exact selects_of_le _ (by omega)

/-- A bitmap is told by the needles that it selects. -/
theorem ext_selects (h : ∀ k, k < 8 * size → bits.selects k = bits'.selects k) :
    bits = bits' := by
  apply Vector.ext
  intro i hi
  apply UInt8.toNat_inj.mp
  apply Nat.eq_of_testBit_eq
  intro b
  by_cases hb : b < 8
  · have hdiv : (8 * i + b) / 8 = i := by omega
    have hmod : (8 * i + b) % 8 = b := by omega
    have hk := h (8 * i + b) (by omega)
    rw [selects_eq _ (by omega), selects_eq _ (by omega)] at hk
    simpa only [hdiv, hmod] using hk
  · have hpow : 2 ^ 8 ≤ 2 ^ b := Nat.pow_le_pow_right (by decide) (by omega)
    rw [Nat.testBit_lt_two_pow (Nat.lt_of_lt_of_le bits[i].toNat_lt hpow),
      Nat.testBit_lt_two_pow (Nat.lt_of_lt_of_le bits'[i].toNat_lt hpow)]

/-- Marking the needles of the range that its cells select, from the first to the last, makes the
bitmap of a row of cells. -/
theorem ofCells_eq_foldl_mark (cells : Array Needle) (start stop : Nat) :
    ofCells cells start stop =
      ((span start stop).filter
        (fun k => cells[(k - start) % cells.size]? == some .selected)).foldl mark blank := by
  apply ext_selects
  intro k hk
  rw [selects_ofCells _ _ _ hk, wants, Bool.eq_iff_iff, selects_foldl_mark, selects_blank,
    List.mem_filter, mem_span, Bool.and_eq_true, decide_eq_true_eq]
  simp [hk]

/-- A payload selects as many needles as its bitmap does. -/
theorem count_toList (bits : LineBitmap) :
    count bits.toList = {k | bits.selects k = true}.ncard := by
  have hset : {k | bits.selects k = true} =
      (((List.range (8 * size)).filter bits.selects).toFinset : Set Nat) := by
    ext k
    have hlt : bits.selects k = true → k < 8 * size := by
      intro hs
      by_contra hk
      rw [selects_of_le bits (Nat.le_of_not_lt hk)] at hs
      cases hs
    simpa using hlt
  have hnodup : ((List.range (8 * size)).filter bits.selects).Nodup := List.nodup_range.filter _
  have hbit : bitAt bits.toList.toArray = bits.selects := by
    rw [bits.toArray_toList]
    rfl
  rw [hset, Set.ncard_coe_finset, List.toFinset_card_of_nodup hnodup, count, hbit,
    bits.length_toList]

/-- Needle `k` is one of the range and of the bitmap, and a pattern, repeated from the first needle
of the range on, has a bar for it. -/
structure Barred (pattern : Array UInt8) (start stop k : Nat) : Prop where
  nonempty : pattern ≠ #[]
  onBitmap : k < 200
  start_le : start ≤ k
  le_stop : k ≤ stop
  bar : pattern[(k - start) % pattern.size]? = some 0x7C

/-- The line of a pattern selects the needles at which the pattern has a bar. -/
theorem selects_iff_barred (pattern : Array UInt8) (start stop k : Nat) :
    (ofCells (pattern.map Needle.ofByte) start stop).selects k = true ↔
      Barred pattern start stop k := by
  rw [selects_map_ofByte]
  constructor
  · rintro ⟨hk, hstart, hstop, hbar⟩
    refine ⟨?_, hk, hstart, hstop, hbar⟩
    rintro rfl
    cases hbar
  · rintro ⟨-, hk, hstart, hstop, hbar⟩
    exact ⟨hk, hstart, hstop, hbar⟩

end LineBitmap

namespace Message

open LineBitmap

/-- A line in words tells its number, its color, how many needles it selects, and whether it is the
last. -/
theorem describe_cnfLine (line color flags : UInt8) (bits : LineBitmap) :
    describe (cnfLine line color flags bits) =
      s!"cnfLine {line.toNat} color={color.toNat} selected={count bits.toList}" ++
        if flags &&& lastLineFlag = 0 then "" else " last" := by
  rw [describe, cnfLine, split_make]
  dsimp only
  rw [Code.ofByte?_byte]
  rfl

/-- The line of any pattern, of one that is empty too, selects exactly the needles of its range and
of the bitmap at which the pattern, repeated from the first needle of the range on, has a bar. They
may have been marked one after another, and the line in words tells how many they are. -/
theorem selects_barred_and_describe (pattern : Array UInt8) (start stop : Nat)
    (line color flags : UInt8) :
    let bits := ofCells (pattern.map Needle.ofByte) start stop
    let selected := {k | Barred pattern start stop k}.ncard
    (∀ k, bits.selects k = true ↔ Barred pattern start stop k) ∧
      bits = ((span start stop).filter
        fun k => pattern[(k - start) % pattern.size]? == some 0x7C).foldl mark blank ∧
      describe (cnfLine line color flags bits) =
        s!"cnfLine {line.toNat} color={color.toNat} selected={selected}" ++
          if flags &&& lastLineFlag = 0 then "" else " last" := by
  intro bits selected
  have hbars := selects_iff_barred pattern start stop
  refine ⟨hbars, ?_, ?_⟩
  · have hcells : bits = _ := ofCells_eq_foldl_mark (pattern.map Needle.ofByte) start stop
    rw [hcells]
    congr 1
    apply List.filter_congr
    intro k _
    rw [Bool.eq_iff_iff, beq_iff_eq, beq_iff_eq, Array.size_map, getElem?_map_ofByte]
  · have hset : {k | bits.selects k = true} = {k | Barred pattern start stop k} :=
      Set.ext hbars
    rw [describe_cnfLine, count_toList, hset]

end Message

end KnitBench
