import KnitBench.Proofs.Controller.Replies

/-! The way of a line from the text of its pattern into the line buffer of the controller. -/

namespace KnitBench

/-- The flag of the last line is the lowest bit. -/
theorem Message.and_lastLineFlag (flags : UInt8) :
    (flags &&& lastLineFlag != 0) = flags.toNat.testBit 0 := by
  rw [Bool.eq_iff_iff, bne_iff_ne, Nat.testBit_zero, decide_eq_true_eq, Ne, ← UInt8.toNat_inj]
  simp [lastLineFlag]

/-- Before the last byte of a frame, a receiver yields nothing. -/
theorem Wire.Framer.feed_part {m part rest : List UInt8} (hm : Fits m)
    (h : frame m = part ++ rest) (hr : rest ≠ []) : (empty.feed part).1 = [] := by
  obtain ⟨f, hf, -⟩ := exists_feed_open_frame hm
  have hopen : delimiter :: stuff m = part ++ rest.dropLast := by
    rw [← List.dropLast_append_of_ne_nil hr, ← h, frame, ← List.cons_append,
      List.dropLast_concat]
  rw [hopen, feed_append] at hf
  exact (List.append_eq_nil_iff.mp (congrArg Prod.fst hf)).1

namespace ReferenceController

variable {c : ReferenceController}

/-- A controller that knits and waits for a line takes it with the last byte of its frame: until
then nothing but the receiver changes, and with it nothing but the line buffer, without a word. The
needles it will knit are those of the range for which the pattern, repeated from the start of the
range, has a bar. -/
theorem receiveAll_line (pattern : String) (start stop : Nat) (line color flags : UInt8)
    (hm : c.mode = .knitting) (hi : c.line.index = line) (hr : c.receiver = .empty)
    (hstop : stop < c.model.needleCount) :
    let message := Message.cnfLine line color flags
      (.ofCells (Needle.rowOfText pattern) start stop)
    (∀ part rest, Wire.frame message = part ++ rest → rest ≠ [] →
      ∃ receiver, Controller.receiveAll part c = pure { c with receiver }) ∧
    ∃ bitmap : LineBitmap,
      (∀ k, bitmap.selects k = true ↔ start ≤ k ∧ k ≤ stop ∧
        pattern.toUTF8.data[(k - start) % pattern.toUTF8.size]? = some '|'.toUInt8) ∧
      Controller.receiveAll (Wire.frame message) c = pure { c with
        line := { index := line, bitmap, ready := true, last := flags.toNat.testBit 0
                  worked := none } } := by
  subst hi
  intro message
  have hfits : Wire.Fits message := Message.fits_cnfLine ..
  refine ⟨fun part rest hpart hrest => ?_,
    .ofCells (Needle.rowOfText pattern) start stop, fun k => ?_, ?_⟩
  · refine ⟨(c.receiver.feed part).2, receiveAll_of_feed part ?_⟩
    rw [hr]
    exact Wire.Framer.feed_part hfits hpart hrest
  · have hbed : c.model.needleCount ≤ 8 * LineBitmap.size := by cases c.model <;> decide
    rw [LineBitmap.selects_rowOfText]
    exact and_iff_right_of_imp fun h => by omega
  · rw [receiveAll_frame hfits hr, onMessage_cnfLine hm rfl, Message.and_lastLineFlag]

/-- A controller that waits for the line whose number is the byte of a delimiter. -/
def waitingForDelimiter : ReferenceController :=
  { powerOn .kh270 with
    mode := .knitting, start := 3, stop := 9, line := { index := Wire.delimiter } }

theorem receiveAll_line_delimiter :
    (waitingForDelimiter.mode = .knitting ∧ waitingForDelimiter.line.index = Wire.delimiter ∧
      waitingForDelimiter.receiver = .empty ∧ 9 < waitingForDelimiter.model.needleCount) ∧
    ∃ bitmap : LineBitmap,
      (List.range 12).filter bitmap.selects = [3, 6, 9] ∧
      Controller.receiveAll (Wire.frame (Message.cnfLine Wire.delimiter Wire.escape 0xC1
          (.ofCells (Needle.rowOfText "|..") 3 9))) waitingForDelimiter =
        pure { waitingForDelimiter with
          line := { index := Wire.delimiter, bitmap, ready := true, last := true } } := by
  refine ⟨⟨rfl, rfl, rfl, by decide⟩, ?_⟩
  obtain ⟨-, bitmap, hbits, htaken⟩ := receiveAll_line (c := waitingForDelimiter) "|.." 3 9
    Wire.delimiter Wire.escape 0xC1 rfl rfl rfl (by decide)
  have hselects : bitmap.selects = fun k => decide (3 ≤ k ∧ k ≤ 9 ∧
      "|..".toUTF8.data[(k - 3) % "|..".toUTF8.size]? = some '|'.toUInt8) :=
    funext fun k => Bool.eq_iff_iff.mpr ((hbits k).trans decide_eq_true_iff.symm)
  refine ⟨bitmap, ?_, htaken⟩
  rw [hselects]
  decide +kernel

end ReferenceController

end KnitBench
