import KnitBench.Message.Build
import KnitBench.Wire.Framer

/-! A framed message reaches a receiver that waits for one: the bytes of its frame yield exactly the
message, as long as its stuffed form fits into the receiver. -/

namespace KnitBench.Wire

variable {m : List UInt8} {ms : List (List UInt8)} {b : UInt8}

theorem unstuff_cons (hb : b ≠ escape) (rest : List UInt8) :
    unstuff (b :: rest) = b :: unstuff rest := by
  cases rest with
  | nil => simp [unstuff, hb]
  | cons c rest => simp [unstuff, hb]

theorem unstuff_stuffByte_append (b : UInt8) (rest : List UInt8) :
    unstuff (stuffByte b ++ rest) = b :: unstuff rest := by
  by_cases hd : b = delimiter
  · subst hd
    simp [stuffByte, unstuff, unescape]
  · by_cases he : b = escape
    · subst he
      have hne : escape ≠ delimiter := by decide
      have hs : escapeStandIn ≠ delimiterStandIn := by decide
      simp [stuffByte, unstuff, unescape, hne, hs]
    · rw [show stuffByte b = [b] by simp [stuffByte, hd, he], List.singleton_append,
        unstuff_cons he]

/-- Stuffing is undone exactly. -/
theorem unstuff_stuff (m : List UInt8) : unstuff (stuff m) = m := by
  induction m with
  | nil => rfl
  | cons b m ih => rw [stuff_cons, unstuff_stuffByte_append, ih]

theorem delimiter_notMem_stuffByte (b : UInt8) : delimiter ∉ stuffByte b := by
  by_cases hd : b = delimiter
  · rw [show stuffByte b = [escape, delimiterStandIn] by simp [stuffByte, hd]]
    decide
  · by_cases he : b = escape
    · subst he
      decide
    · rw [show stuffByte b = [b] by simp [stuffByte, hd, he]]
      simpa using Ne.symm hd

theorem delimiter_notMem_stuff (m : List UInt8) : delimiter ∉ stuff m := by
  intro h
  obtain ⟨b, -, hb⟩ := List.mem_flatMap.mp h
  exact delimiter_notMem_stuffByte b hb

theorem length_stuffByte_le (b : UInt8) : (stuffByte b).length ≤ 2 := by
  unfold stuffByte
  split
  · simp
  · split <;> simp

theorem length_stuff_le (m : List UInt8) : (stuff m).length ≤ 2 * m.length := by
  induction m with
  | nil => simp
  | cons b m ih =>
    have hb := length_stuffByte_le b
    simp only [stuff_cons, List.length_append, List.length_cons]
    omega

theorem stuff_ne_nil (hm : m ≠ []) : stuff m ≠ [] := by
  intro h
  have := unstuff_stuff m
  rw [h] at this
  exact hm this.symm

/-- A message whose stuffed form a receiver can hold. -/
def Fits (m : List UInt8) : Prop := m ≠ [] ∧ (stuff m).length ≤ Framer.capacity

theorem fits_of_length_le (hm : m ≠ []) (hl : m.length ≤ 64) : Fits m := by
  have := length_stuff_le m
  exact ⟨hm, by unfold Framer.capacity; omega⟩

namespace Framer

variable {f : Framer}

theorem feed_cons (f : Framer) (b : UInt8) (rest : List UInt8) :
    f.feed (b :: rest) =
      ((f.push b).1.toList ++ ((f.push b).2.feed rest).1, ((f.push b).2.feed rest).2) := rfl

theorem push_delimiter (hf : f.pending.isEmpty = false) :
    f.push delimiter = (some (unstuff f.pending.toList), empty) := by
  simp [push, hf]

/-- A receiver that has been fed `tail` since the last delimiter. -/
def holding (tail : List UInt8) : Framer :=
  ⟨(tail.take capacity).toArray, List.length_take_le ..⟩

theorem push_holding {b : UInt8} (hb : b ≠ delimiter) (tail : List UInt8) :
    (holding tail).push b = (none, holding (tail ++ [b])) := by
  rw [push, if_neg hb]
  split
  · rename_i hroom
    have hlt : tail.length < capacity := by
      simp only [holding, List.size_toArray, List.length_take] at hroom
      omega
    have hle : (tail ++ [b]).length ≤ capacity := by
      rw [List.length_append]
      exact hlt
    refine Prod.ext rfl ?_
    simp [holding, List.take_of_length_le (Nat.le_of_lt hlt), List.take_of_length_le hle]
  · rename_i hfull
    have hle : capacity ≤ tail.length := by
      simp only [holding, List.size_toArray, List.length_take] at hfull
      omega
    rw [holding, holding, Prod.mk.injEq]
    simp [List.take_append_of_le_length hle]

theorem push_delimiter_holding (tail : List UInt8) :
    (holding tail).push delimiter =
      (if tail = [] then none else some (unstuff (tail.take capacity)), empty) := by
  cases tail with
  | nil => rfl
  | cons b tail => exact push_delimiter (by simp [holding, capacity])

/-- Bytes without a delimiter pile up as far as there is room. -/
theorem feed_holding {bytes : List UInt8} (hd : delimiter ∉ bytes) (tail : List UInt8) :
    (holding tail).feed bytes = ([], holding (tail ++ bytes)) := by
  induction bytes generalizing tail with
  | nil => rw [List.append_nil, feed_nil]
  | cons b bytes ih =>
    rw [List.mem_cons, not_or] at hd
    rw [feed_cons, push_holding (Ne.symm hd.1), ih hd.2, List.append_assoc]
    rfl

/-- The message of a frame is handed over at its last byte, not before. -/
theorem exists_feed_open_frame (hm : Fits m) :
    ∃ f, empty.feed (delimiter :: stuff m) = ([], f) ∧ f.push delimiter = (some m, empty) := by
  refine ⟨holding (stuff m), ?_, ?_⟩
  · have hs := feed_holding (delimiter_notMem_stuff m) []
    rw [feed_cons, push_delimiter_empty]
    exact hs
  · rw [push_delimiter_holding, if_neg (stuff_ne_nil hm.1), List.take_of_length_le hm.2,
      unstuff_stuff]

/-- The frame of a message that fits yields the message and leaves nothing behind. -/
theorem feed_frame (hm : Fits m) : empty.feed (frame m) = ([m], empty) := by
  obtain ⟨f, hf, hd⟩ := exists_feed_open_frame hm
  rw [frame, ← List.cons_append, feed_append, hf, feed_cons, hd]
  rfl

/-- The frames of messages that fit yield the messages in order. -/
theorem feed_frames (h : ∀ m ∈ ms, Fits m) : empty.feed (ms.flatMap frame) = (ms, empty) := by
  induction ms with
  | nil => rfl
  | cons m ms ih =>
    rw [List.flatMap_cons, feed_append, feed_frame (h m (by simp)),
      ih (fun m hm => h m (by simp [hm]))]
    rfl

/-- After a delimiter nothing is pending. -/
theorem push_delimiter_snd (f : Framer) : (f.push delimiter).2 = empty := by
  obtain ⟨pending, hl⟩ := f
  by_cases hp : pending.isEmpty
  · obtain rfl : pending = #[] := Array.isEmpty_iff.mp hp
    rfl
  · rw [push_delimiter (by simpa using hp)]

/-- A whole frame leaves nothing behind, whatever it holds and whatever was pending. -/
theorem feed_frame_snd (f : Framer) (m : List UInt8) : (f.feed (frame m)).2 = empty := by
  rw [frame, ← List.cons_append, feed_append, feed_cons]
  exact push_delimiter_snd _

/-- Nor do several. -/
theorem feed_frames_snd (ms : List (List UInt8)) : (empty.feed (ms.flatMap frame)).2 = empty := by
  induction ms with
  | nil => rfl
  | cons m ms ih =>
    rw [List.flatMap_cons, feed_append, feed_frame_snd]
    exact ih

end Framer

end KnitBench.Wire

namespace KnitBench.Message

open Wire

variable {code : Code} {payload : List UInt8}

theorem split_make (code : Code) (payload : List UInt8) :
    split (make code payload) = .ok (code.byte, payload) := split_stamp

theorem fits_make (h : payload.length ≤ 62) : Fits (make code payload) := by
  apply fits_of_length_le <;> simp [make, stamp]
  omega

theorem fits_reqInit (m : Model) : Fits (reqInit m) := fits_make (by simp)

theorem fits_cnfInit (e : UInt8) : Fits (cnfInit e) := fits_make (by simp)

theorem fits_reqStart (a b f : UInt8) : Fits (reqStart a b f) := fits_make (by simp)

theorem fits_cnfStart (e : UInt8) : Fits (cnfStart e) := fits_make (by simp)

theorem fits_reqLine (l : UInt8) : Fits (reqLine l) := fits_make (by simp)

theorem fits_cnfLine (l c f : UInt8) (bits : LineBitmap) : Fits (cnfLine l c f bits) := by
  apply fits_make
  have hb : bits.toList.length = 25 := bits.length_toList
  simp only [List.length_cons, hb]
  omega

theorem fits_report (r : StateReport) : Fits r.message := by
  apply fits_make
  simp [StateReport.payload, StateReport.bytes]

end KnitBench.Message
