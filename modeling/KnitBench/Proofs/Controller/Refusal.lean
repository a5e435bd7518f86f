import KnitBench.Proofs.Controller.Replies
import KnitBench.Proofs.Message.Corruption

/-! The messages that the reference controller refuses. Some it answers with an error, others it
passes over without a word; in no case does it change anything else. -/

namespace KnitBench

namespace Message

variable {message front payload : List UInt8} {b last : UInt8}

/-- What is too short for a command and a check byte is no message. -/
theorem exists_split_of_length_lt (h : message.length < 2) :
    ∃ fault, split message = .error fault := by
  match message, h with
  | [], _ | [_], _ => exact ⟨_, rfl⟩

/-- Neither is what does not end in its checksum. -/
theorem exists_split_of_checksum_ne (h : Wire.checksum front ≠ last) :
    ∃ fault, split (front ++ [last]) = .error fault := by
  cases front with
  | nil => exact ⟨_, rfl⟩
  | cons code payload =>
    rw [List.cons_append, split_concat, if_neg h]
    exact ⟨_, rfl⟩

end Message

namespace ReferenceController

open Message

variable {c : ReferenceController} {message payload bytes : List UInt8}
  {replies : List (List UInt8)} {code : Code} {b : UInt8}

/-- The messages that a controller refuses, each with the replies to it. -/
inductive Refuses (c : ReferenceController) : List UInt8 → List (List UInt8) → Prop
  /-- Too short for a command and a check byte. -/
  | truncated (message : List UInt8) (h : message.length < 2) : Refuses c message []
  | damaged (front : List UInt8) (last : UInt8) (h : Wire.checksum front ≠ last) :
      Refuses c (front ++ [last]) []
  | unknownCommand (b : UInt8) (payload : List UInt8) (h : ∀ code : Code, code.byte ≠ b) :
      Refuses c (stamp (b :: payload)) []
  /-- Only in the hardware test are there other commands than these five. -/
  | outOfTest (code : Code) (payload : List UInt8)
      (hc : code ∉ [Code.reqInit, .reqStart, .cnfLine, .reqInfo, .reqTest]) (hm : c.mode ≠ .test) :
      Refuses c (make code payload) []
  | unknownModel (payload : List UInt8) (h : payload.head?.bind Model.ofCode? = none) :
      Refuses c (make .reqInit payload) [cnfInit 1]
  | shortStart (payload : List UInt8) (h : payload.length < 2) :
      Refuses c (make .reqStart payload) [cnfStart 1]
  | notReady (payload : List UInt8) (hm : c.mode ≠ .ready) :
      Refuses c (make .reqStart payload) [cnfStart 1]
  | inverted (start stop : UInt8) (rest : List UInt8) (h : stop < start) :
      Refuses c (make .reqStart (start :: stop :: rest)) [cnfStart 1]
  | beyondBed (start stop : UInt8) (rest : List UInt8) (h : c.model.needleCount ≤ stop.toNat) :
      Refuses c (make .reqStart (start :: stop :: rest)) [cnfStart 1]
  | shortLine (payload : List UInt8) (h : payload.length < 3) :
      Refuses c (make .cnfLine payload) []
  | notKnitting (payload : List UInt8) (hm : c.mode ≠ .knitting) :
      Refuses c (make .cnfLine payload) []
  | otherLine (index : UInt8) (rest : List UInt8) (h : index ≠ c.line.index) :
      Refuses c (make .cnfLine (index :: rest)) []
  | shortBitmap (index color flags : UInt8) (bits : List UInt8) (h : bits.length < 25) :
      Refuses c (make .cnfLine (index :: color :: flags :: bits)) []

/-- The controller when it has sent replies, and has done nothing else. -/
def replying (c : ReferenceController) (replies : List (List UInt8)) : ReferenceController :=
  { c with outbox := c.outbox ++ (replies.flatMap Wire.frame).map Output.serial }

theorem replying_nil (c : ReferenceController) : c.replying [] = c := by
  simp [replying]

theorem replying_singleton (c : ReferenceController) (m : List UInt8) :
    c.replying [m] = c.send m := by
  simp [replying, send]

/-- What is no message in order is dropped. -/
theorem value_onMessage_of_error {fault : ProtocolFault} (h : split message = .error fault) :
    (c.onMessage message).value = c := by
  rw [onMessage, h]
  rfl

theorem ofByte?_eq_none (h : ∀ code : Code, code.byte ≠ b) : Code.ofByte? b = none := by
  cases hb : Code.ofByte? b with
  | none => rfl
  | some code => exact absurd (Code.byte_of_ofByte? hb) (h code)

theorem value_onMessage_of_unknown (h : ∀ code : Code, code.byte ≠ b) :
    (c.onMessage (stamp (b :: payload))).value = c := by
  rw [onMessage, split_stamp]
  simp only [ofByte?_eq_none h]
  rfl

theorem value_onMessage_of_outOfTest
    (hc : code ∉ [Code.reqInit, .reqStart, .cnfLine, .reqInfo, .reqTest]) (hm : c.mode ≠ .test) :
    (c.onMessage (make code payload)).value = c := by
  rw [onMessage_make]
  cases code
  case reqInit | reqStart | cnfLine | reqInfo | reqTest => simp at hc
  all_goals
    dsimp only
    rw [if_neg hm]
    rfl

/-- A start is refused when the controller is not ready, or when its range leaves the bed. -/
theorem value_reqStart_of_not (h : c.accepts payload = false) :
    (c.onMessage (make .reqStart payload)).value = c.replying [cnfStart 1] := by
  rw [onMessage_make, replying_singleton]
  simp only [onStart_of_not h, Logged.value_pure]

theorem accepts_of_length_lt (h : payload.length < 2) : c.accepts payload = false := by
  match payload, h with
  | [], _ | [_], _ => rfl

theorem accepts_of_mode_ne (hm : c.mode ≠ .ready) : c.accepts payload = false := by
  match payload with
  | [] | [_] => rfl
  | start :: stop :: rest => exact decide_eq_false fun h => hm h.1

/-- Nothing is taken of a line that is not waited for, or whose bitmap is not whole. -/
theorem value_onLine_of_not
    (h : ∀ index color flags bits, payload = index :: color :: flags :: bits →
      ¬ (c.mode = .knitting ∧ index = c.line.index ∧ 25 ≤ bits.length)) :
    (c.onLine payload).value = c := by
  match payload with
  | [] | [_] | [_, _] => rfl
  | index :: color :: flags :: bits =>
    by_cases hi : c.mode = .knitting ∧ index = c.line.index
    · have hl : ¬ 25 ≤ bits.length := fun hl => h index color flags bits rfl ⟨hi.1, hi.2, hl⟩
      simp only [onLine, if_pos hi, LineBitmap.ofBytes?_of_lt hl]
      rfl
    · simp only [onLine, if_neg hi]
      rfl

theorem value_cnfLine_of_not
    (h : ∀ index color flags bits, payload = index :: color :: flags :: bits →
      ¬ (c.mode = .knitting ∧ index = c.line.index ∧ 25 ≤ bits.length)) :
    (c.onMessage (make .cnfLine payload)).value = c := by
  rw [onMessage_make]
  exact value_onLine_of_not h

/-- What is refused is replied to, and changes nothing. -/
theorem Refuses.value_onMessage (h : c.Refuses message replies) :
    (c.onMessage message).value = c.replying replies := by
  cases h with
  | truncated _ hl =>
    obtain ⟨fault, hs⟩ := exists_split_of_length_lt hl
    rw [value_onMessage_of_error hs, replying_nil]
  | damaged front last hl =>
    obtain ⟨fault, hs⟩ := exists_split_of_checksum_ne hl
    rw [value_onMessage_of_error hs, replying_nil]
  | unknownCommand b payload hb => rw [value_onMessage_of_unknown hb, replying_nil]
  | outOfTest code payload hc hm => rw [value_onMessage_of_outOfTest hc hm, replying_nil]
  | unknownModel payload hm =>
    rw [onMessage_make, replying_singleton]
    simp only [onInit_of_none hm, Logged.value_pure]
  | shortStart payload hl => exact value_reqStart_of_not (accepts_of_length_lt hl)
  | notReady payload hm => exact value_reqStart_of_not (accepts_of_mode_ne hm)
  | inverted start stop rest hlt =>
    refine value_reqStart_of_not (decide_eq_false fun ha => ?_)
    exact absurd ha.2.1 (Nat.not_le_of_lt (UInt8.lt_iff_toNat_lt.mp hlt))
  | beyondBed start stop rest hle =>
    exact value_reqStart_of_not (decide_eq_false fun ha => absurd ha.2.2 (Nat.not_lt_of_le hle))
  | shortLine payload hl =>
    rw [replying_nil]
    refine value_cnfLine_of_not fun index color flags bits he => ?_
    rw [he] at hl
    simp only [List.length_cons] at hl
    omega
  | notKnitting payload hm =>
    rw [replying_nil]
    exact value_cnfLine_of_not fun _ _ _ _ _ hk => hm hk.1
  | otherLine index rest hi =>
    rw [replying_nil]
    refine value_cnfLine_of_not fun _ _ _ _ he hk => hi ?_
    rw [(List.cons.inj he).1]
    exact hk.2.1
  | shortBitmap index color flags bits hl =>
    rw [replying_nil]
    refine value_cnfLine_of_not fun _ _ _ _ he hk => ?_
    cases he
    exact Nat.not_le_of_lt hl hk.2.2

/-- A controller, in whatever state it is, that waits for a frame, and a frame of any bytes: if the
message that it makes of the frame is one that it refuses, then all that comes of the frame are the
replies that are listed with the message. With none listed, the controller is exactly as before. -/
theorem refusal_changes_nothing (hr : c.receiver = .empty) (hd : Wire.delimiter ∉ bytes)
    (h : c.Refuses (Wire.unstuff (bytes.take Wire.Framer.capacity)) replies) :
    (Controller.receiveAll (Wire.delimiter :: (bytes ++ [Wire.delimiter])) c).value =
      { c with outbox := c.outbox ++ (replies.flatMap Wire.frame).map Output.serial } := by
  rw [receiveAll_delimited hd hr]
  split
  · rename_i hn
    -- An empty frame is not even heard, and it has no replies.
    subst hn
    have he : replies = [] := by
      rw [List.take_nil] at h
      generalize hm : Wire.unstuff [] = m at h
      cases h with
      | truncated | damaged | unknownCommand | outOfTest | shortLine | notKnitting | otherLine
      | shortBitmap => rfl
      | unknownModel | shortStart | notReady | inverted | beyondBed => cases hm
    subst he
    exact (replying_nil c).symm
  · exact h.value_onMessage

/-- A controller in the middle of line 3. -/
def midLine : ReferenceController :=
  { powerOn .kh930 with
    mode := .knitting, stop := 199, lamp0 := true
    line := { index := 3, ready := true, worked := some .right } }

/-- Line 3 once more, flagged as the last one, but a byte short. -/
def oneByteShort : List UInt8 :=
  Wire.stuff (make .cnfLine (3 :: 0 :: lastLineFlag :: List.replicate 24 Wire.delimiter))

theorem refusal_changes_nothing_oneByteShort :
    midLine.receiver = .empty ∧ Wire.delimiter ∉ oneByteShort ∧
      midLine.Refuses (Wire.unstuff (oneByteShort.take Wire.Framer.capacity)) [] ∧
      (Controller.receiveAll (Wire.delimiter :: (oneByteShort ++ [Wire.delimiter])) midLine).value =
        midLine := by
  have hd : Wire.delimiter ∉ oneByteShort := by decide +kernel
  have hm : Wire.unstuff (oneByteShort.take Wire.Framer.capacity) =
      make .cnfLine (3 :: 0 :: lastLineFlag :: List.replicate 24 Wire.delimiter) := by
    decide +kernel
  have hr : midLine.Refuses (Wire.unstuff (oneByteShort.take Wire.Framer.capacity)) [] := by
    rw [hm]
    exact .shortBitmap 3 0 lastLineFlag _ (by decide)
  exact ⟨rfl, hd, hr, refusal_changes_nothing rfl hd hr⟩

end ReferenceController

end KnitBench
