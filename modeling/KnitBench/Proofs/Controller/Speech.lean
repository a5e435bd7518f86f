import Mathlib.Data.Nat.Digits.Defs
import KnitBench.Proofs.Controller.Answers
import KnitBench.Proofs.Text.Bytes

/-! The messages that the reference controller sends: with a byte that completes a message, the
replies to it, and with a slice of time that finishes a line, the request for the next. On the
serial line it puts out their frames and nothing else, and each message fits into a receiver. -/

namespace KnitBench

namespace Message

variable {code : Code} {text : String}

/-- A text that is short enough fits. -/
theorem fits_testRes (h : text.utf8ByteSize ≤ 62) : Wire.Fits (testRes text) := by
  apply fits_make
  rw [Text.toList_eq_data, Array.length_toList]
  exact h

theorem utf8ByteSize_ofList_le (cs : List Char) :
    (String.ofList cs).utf8ByteSize ≤ 4 * cs.length := by
  induction cs with
  | nil => exact Nat.le_refl 0
  | cons c cs ih =>
    have hc := c.utf8Size_le_four
    rw [String.ofList_cons, String.utf8ByteSize_append, String.utf8ByteSize_singleton,
      List.length_cons]
    omega

/-- The numeral of a word takes no more room than five characters may. -/
theorem utf8ByteSize_word_le (w : UInt16) : (toString w.toNat).utf8ByteSize ≤ 20 := by
  have hw : w.toNat < 10 ^ 5 := Nat.lt_trans w.toNat_lt (by decide)
  have hl := Nat.toDigits_length 10 w.toNat 5 (by decide) hw
  have hb := utf8ByteSize_ofList_le (Nat.toDigits 10 w.toNat)
  exact hb.trans (Nat.mul_le_mul_left 4 hl)

theorem fits_cnfInfo (major minor patch : UInt8) : Wire.Fits (cnfInfo major minor patch) :=
  fits_make (by simp)

theorem fits_cnfTest (e : UInt8) : Wire.Fits (cnfTest e) := fits_make (by simp)

/-- The name of a command fits. -/
theorem fits_name (code : Code) : Wire.Fits (testRes code.name) := by
  apply fits_testRes
  cases code <;> decide

end Message

namespace ReferenceController

open Message

variable {c c' c'' : ReferenceController} {ms ms' : List (List UInt8)} {m : List UInt8} {o : Output}

/-- The bytes that wait to be collected. -/
def waiting (c : ReferenceController) : List UInt8 := c.outbox.toList.filterMap Output.byte?

theorem waiting_emit (h : o.byte? = none) : (c.emit o).waiting = c.waiting := by
  simp [waiting, emit, h]

theorem waiting_send (c : ReferenceController) (m : List UInt8) :
    (c.send m).waiting = c.waiting ++ Wire.frame m := by
  simp only [waiting, send, Array.toList_appendList, List.filterMap_append, List.filterMap_map]
  exact congrArg _ List.filterMap_some

theorem mode_send (c : ReferenceController) (m : List UInt8) : (c.send m).mode = c.mode := rfl

theorem line_send (c : ReferenceController) (m : List UInt8) : (c.send m).line = c.line := rfl

theorem waiting_beep (c : ReferenceController) : c.beep.waiting = c.waiting :=
  (waiting_emit rfl).trans (waiting_emit rfl)

theorem waiting_toggleLamp1 (c : ReferenceController) : c.toggleLamp1.waiting = c.waiting :=
  waiting_emit (c := { c with lamp1 := !c.lamp1 }) rfl

theorem waiting_enter (c : ReferenceController) (mode : Mode) :
    (c.enter mode).value.waiting = c.waiting := by
  rw [value_enter, switchLamp0]
  split
  · rfl
  · exact waiting_emit (c := { c with mode, lamp0 := _ }) rfl

theorem waiting_driveSolenoids (c : ReferenceController) :
    c.driveSolenoids.waiting = c.waiting := by
  rw [driveSolenoids]
  split
  · rfl
  · exact waiting_emit (c := { c with register := some c.wantedRegister }) rfl

/-- From `c` to `c'` the messages `ms` are said, each of which fits into a receiver. -/
structure Says (c c' : ReferenceController) (ms : List (List UInt8)) : Prop where
  waiting_eq : c'.waiting = c.waiting ++ ms.flatMap Wire.frame
  fits : ∀ m ∈ ms, Wire.Fits m

namespace Says

/-- Only what has been put out matters. -/
theorem congr {a a' : ReferenceController} (h : a.Says a' ms) (ho : c.outbox = a.outbox)
    (ho' : c'.outbox = a'.outbox) : c.Says c' ms := by
  refine ⟨?_, h.fits⟩
  have hw := h.waiting_eq
  rw [waiting, waiting, ← ho, ← ho'] at hw
  exact hw

/-- Nothing is said. -/
theorem nothing (h : c'.waiting = c.waiting) : c.Says c' [] :=
  ⟨by rw [h, List.flatMap_nil, List.append_nil], nofun⟩

theorem trans (h : c.Says c' ms) (h' : c'.Says c'' ms') : c.Says c'' (ms ++ ms') := by
  refine ⟨?_, fun m hm => (List.mem_append.mp hm).elim (h.fits m) (h'.fits m)⟩
  rw [h'.waiting_eq, h.waiting_eq, List.flatMap_append, List.append_assoc]

theorem send (c : ReferenceController) (hm : Wire.Fits m) : c.Says (c.send m) [m] := by
  refine ⟨?_, fun m' hm' => List.mem_singleton.mp hm' ▸ hm⟩
  rw [waiting_send, List.flatMap_singleton]

end Says

/-! ### What may happen -/

/-- Collects the oldest output, if there is one. -/
def poll (c : ReferenceController) : Option Output × ReferenceController :=
  match Controller.takeOutputs c with
  | ([], c) => (none, c)
  | (o :: rest, c) => (some o, Controller.returnOutputs rest c)

/-- A poll leaves all but the output alone. -/
theorem exists_poll (c : ReferenceController) : ∃ outbox, c.poll.2 = { c with outbox } := by
  unfold poll
  simp only [Controller.takeOutputs]
  cases c.outbox.toList with
  | nil => exact ⟨_, rfl⟩
  | cons o rest => exact ⟨_, rfl⟩

theorem outbox_poll (c : ReferenceController) :
    c.poll.1 = c.outbox.toList.head? ∧ c.poll.2.outbox.toList = c.outbox.toList.tail := by
  unfold poll
  simp only [Controller.takeOutputs]
  cases c.outbox.toList with
  | nil => exact ⟨rfl, rfl⟩
  | cons o rest => exact ⟨rfl, by simp [Controller.returnOutputs]⟩

/-- A polled byte is the oldest that waits. -/
theorem waiting_poll (c : ReferenceController) :
    (c.poll.1.bind Output.byte?).toList ++ c.poll.2.waiting = c.waiting := by
  obtain ⟨ho, hrest⟩ := c.outbox_poll
  rw [waiting, waiting, ho, hrest]
  cases c.outbox.toList with
  | nil => rfl
  | cons o rest => cases o <;> rfl

/-- What may happen to a controller. -/
inductive Stimulus
  /-- A byte comes in on the serial line, from whatever host. -/
  | byte (b : UInt8)
  | raise (line : Line) (value : UInt16)
  /-- A slice of time goes by. -/
  | slice
  | reset
  /-- The oldest output is collected. -/
  | poll
  deriving DecidableEq

/-- The controller after a stimulus. -/
def after (c : ReferenceController) : Stimulus → ReferenceController
  | .byte b => (c.receive b).value
  | .raise line value => c.raise line value
  | .slice => c.step.value
  | .reset => c.reset.value
  | .poll => c.poll.2

/-- The controller after all that happens to it. -/
def afterAll (c : ReferenceController) (xs : List Stimulus) : ReferenceController :=
  xs.foldl after c

/-- The controller after all that has happened to it since power-on. -/
def reached (model : Model) (xs : List Stimulus) : ReferenceController :=
  (powerOn model).afterAll xs

theorem afterAll_append (c : ReferenceController) (xs ys : List Stimulus) :
    c.afterAll (xs ++ ys) = (c.afterAll xs).afterAll ys := List.foldl_append

theorem reached_append (model : Model) (xs ys : List Stimulus) :
    reached model (xs ++ ys) = (reached model xs).afterAll ys := List.foldl_append

theorem reached_concat (model : Model) (xs : List Stimulus) (x : Stimulus) :
    reached model (xs ++ [x]) = (reached model xs).after x := List.foldl_append

/-- The messages that a stimulus has the controller say, as a receiver reads them. -/
def said (c : ReferenceController) (x : Stimulus) : List (List UInt8) :=
  (Wire.Framer.empty.feed ((c.after x).waiting.drop c.waiting.length)).1

variable {x : Stimulus}

theorem Says.said_eq (h : c.Says (c.after x) ms) : c.said x = ms := by
  rw [said, h.waiting_eq, List.drop_left, Wire.Framer.feed_frames h.fits]

/-! ### What is sent -/

/-- The replies to a payload of `reqInit`. -/
def repliesToInit (c : ReferenceController) (payload : List UInt8) : List (List UInt8) :=
  match payload.head?.bind Model.ofCode? with
  | none => [cnfInit 1]
  | some _ => [cnfInit 0, c.report.message]

/-- The replies to a payload of `reqStart`. -/
def repliesToStart (c : ReferenceController) (payload : List UInt8) : List (List UInt8) :=
  if c.accepts payload then [cnfStart 0, reqLine 0] else [cnfStart 1]

/-- The levels of the hall sensors in words. -/
def hallText (c : ReferenceController) : String :=
  s!"EOL L={c.hall.left.toNat} R={c.hall.right.toNat}"

/-- The levels of the digital lines in words. -/
def levelsText (c : ReferenceController) : String :=
  "Encoders V1=" ++ digit c.levels.v1 ++ " V2=" ++ digit c.levels.v2 ++ " BP=" ++
    digit c.levels.belt

/-- The replies to a command of the hardware test. -/
def repliesToTestCommand (c : ReferenceController) (code : Code) (payload : List UInt8) :
    List (List UInt8) :=
  match code, payload with
  | .beepCmd, _ => []
  | .setAllCmd, _ :: _ :: _ => []
  | .setSingleCmd, index :: _ :: _ => if index < 16 then [] else [testRes code.name]
  | .readEolSensorsCmd, _ => [testRes c.hallText]
  | .readEncodersCmd, _ => [testRes c.levelsText]
  | .quitCmd, _ => []
  | _, _ => [testRes code.name]

/-- The replies to a message. -/
def replies (c : ReferenceController) (message : List UInt8) : List (List UInt8) :=
  match split message with
  | .error _ => []
  | .ok (b, payload) =>
    match Code.ofByte? b with
    | some .reqInit => c.repliesToInit payload
    | some .reqStart => c.repliesToStart payload
    | some .cnfLine => []
    | some .reqInfo => [cnfInfo 1 0 0]
    | some .reqTest => [cnfTest 0]
    | some code => if c.mode = .test then c.repliesToTestCommand code payload else []
    | none => []

/-- The messages that a stimulus has the controller send. -/
def sends (c : ReferenceController) : Stimulus → List (List UInt8)
  | .byte b => (c.receiver.push b).1.elim [] c.replies
  | .slice =>
    if c.tracked.finishes ∧ c.line.last = false then [reqLine (c.line.index + 1)] else []
  | .raise .. | .reset | .poll => []

theorem says_onInit (c : ReferenceController) (payload : List UInt8) :
    c.Says (c.onInit payload).value (c.repliesToInit payload) := by
  cases hm : payload.head?.bind Model.ofCode? with
  | none =>
    simp only [onInit, repliesToInit, hm]
    exact .send c (fits_cnfInit 1)
  | some model =>
    generalize hs : ({ c with model, line := {} } : ReferenceController).send (cnfInit 0) = s
    have htold : c.Says s [cnfInit 0] :=
      (Says.send { c with model, line := {} } (fits_cnfInit 0)).congr rfl (by rw [hs])
    have hentered : s.Says (s.enter .ready).value [] := .nothing (waiting_enter s .ready)
    have hreport : (s.enter .ready).value.report = c.report := by
      obtain ⟨lamp0, outbox, he⟩ := s.exists_value_enter .ready
      rw [he, ← hs]
      rfl
    simp only [onInit, repliesToInit, hm, Logged.value_bind, Logged.value_pure, hs, hreport]
    exact (htold.trans hentered).trans (.send _ (fits_report _))

theorem says_onStart (c : ReferenceController) (payload : List UInt8) :
    c.Says (c.onStart payload).value (c.repliesToStart payload) := by
  rw [repliesToStart]
  cases ha : c.accepts payload with
  | false =>
    rw [onStart_of_not ha]
    exact .send c (fits_cnfStart 1)
  | true =>
    match payload with
    | [] | [_] => cases ha
    | a :: b :: rest =>
      generalize hs : ({ c with
        start := a.toNat, stop := b.toNat, line := {} } : ReferenceController).send
          (cnfStart 0) = s
      have htold : c.Says s [cnfStart 0] :=
        (Says.send { c with start := a.toNat, stop := b.toNat, line := {} }
          (fits_cnfStart 0)).congr rfl (by rw [hs])
      have hentered : s.Says (s.enter .knitting).value [] := .nothing (waiting_enter s .knitting)
      simp only [onStart, if_pos (of_decide_eq_true ha), Logged.value_bind, Logged.value_pure, hs]
      exact (htold.trans hentered).trans (.send _ (fits_reqLine 0))

theorem says_onTest (c : ReferenceController) : c.Says c.onTest.value [cnfTest 0] := by
  have htold : c.Says { c.send (cnfTest 0) with testRegister := c.model.idleRegister }
      [cnfTest 0] :=
    (Says.send c (fits_cnfTest 0)).congr rfl rfl
  exact htold.trans (.nothing (waiting_enter _ .test))

theorem fits_hallText (c : ReferenceController) : Wire.Fits (testRes c.hallText) := by
  apply fits_testRes
  have hl := utf8ByteSize_word_le c.hall.left
  have hr := utf8ByteSize_word_le c.hall.right
  have hfirst : (toString "EOL L=").utf8ByteSize = 6 := by decide
  have hsecond : (toString " R=").utf8ByteSize = 3 := by decide
  simp only [hallText, String.utf8ByteSize_append]
  omega

theorem fits_levelsText (c : ReferenceController) : Wire.Fits (testRes c.levelsText) := by
  apply fits_testRes
  unfold levelsText
  cases c.levels.v1 <;> cases c.levels.v2 <;> cases c.levels.belt <;> decide

theorem says_onTestCommand (c : ReferenceController) (code : Code) (payload : List UInt8) :
    c.Says (c.onTestCommand code payload).value (c.repliesToTestCommand code payload) := by
  have named : c.Says (c.send (testRes code.name)) [testRes code.name] := .send c (fits_name code)
  unfold onTestCommand
  split
  · exact .nothing (waiting_beep c)
  · exact .nothing rfl
  · rw [repliesToTestCommand]
    split
    · exact .nothing rfl
    · exact named
  · exact .send c (fits_hallText c)
  · exact .send c (fits_levelsText c)
  · exact .nothing (waiting_enter c .ready)
  · rw [repliesToTestCommand] <;> assumption

theorem says_onLine (c : ReferenceController) (payload : List UInt8) :
    c.Says (c.onLine payload).value [] := by
  have hw : (c.onLine payload).value.waiting = c.waiting := by
    unfold onLine
    split
    · split
      · split <;> rfl
      · rfl
    · rfl
  exact .nothing hw

/-- A message is answered with the replies to it. -/
theorem says_onMessage (c : ReferenceController) (message : List UInt8) :
    c.Says (c.onMessage message).value (c.replies message) := by
  have ignored : c.Says c [] := .nothing rfl
  unfold onMessage replies
  cases split message with
  | error => exact ignored
  | ok parts =>
    obtain ⟨b, payload⟩ := parts
    dsimp only
    cases Code.ofByte? b with
    | none => exact ignored
    | some code =>
      cases code
      case reqInit => exact says_onInit c payload
      case reqStart => exact says_onStart c payload
      case cnfLine => exact says_onLine c payload
      case reqInfo => exact .send c (fits_cnfInfo 1 0 0)
      case reqTest => exact says_onTest c
      all_goals
        dsimp only
        split
        · exact says_onTestCommand c _ payload
        · exact ignored

theorem says_byte (c : ReferenceController) (b : UInt8) :
    c.Says (c.after (.byte b)) (c.sends (.byte b)) := by
  simp only [after, receive, sends]
  cases c.receiver.push b with
  | mk message? receiver =>
    cases message? with
    | none => exact .nothing rfl
    | some message => exact (says_onMessage { c with receiver } message).congr rfl rfl

theorem says_finishLine (c : ReferenceController) :
    c.Says c.finishLine.value (if c.line.last then [] else [reqLine (c.line.index + 1)]) := by
  have hw : ({ c with line := { c.line with ready := false, worked := none } } :
      ReferenceController).beep.toggleLamp1.waiting = c.waiting := by
    rw [waiting_toggleLamp1, waiting_beep]
    rfl
  cases hl : c.line.last with
  | true =>
    rw [value_finishLine_last hl]
    exact .nothing ((waiting_enter _ .ready).trans hw)
  | false =>
    rw [value_finishLine hl]
    exact (Says.nothing hw).trans ((Says.send _ (fits_reqLine _)).congr rfl rfl)

theorem says_slice (c : ReferenceController) : c.Says (c.after .slice) (c.sends .slice) := by
  have hw : (c.after .slice).waiting = c.worked.waiting := by
    have hv : c.after .slice = (c.worked.driveSolenoids.emit (.convert rightChannel)).emit
        (.convert leftChannel) := rfl
    rw [hv, waiting_emit rfl, waiting_emit rfl, waiting_driveSolenoids]
  suffices h : c.Says c.worked (c.sends .slice) from ⟨hw.trans h.waiting_eq, h.fits⟩
  obtain ⟨worked, hv⟩ := c.tracked.exists_value_workLine
  rw [ReferenceController.worked, hv, sends]
  cases hf : c.tracked.finishes with
  | false => exact .nothing rfl
  | true =>
    have htold := says_finishLine (c.tracked.noting worked)
    cases hl : c.line.last with
    | false =>
      have hln : (c.tracked.noting worked).line.last = false := hl
      rw [hln] at htold
      exact htold.congr rfl rfl
    | true =>
      have hln : (c.tracked.noting worked).line.last = true := hl
      rw [hln] at htold
      exact htold.congr rfl rfl

/-- What a receiver reads of the bytes that a stimulus adds is what is sent. -/
theorem said_eq (c : ReferenceController) (x : Stimulus) : c.said x = c.sends x := by
  have silent (h : (c.after x).waiting.length ≤ c.waiting.length) : c.said x = [] := by
    rw [said, List.drop_of_length_le h]
    rfl
  cases x with
  | byte b => exact (says_byte c b).said_eq
  | raise line value => cases line <;> exact Says.said_eq (.nothing rfl)
  | slice => exact (says_slice c).said_eq
  | reset => exact silent (Nat.zero_le _)
  | poll =>
    have hw := congrArg List.length c.waiting_poll
    rw [List.length_append] at hw
    exact silent (Nat.le.intro ((Nat.add_comm _ _).trans hw))

/-! ### Every message is in order -/

/-- A message with its check byte, of a command of the protocol. -/
def Made (m : List UInt8) : Prop := ∃ code payload, m = make code payload

theorem made_make (code : Code) (payload : List UInt8) : Made (make code payload) :=
  ⟨code, payload, rfl⟩

theorem made_of_mem_replies {message : List UInt8} (hm : m ∈ c.replies message) : Made m := by
  have one {code : Code} {payload : List UInt8} (h : m ∈ [make code payload]) : Made m :=
    List.mem_singleton.mp h ▸ made_make code payload
  unfold replies at hm
  split at hm
  · cases hm
  · split at hm
    · unfold repliesToInit at hm
      split at hm
      · exact one hm
      · rcases List.mem_cons.mp hm with rfl | hm
        · exact made_make ..
        · exact one hm
    · unfold repliesToStart at hm
      split at hm
      · rcases List.mem_cons.mp hm with rfl | hm
        · exact made_make ..
        · exact one hm
      · exact one hm
    · cases hm
    · exact one hm
    · exact one hm
    · split at hm
      · unfold repliesToTestCommand at hm
        split at hm
        · cases hm
        · cases hm
        · split at hm
          · cases hm
          · exact one hm
        · exact one hm
        · exact one hm
        · cases hm
        · exact one hm
      · cases hm
    · cases hm

theorem made_of_mem_sends (hm : m ∈ c.sends x) : Made m := by
  cases x with
  | byte b =>
    rw [sends] at hm
    cases hp : (c.receiver.push b).1 with
    | none =>
      rw [hp] at hm
      cases hm
    | some message =>
      rw [hp] at hm
      exact made_of_mem_replies hm
  | slice =>
    rw [sends] at hm
    split at hm
    · exact List.mem_singleton.mp hm ▸ made_make ..
    · cases hm
  | raise | reset | poll => cases hm

end ReferenceController

end KnitBench
