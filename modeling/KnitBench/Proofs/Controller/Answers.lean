import KnitBench.Proofs.Controller.Emission

/-! What a message may change in the reference controller: neither what it knows of the carriage nor
what it has put on the solenoids. And whatever the messages, the range that it knits lies on its
bed. -/

namespace KnitBench.ReferenceController

variable {c c' c'' : ReferenceController} {ms : List (List UInt8)}

/-- Apart from mode, range, line, lamps and the messages that wait, two controllers are the same. -/
structure Answers (c c' : ReferenceController) : Prop where
  levels_eq : c'.levels = c.levels
  hall_eq : c'.hall = c.hall
  tracker_eq : c'.tracker = c.tracker
  register_eq : c'.register = c.register
  receiver_eq : c'.receiver = c.receiver
  cycle_eq : c'.cycle = c.cycle
  queues : ∀ ms, c.Queues ms → ∃ ms', c'.Queues (ms ++ ms')

namespace Answers

theorem refl (c : ReferenceController) : c.Answers c :=
  ⟨rfl, rfl, rfl, rfl, rfl, rfl, fun _ hq => ⟨[], by rwa [List.append_nil]⟩⟩

theorem trans (h : c.Answers c') (h' : c'.Answers c'') : c.Answers c'' where
  levels_eq := h'.levels_eq.trans h.levels_eq
  hall_eq := h'.hall_eq.trans h.hall_eq
  tracker_eq := h'.tracker_eq.trans h.tracker_eq
  register_eq := h'.register_eq.trans h.register_eq
  receiver_eq := h'.receiver_eq.trans h.receiver_eq
  cycle_eq := h'.cycle_eq.trans h.cycle_eq
  queues ms hq := by
    obtain ⟨ms', hq'⟩ := h.queues ms hq
    obtain ⟨ms'', hq''⟩ := h'.queues _ hq'
    exact ⟨ms' ++ ms'', by rwa [← List.append_assoc]⟩

theorem send (h : c.Answers c') (m : List UInt8) : c.Answers (c'.send m) :=
  h.trans ⟨rfl, rfl, rfl, rfl, rfl, rfl, fun _ hq => ⟨[m], queues_send hq m⟩⟩

theorem enter (h : c.Answers c') (mode : Mode) : c.Answers (c'.enter mode).value := by
  refine h.trans ?_
  obtain ⟨lamp0, outbox, he⟩ := c'.exists_value_enter mode
  have hqe (ms : List (List UInt8)) (hq : c'.Queues ms) :
      ∃ ms', (c'.enter mode).value.Queues (ms ++ ms') :=
    ⟨[], by rw [List.append_nil]; exact queues_enter hq mode⟩
  rw [he] at hqe ⊢
  exact ⟨rfl, rfl, rfl, rfl, rfl, rfl, hqe⟩

theorem beep (c : ReferenceController) : c.Answers c.beep :=
  ⟨rfl, rfl, rfl, rfl, rfl, rfl, fun _ hq => ⟨[], by rw [List.append_nil]; exact queues_beep hq⟩⟩

/-- The messages that wait are not touched by taking something in. -/
theorem of_outbox_eq (hl : c'.levels = c.levels) (hh : c'.hall = c.hall)
    (ht : c'.tracker = c.tracker) (hg : c'.register = c.register) (hv : c'.receiver = c.receiver)
    (hc : c'.cycle = c.cycle) (ho : c'.outbox = c.outbox) : c.Answers c' := by
  refine ⟨hl, hh, ht, hg, hv, hc, fun ms hq => ⟨[], ?_⟩⟩
  rw [List.append_nil]
  exact queues_of_outbox_eq ho hq

end Answers

theorem answers_onInit (c : ReferenceController) (payload : List UInt8) :
    c.Answers (c.onInit payload).value := by
  unfold onInit
  split
  · exact (Answers.refl c).send _
  · rename_i model _
    have hs : c.Answers { c with model, line := {} } :=
      .of_outbox_eq rfl rfl rfl rfl rfl rfl rfl
    exact ((hs.send (Message.cnfInit 0)).enter .ready).send _

theorem answers_onStart (c : ReferenceController) (payload : List UInt8) :
    c.Answers (c.onStart payload).value := by
  unfold onStart
  split
  · rename_i a b _
    dsimp only
    split
    · have hs : c.Answers { c with start := a.toNat, stop := b.toNat, line := {} } :=
        .of_outbox_eq rfl rfl rfl rfl rfl rfl rfl
      exact ((hs.send (Message.cnfStart 0)).enter .knitting).send _
    · exact (Answers.refl c).send _
  · exact (Answers.refl c).send _

theorem answers_onLine (c : ReferenceController) (payload : List UInt8) :
    c.Answers (c.onLine payload).value := by
  unfold onLine
  split
  · split
    · split
      · exact .of_outbox_eq rfl rfl rfl rfl rfl rfl rfl
      · exact .refl c
    · exact .refl c
  · exact .refl c

theorem answers_onTest (c : ReferenceController) : c.Answers c.onTest.value := by
  have hs : c.Answers (c.send (Message.cnfTest 0)) := (Answers.refl c).send _
  have ht (a : ReferenceController) : a.Answers { a with testRegister := c.model.idleRegister } :=
    .of_outbox_eq rfl rfl rfl rfl rfl rfl rfl
  exact (hs.trans (ht _)).enter .test

theorem answers_onTestCommand (c : ReferenceController) (code : Message.Code)
    (payload : List UInt8) : c.Answers (c.onTestCommand code payload).value := by
  unfold onTestCommand
  split
  · exact .beep c
  · exact .of_outbox_eq rfl rfl rfl rfl rfl rfl rfl
  · split
    · exact .of_outbox_eq rfl rfl rfl rfl rfl rfl rfl
    · exact (Answers.refl c).send _
  · exact (Answers.refl c).send _
  · exact (Answers.refl c).send _
  · exact (Answers.refl c).enter .ready
  · exact (Answers.refl c).send _

theorem answers_onMessage (c : ReferenceController) (message : List UInt8) :
    c.Answers (c.onMessage message).value := by
  unfold onMessage
  split
  · exact .refl c
  · split
    · exact answers_onInit ..
    · exact answers_onStart ..
    · exact answers_onLine ..
    · exact (Answers.refl c).send _
    · exact answers_onTest c
    · split
      · exact answers_onTestCommand ..
      · exact .refl c
    · exact .refl c

section Handlers

variable {payload : List UInt8} {model : Model}

theorem exists_send (c : ReferenceController) (m : List UInt8) :
    ∃ outbox, c.send m = { c with outbox } := ⟨_, rfl⟩

theorem exists_value_send_enter (c : ReferenceController) (m : List UInt8) (mode : Mode) :
    ∃ lamp0 outbox, ((c.send m).enter mode).value = { c with mode, lamp0, outbox } :=
  (c.send m).exists_value_enter mode

theorem onInit_of_none (h : payload.head?.bind Model.ofCode? = none) :
    c.onInit payload = pure (c.send (Message.cnfInit 1)) := by
  rw [onInit, h]

/-- Told a machine that it knows, the controller is ready for it. -/
theorem exists_value_onInit (h : payload.head?.bind Model.ofCode? = some model) :
    ∃ lamp0 outbox, (c.onInit payload).value =
      { c with model, line := {}, mode := .ready, lamp0, outbox } := by
  obtain ⟨lamp0, outbox, he⟩ := exists_value_send_enter { c with model, line := {} }
    (Message.cnfInit 0) .ready
  obtain ⟨outbox', hs⟩ := exists_send
    { c with model, line := {}, mode := .ready, lamp0, outbox } c.report.message
  refine ⟨lamp0, outbox', ?_⟩
  rw [onInit, h]
  simp only [Logged.value_bind, Logged.value_pure, he]
  exact hs

/-- Whether a payload of `reqStart` has the controller knit. -/
def accepts (c : ReferenceController) : List UInt8 → Bool
  | start :: stop :: _ => decide
      (c.mode = .ready ∧ start.toNat ≤ stop.toNat ∧ stop.toNat < c.model.needleCount)
  | _ => false

theorem onStart_of_not (h : c.accepts payload = false) :
    c.onStart payload = pure (c.send (Message.cnfStart 1)) := by
  unfold onStart
  split
  · exact if_neg (of_decide_eq_false h)
  · rfl

/-- A controller that is ready and accepts a range of its bed knits it. -/
theorem exists_value_onStart (h : c.accepts payload = true) :
    c.mode = .ready ∧ ∃ start stop lamp0 outbox, start ≤ stop ∧ stop < c.model.needleCount ∧
      (c.onStart payload).value =
        { c with start, stop, line := {}, mode := .knitting, lamp0, outbox } := by
  match payload with
  | [] | [_] => cases h
  | a :: b :: rest =>
    have hr := of_decide_eq_true h
    obtain ⟨lamp0, outbox, he⟩ := exists_value_send_enter
      { c with start := a.toNat, stop := b.toNat, line := {} } (Message.cnfStart 0) .knitting
    obtain ⟨outbox', hs⟩ := exists_send { c with
      start := a.toNat, stop := b.toNat, line := {}, mode := .knitting, lamp0, outbox }
      (Message.reqLine 0)
    refine ⟨hr.1, a.toNat, b.toNat, lamp0, outbox', hr.2.1, hr.2.2, ?_⟩
    simp only [onStart, if_pos hr, Logged.value_bind, Logged.value_pure, he]
    exact hs

theorem exists_value_onTest (c : ReferenceController) :
    ∃ testRegister lamp0 outbox, c.onTest.value =
      { c with mode := .test, testRegister, lamp0, outbox } := by
  obtain ⟨outbox, hs⟩ := c.exists_send (Message.cnfTest 0)
  obtain ⟨lamp0, outbox', he⟩ := exists_value_enter
    { c with outbox, testRegister := c.model.idleRegister } .test
  refine ⟨c.model.idleRegister, lamp0, outbox', ?_⟩
  rw [onTest, hs]
  exact he

/-- But for the one that quits it, no command of the hardware test changes more than the register
that the test puts out. -/
theorem exists_value_onTestCommand (c : ReferenceController) (payload : List UInt8)
    {code : Message.Code} (h : code ≠ .quitCmd) :
    ∃ testRegister outbox, (c.onTestCommand code payload).value =
      { c with testRegister, outbox } := by
  unfold onTestCommand
  split
  · exact ⟨_, _, rfl⟩
  · exact ⟨_, _, rfl⟩
  · split
    · exact ⟨_, _, rfl⟩
    · exact ⟨_, _, rfl⟩
  · exact ⟨_, _, rfl⟩
  · exact ⟨_, _, rfl⟩
  · exact absurd rfl h
  · exact ⟨_, _, rfl⟩

end Handlers

/-- The controller after it has answered messages. -/
def told (c : ReferenceController) (ms : List (List UInt8)) : ReferenceController :=
  ms.foldl (fun c m => (c.onMessage m).value) c

theorem told_nil (c : ReferenceController) : c.told [] = c := rfl

theorem told_cons (c : ReferenceController) (m : List UInt8) (ms : List (List UInt8)) :
    c.told (m :: ms) = (c.onMessage m).value.told ms := rfl

theorem answers_told (c : ReferenceController) (ms : List (List UInt8)) :
    c.Answers (c.told ms) := by
  induction ms generalizing c with
  | nil => exact .refl c
  | cons m ms ih => exact (answers_onMessage c m).trans (ih _)

/-- What the receiver has no part in, and no answer to a message disturbs, is kept with any byte. -/
theorem kept_receive {P : ReferenceController → Prop}
    (hr : ∀ c receiver, P c → P { c with receiver })
    (hm : ∀ c message, P c → P (onMessage c message).value) (h : P c) (b : UInt8) :
    P (c.receive b).value := by
  unfold receive
  dsimp only
  have hc := hr c (c.receiver.push b).2 h
  cases (c.receiver.push b).1 with
  | none => exact hc
  | some message => exact hm _ message hc

/-- And so with several. -/
theorem kept_receiveAll {P : ReferenceController → Prop}
    (hr : ∀ c receiver, P c → P { c with receiver })
    (hm : ∀ c message, P c → P (onMessage c message).value) (h : P c) (bytes : List UInt8) :
    P (Controller.receiveAll bytes c).value := by
  induction bytes generalizing c with
  | nil => exact h
  | cons b bytes ih => exact ih (kept_receive hr hm h b)

theorem register_receiveAll (c : ReferenceController) (bytes : List UInt8) :
    (Controller.receiveAll bytes c).value.register = c.register :=
  kept_receiveAll (P := fun c' => c'.register = c.register) (fun _ _ h => h)
    (fun c' m h => (answers_onMessage c' m).register_eq.trans h) rfl bytes

/-- Bytes that complete no message change nothing but the receiver. -/
theorem receiveAll_of_feed (bytes : List UInt8) (h : (c.receiver.feed bytes).1 = []) :
    Controller.receiveAll bytes c = pure { c with receiver := (c.receiver.feed bytes).2 } := by
  induction bytes generalizing c with
  | nil => rfl
  | cons b bytes ih =>
    rw [Wire.Framer.feed_cons, List.append_eq_nil_iff] at h
    have hb : c.receive b = pure { c with receiver := (c.receiver.push b).2 } := by
      have hn : (c.receiver.push b).1 = none := by simpa using h.1
      unfold receive
      dsimp only
      rw [hn]
      rfl
    change (c.receive b >>= Controller.receiveAll bytes) = _
    rw [hb, pure_bind, ih (c := { c with receiver := (c.receiver.push b).2 }) h.2]
    rfl

theorem receiveAll_append (a b : List UInt8) (c : ReferenceController) :
    Controller.receiveAll (a ++ b) c =
      Controller.receiveAll a c >>= Controller.receiveAll b := by
  induction a generalizing c with
  | nil => rfl
  | cons x a ih =>
    change (c.receive x >>= Controller.receiveAll (a ++ b)) =
      (c.receive x >>= Controller.receiveAll a) >>= Controller.receiveAll b
    rw [bind_assoc]
    exact congrArg _ (funext ih)

/-- Bytes between two delimiters are answered as the message that the receiver makes of them, at the
last delimiter. Between them, there has to be something. -/
theorem receiveAll_delimited {bytes : List UInt8} (hd : Wire.delimiter ∉ bytes)
    (hc : c.receiver = .empty) :
    Controller.receiveAll (Wire.delimiter :: (bytes ++ [Wire.delimiter])) c =
      if bytes = [] then pure c
      else c.onMessage (Wire.unstuff (bytes.take Wire.Framer.capacity)) := by
  have hf : c.receiver.feed (Wire.delimiter :: bytes) = ([], .holding bytes) := by
    rw [hc, Wire.Framer.feed_cons, Wire.Framer.push_delimiter_empty]
    exact Wire.Framer.feed_holding hd []
  have hopen := receiveAll_of_feed (c := c) (Wire.delimiter :: bytes) (by rw [hf])
  rw [hf] at hopen
  have hlast : receive { c with receiver := .holding bytes } Wire.delimiter =
      if bytes = [] then pure c
      else c.onMessage (Wire.unstuff (bytes.take Wire.Framer.capacity)) := by
    unfold receive
    dsimp only
    rw [Wire.Framer.push_delimiter_holding, ← hc]
    split <;> rfl
  rw [← List.cons_append, receiveAll_append, hopen, pure_bind]
  change receive { c with receiver := .holding bytes } Wire.delimiter >>= pure = _
  rw [hlast, bind_pure]

/-- A message in its frame is answered, at the last byte of the frame. -/
theorem receiveAll_frame {m : List UInt8} (hm : Wire.Fits m) (hc : c.receiver = .empty) :
    Controller.receiveAll (Wire.frame m) c = c.onMessage m := by
  rw [Wire.frame, receiveAll_delimited (Wire.delimiter_notMem_stuff m) hc,
    if_neg (Wire.stuff_ne_nil hm.1), List.take_of_length_le hm.2, Wire.unstuff_stuff]

/-- The range of a controller that knits lies on its bed. -/
def Ranged (c : ReferenceController) : Prop :=
  c.mode = .knitting → c.start ≤ c.stop ∧ c.stop < c.model.needleCount

theorem ranged_of_mode_ne (h : c.mode ≠ .knitting) : c.Ranged := fun hk => absurd hk h

theorem ranged_powerOn (m : Model) : (powerOn m).Ranged := ranged_of_mode_ne nofun

/-- What may become of the range of a controller. -/
inductive Reranges (c c' : ReferenceController) : Prop
  /-- It stays, and a controller that did not knit it does not begin to. -/
  | keeps (hs : c'.start = c.start) (ht : c'.stop = c.stop)
      (hk : c'.mode = .knitting → c.mode = .knitting ∧ c'.model = c.model)
  /-- It is set to a range of the bed. -/
  | sets (hle : c'.start ≤ c'.stop) (hlt : c'.stop < c'.model.needleCount)

namespace Reranges

theorem refl (c : ReferenceController) : c.Reranges c := .keeps rfl rfl fun hk => ⟨hk, rfl⟩

theorem send (c : ReferenceController) (m : List UInt8) : c.Reranges (c.send m) :=
  .keeps rfl rfl fun hk => ⟨hk, rfl⟩

theorem enter (c : ReferenceController) {mode : Mode} (h : mode ≠ .knitting) :
    c.Reranges (c.enter mode).value := by
  obtain ⟨lamp0, outbox, he⟩ := c.exists_value_enter mode
  rw [he]
  exact .keeps rfl rfl fun hk => absurd hk h

theorem ranged (h : c.Reranges c') (hc : c.Ranged) : c'.Ranged := by
  intro hk
  cases h with
  | keeps hs ht hkeep =>
    obtain ⟨hm, hmodel⟩ := hkeep hk
    rw [hs, ht, hmodel]
    exact hc hm
  | sets hle hlt => exact ⟨hle, hlt⟩

/-- A range that is not turned round does not get turned round. -/
theorem start_le_stop (h : c.Reranges c') (hc : c.start ≤ c.stop) : c'.start ≤ c'.stop := by
  cases h with
  | keeps hs ht _ => rwa [hs, ht]
  | sets hle _ => exact hle

end Reranges

theorem reranges_onInit (c : ReferenceController) (payload : List UInt8) :
    c.Reranges (c.onInit payload).value := by
  cases hm : payload.head?.bind Model.ofCode? with
  | none =>
    rw [onInit_of_none hm]
    exact .send c _
  | some model =>
    obtain ⟨lamp0, outbox, hv⟩ := exists_value_onInit (c := c) hm
    rw [hv]
    exact .keeps rfl rfl nofun

theorem reranges_onStart (c : ReferenceController) (payload : List UInt8) :
    c.Reranges (c.onStart payload).value := by
  cases ha : c.accepts payload with
  | false =>
    rw [onStart_of_not ha]
    exact .send c _
  | true =>
    obtain ⟨-, start, stop, lamp0, outbox, hle, hlt, hv⟩ := exists_value_onStart ha
    rw [hv]
    exact .sets hle hlt

theorem reranges_onLine (c : ReferenceController) (payload : List UInt8) :
    c.Reranges (c.onLine payload).value := by
  unfold onLine
  split
  · split
    · split
      · exact .keeps rfl rfl fun hk => ⟨hk, rfl⟩
      · exact .refl c
    · exact .refl c
  · exact .refl c

theorem reranges_onTest (c : ReferenceController) : c.Reranges c.onTest.value := by
  obtain ⟨testRegister, lamp0, outbox, hv⟩ := c.exists_value_onTest
  rw [hv]
  exact .keeps rfl rfl nofun

theorem reranges_onTestCommand (c : ReferenceController) (code : Message.Code)
    (payload : List UInt8) : c.Reranges (c.onTestCommand code payload).value := by
  by_cases hq : code = .quitCmd
  · subst hq
    exact .enter c nofun
  · obtain ⟨testRegister, outbox, hv⟩ := c.exists_value_onTestCommand payload hq
    rw [hv]
    exact .keeps rfl rfl fun hk => ⟨hk, rfl⟩

/-- No message makes the controller knit beyond its bed. -/
theorem reranges_onMessage (c : ReferenceController) (message : List UInt8) :
    c.Reranges (c.onMessage message).value := by
  unfold onMessage
  split
  · exact .refl c
  · split
    · exact reranges_onInit c _
    · exact reranges_onStart c _
    · exact reranges_onLine c _
    · exact .send c _
    · exact reranges_onTest c
    · split
      · exact reranges_onTestCommand c _ _
      · exact .refl c
    · exact .refl c

/-- Work on a line leaves the range as it is. -/
theorem reranges_worked (c : ReferenceController) : c.Reranges c.worked := by
  rcases c.tracked.value_workLine_cases with ⟨worked, hw⟩ | ⟨hm, -, worked, hw⟩
  · rw [ReferenceController.worked, hw]
    exact .keeps rfl rfl fun hk => ⟨hk, rfl⟩
  · rw [ReferenceController.worked, hw]
    cases hl : (c.tracked.noting worked).line.last with
    | false =>
      rw [value_finishLine hl]
      exact .keeps rfl rfl fun hk => ⟨hk, rfl⟩
    | true =>
      obtain ⟨lamp0, outbox, he⟩ := exists_value_enter _ .ready
      rw [value_finishLine_last hl, he]
      refine .keeps rfl rfl fun hk => ?_
      cases hk

end KnitBench.ReferenceController
