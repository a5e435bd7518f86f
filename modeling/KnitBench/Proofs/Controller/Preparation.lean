import Mathlib.Data.List.Induction
import KnitBench.Proofs.Controller.Speech

/-! How the reference controller comes to be ready to knit: a host tells it a machine that it knows,
or quits the hardware test. The second needs nothing told before. -/

namespace KnitBench.ReferenceController

open Message

variable {model : Model} {c : ReferenceController} {x : Stimulus} {xs : List Stimulus}
  {code : Code} {payload : List UInt8} {P : ReferenceController → Stimulus → Prop}

/-- The command of a message and its payload, if the message is in order. -/
def understood (message : List UInt8) : Option (Code × List UInt8) :=
  match split message with
  | .error _ => none
  | .ok (b, payload) => (Code.ofByte? b).map (·, payload)

/-- What the controller hears with a stimulus, if that completes a message in order. -/
def heard (c : ReferenceController) : Stimulus → Option (Code × List UInt8)
  | .byte b => (c.receiver.push b).1.bind understood
  | .raise .. | .slice | .reset | .poll => none

/-- A host tells a machine that the controller knows, and the controller confirms it. -/
def Told (c : ReferenceController) (x : Stimulus) : Prop :=
  (∃ payload, c.heard x = some (.reqInit, payload) ∧
    ∃ model, payload.head?.bind Model.ofCode? = some model) ∧ cnfInit 0 ∈ c.said x

/-- A host quits the hardware test. -/
def QuitsTest (c : ReferenceController) (x : Stimulus) : Prop :=
  c.mode = .test ∧ ∃ payload, c.heard x = some (.quitCmd, payload)

/-- The controller is ready to knit, or knits. -/
def Prepared (c : ReferenceController) : Prop := c.mode = .ready ∨ c.mode = .knitting

/-! ### One stimulus -/

theorem exists_of_understood {message : List UInt8}
    (h : understood message = some (code, payload)) :
    ∃ b, split message = .ok (b, payload) ∧ Code.ofByte? b = some code := by
  unfold understood at h
  split at h
  · cases h
  · rename_i b payload' hs
    obtain ⟨code', hc, he⟩ := Option.map_eq_some_iff.mp h
    cases he
    exact ⟨b, hs, hc⟩

theorem exists_of_heard (h : c.heard x = some (code, payload)) :
    ∃ b message receiver byte, x = .byte b ∧ c.receiver.push b = (some message, receiver) ∧
      split message = .ok (byte, payload) ∧ Code.ofByte? byte = some code := by
  cases x with
  | byte b =>
    obtain ⟨message, hp, hu⟩ := Option.bind_eq_some_iff.mp h
    obtain ⟨byte, hs, hc⟩ := exists_of_understood hu
    exact ⟨b, message, (c.receiver.push b).2, byte, rfl, Prod.ext hp rfl, hs, hc⟩
  | raise | slice | reset | poll => cases h

theorem said_reqInit (h : c.heard x = some (.reqInit, payload)) :
    c.said x = c.repliesToInit payload := by
  obtain ⟨b, message, receiver, byte, rfl, hp, hs, hc⟩ := exists_of_heard h
  simp only [said_eq, sends, hp, Option.elim_some, replies, hs, hc]

theorem said_reqStart (h : c.heard x = some (.reqStart, payload)) :
    c.said x = c.repliesToStart payload := by
  obtain ⟨b, message, receiver, byte, rfl, hp, hs, hc⟩ := exists_of_heard h
  simp only [said_eq, sends, hp, Option.elim_some, replies, hs, hc]

theorem after_reqStart (h : c.heard x = some (.reqStart, payload)) :
    ∃ receiver, c.after x = (onStart { c with receiver } payload).value := by
  obtain ⟨b, message, receiver, byte, rfl, hp, hs, hc⟩ := exists_of_heard h
  exact ⟨receiver, by simp only [after, receive, hp, Option.elim_some, onMessage, hs, hc]⟩

/-- A start that is not accepted is refused, and the mode stays. -/
theorem refused_of_not_accepts (h : c.heard x = some (.reqStart, payload))
    (ha : c.accepts payload = false) :
    c.said x = [cnfStart 1] ∧ (c.after x).mode = c.mode := by
  refine ⟨by rw [said_reqStart h, repliesToStart, ha]; rfl, ?_⟩
  obtain ⟨receiver, hv⟩ := after_reqStart h
  rw [hv, onStart_of_not (c := { c with receiver }) ha, Logged.value_pure, mode_send]

/-- With a start that is accepted the controller knits and asks for the first line. -/
theorem started_of_accepts (h : c.heard x = some (.reqStart, payload))
    (ha : c.accepts payload = true) :
    c.said x = [cnfStart 0, reqLine 0] ∧ (c.after x).mode = .knitting := by
  refine ⟨by rw [said_reqStart h, repliesToStart, ha]; rfl, ?_⟩
  obtain ⟨receiver, hv⟩ := after_reqStart h
  obtain ⟨-, start, stop, lamp0, outbox, -, -, hs⟩ :=
    exists_value_onStart (c := { c with receiver }) ha
  rw [hv, hs]

/-- Whoever quits the hardware test makes the controller ready. -/
theorem mode_of_quitsTest (h : c.QuitsTest x) : (c.after x).mode = .ready := by
  obtain ⟨hm, payload, hq⟩ := h
  obtain ⟨b, message, receiver, byte, rfl, hp, hs, hc⟩ := exists_of_heard hq
  obtain ⟨lamp0, outbox, he⟩ := exists_value_enter { c with receiver } .ready
  have hv : c.after (.byte b) = (enter { c with receiver } .ready).value := by
    simp only [after, receive, hp, Option.elim_some, onMessage, hs, hc, hm, if_pos, onTestCommand]
  rw [hv, he]

/-- The modes to which the controller may go from a mode with what it hears. -/
inductive Shift (mode : Mode) : Option (Code × List UInt8) → Mode → Prop
  | stays (heard? : Option (Code × List UInt8)) : Shift mode heard? mode
  | told {payload : List UInt8} {model : Model}
      (h : payload.head?.bind Model.ofCode? = some model) :
      Shift mode (some (.reqInit, payload)) .ready
  | started (payload : List UInt8) (h : mode = .ready) :
      Shift mode (some (.reqStart, payload)) .knitting
  | tested (payload : List UInt8) : Shift mode (some (.reqTest, payload)) .test
  | quit (payload : List UInt8) (h : mode = .test) : Shift mode (some (.quitCmd, payload)) .ready

/-- A reply on its own leaves the mode as it is. -/
theorem shift_send (c : ReferenceController) (heard? : Option (Code × List UInt8))
    (m : List UInt8) :
    Shift c.mode heard? (pure (c.send m) : Logged ReferenceController).value.mode :=
  .stays heard?

theorem shift_onInit (c : ReferenceController) (payload : List UInt8) :
    Shift c.mode (some (.reqInit, payload)) (c.onInit payload).value.mode := by
  cases hm : payload.head?.bind Model.ofCode? with
  | none =>
    rw [onInit_of_none hm]
    exact shift_send c _ _
  | some model =>
    obtain ⟨lamp0, outbox, hv⟩ := exists_value_onInit (c := c) hm
    rw [hv]
    exact .told hm

theorem shift_onStart (c : ReferenceController) (payload : List UInt8) :
    Shift c.mode (some (.reqStart, payload)) (c.onStart payload).value.mode := by
  cases ha : c.accepts payload with
  | false =>
    rw [onStart_of_not ha]
    exact shift_send c _ _
  | true =>
    obtain ⟨hm, start, stop, lamp0, outbox, -, -, hv⟩ := exists_value_onStart ha
    rw [hv]
    exact .started payload hm

theorem mode_onLine (c : ReferenceController) (payload : List UInt8) :
    (c.onLine payload).value.mode = c.mode := by
  unfold onLine
  split
  · split
    · split <;> rfl
    · rfl
  · rfl

theorem shift_onTest (c : ReferenceController) (payload : List UInt8) :
    Shift c.mode (some (.reqTest, payload)) c.onTest.value.mode := by
  obtain ⟨testRegister, lamp0, outbox, hv⟩ := c.exists_value_onTest
  rw [hv]
  exact .tested payload

theorem shift_onTestCommand (hm : c.mode = .test) (code : Code) (payload : List UInt8) :
    Shift c.mode (some (code, payload)) (c.onTestCommand code payload).value.mode := by
  by_cases hq : code = .quitCmd
  · subst hq
    change Shift c.mode _ (c.enter .ready).value.mode
    obtain ⟨lamp0, outbox, he⟩ := c.exists_value_enter .ready
    rw [he]
    exact .quit payload hm
  · obtain ⟨testRegister, outbox, hv⟩ := c.exists_value_onTestCommand payload hq
    rw [hv]
    exact .stays _

theorem shift_onMessage (c : ReferenceController) (message : List UInt8) :
    Shift c.mode (understood message) (c.onMessage message).value.mode := by
  unfold onMessage understood
  cases split message with
  | error => exact .stays _
  | ok parts =>
    obtain ⟨b, payload⟩ := parts
    dsimp only
    cases Code.ofByte? b with
    | none => exact .stays _
    | some code =>
      cases code
      case reqInit => exact shift_onInit c payload
      case reqStart => exact shift_onStart c payload
      case cnfLine => exact mode_onLine c payload ▸ .stays _
      case reqInfo => exact shift_send c _ _
      case reqTest => exact shift_onTest c payload
      all_goals
        dsimp only
        split
        · exact shift_onTestCommand ‹_› _ payload
        · exact .stays _

theorem shift_byte (c : ReferenceController) (b : UInt8) :
    Shift c.mode (c.heard (.byte b)) (c.after (.byte b)).mode := by
  simp only [heard, after, receive]
  cases c.receiver.push b with
  | mk message? receiver =>
    cases message? with
    | none => exact .stays _
    | some message => exact shift_onMessage { c with receiver } message

/-- With a slice of time the controller at most finishes its last line. -/
theorem mode_slice (c : ReferenceController) :
    (c.after .slice).mode = c.mode ∨ c.mode = .knitting ∧ (c.after .slice).mode = .ready := by
  obtain ⟨os, -, hs⟩ := c.exists_value_step
  have hm : (c.after .slice).mode = c.worked.mode := by
    rw [after, hs]
  rw [hm]
  obtain ⟨worked, hv⟩ | ⟨hk, -, worked, hv⟩ := c.tracked.value_workLine_cases
  · have hw : c.worked = _ := hv
    rw [hw]
    exact Or.inl rfl
  · have hw : c.worked = _ := hv
    cases hl : (c.tracked.noting worked).line.last with
    | false =>
      rw [hw, value_finishLine hl, mode_send]
      exact Or.inl rfl
    | true =>
      obtain ⟨lamp0, outbox, he⟩ := exists_value_enter _ .ready
      rw [hw, value_finishLine_last hl, he]
      exact Or.inr ⟨hk, rfl⟩

/-- What has made the controller ready, or has left it so. -/
theorem prepared_after (h : (c.after x).Prepared) :
    c.Told x ∨ c.QuitsTest x ∨ c.Prepared ∧ x ≠ .reset := by
  have still (hp : c.Prepared) (hx : x ≠ .reset) :
      c.Told x ∨ c.QuitsTest x ∨ c.Prepared ∧ x ≠ .reset := Or.inr (Or.inr ⟨hp, hx⟩)
  cases x with
  | byte b =>
    have hs := shift_byte c b
    generalize hh : c.heard (.byte b) = heard? at hs
    generalize hm : (c.after (.byte b)).mode = mode at hs
    cases hs with
    | stays => exact still (by rwa [Prepared, hm] at h) (by simp)
    | @told payload model hp =>
      refine Or.inl ⟨⟨payload, hh, model, hp⟩, ?_⟩
      rw [said_reqInit hh, repliesToInit, hp]
      exact List.mem_cons_self
    | started payload hr => exact still (Or.inl hr) (by simp)
    | tested => rcases h with h | h <;> rw [hm] at h <;> cases h
    | quit payload ht => exact Or.inr (Or.inl ⟨ht, payload, hh⟩)
  | raise line value => cases line <;> exact still h (by simp)
  | slice =>
    obtain hm | ⟨hk, -⟩ := c.mode_slice
    · exact still (by rwa [Prepared, hm] at h) (by simp)
    · exact still (Or.inr hk) (by simp)
  | reset => rcases h with h | h <;> cases h
  | poll =>
    obtain ⟨outbox, hc⟩ := c.exists_poll
    rw [after, hc] at h
    exact still h (by simp)

/-! ### Runs -/

/-- Something of a kind has happened since power-on, and no reset after it. -/
def SinceReset (P : ReferenceController → Stimulus → Prop) (model : Model) (xs : List Stimulus) :
    Prop :=
  ∃ earlier x later, xs = earlier ++ x :: later ∧ P (reached model earlier) x ∧ .reset ∉ later

namespace SinceReset

theorem now (h : P (reached model xs) x) : SinceReset P model (xs ++ [x]) :=
  ⟨xs, x, [], rfl, h, nofun⟩

theorem still (h : SinceReset P model xs) (hx : x ≠ .reset) : SinceReset P model (xs ++ [x]) := by
  obtain ⟨earlier, y, later, rfl, hy, hl⟩ := h
  refine ⟨earlier, y, later ++ [x], by simp, hy, ?_⟩
  rw [List.mem_append, List.mem_singleton]
  exact fun hr => hr.elim hl fun he => hx he.symm

/-- It has happened at some place of the run. -/
theorem exists_lt (h : SinceReset P model xs) :
    ∃ n, ∃ hn : n < xs.length, P (reached model (xs.take n)) xs[n] := by
  obtain ⟨earlier, x, later, rfl, hx, -⟩ := h
  exact ⟨earlier.length, by simp, by simpa using hx⟩

end SinceReset

/-- A run that leaves the controller ready has told it its machine or has quit the test. -/
theorem sinceReset_of_prepared (h : (reached model xs).Prepared) :
    SinceReset Told model xs ∨ SinceReset QuitsTest model xs := by
  -- The newest stimulus has made the controller ready, or has left it so without a reset.
  induction xs using List.reverseRecOn with
  | nil => rcases h with h | h <;> cases h
  | append_singleton xs x ih =>
    rw [reached_concat] at h
    obtain ht | hq | ⟨hp, hx⟩ := prepared_after h
    · exact Or.inl (.now ht)
    · exact Or.inr (.now hq)
    · exact (ih hp).imp (·.still hx) (·.still hx)

/-- Whatever happens to a controller from power-on, it is ready or knits only if since the last
reset a host has told it a machine that it knows, or has quit the hardware test. With neither, a
start is refused. A test that is quit makes it ready, told or not, and once it is ready the start of
any range on its bed is accepted. -/
theorem prepared_of_run (model : Model) (xs : List Stimulus) (x : Stimulus) :
    let c := reached model xs
    (c.mode = .ready ∨ c.mode = .knitting →
      SinceReset Told model xs ∨ SinceReset QuitsTest model xs) ∧
    (∀ payload, c.heard x = some (.reqStart, payload) →
      ¬SinceReset Told model xs → ¬SinceReset QuitsTest model xs →
        c.said x = [cnfStart 1] ∧ (c.after x).mode = c.mode) ∧
    (c.QuitsTest x → (c.after x).mode = .ready) ∧
    (∀ start stop rest, c.heard x = some (.reqStart, start :: stop :: rest) → c.mode = .ready →
      start.toNat ≤ stop.toNat → stop.toNat < c.model.needleCount →
        c.said x = [cnfStart 0, reqLine 0] ∧ (c.after x).mode = .knitting) := by
  intro c
  have prepared (h : c.Prepared) : SinceReset Told model xs ∨ SinceReset QuitsTest model xs :=
    sinceReset_of_prepared h
  refine ⟨prepared, fun payload hx ht hq => ?_, mode_of_quitsTest, ?_⟩
  · refine refused_of_not_accepts hx (Bool.eq_false_iff.mpr fun ha => ?_)
    exact (prepared (Or.inl (exists_value_onStart ha).1)).elim ht hq
  · intro start stop rest hx hm hle hlt
    exact started_of_accepts hx (decide_eq_true ⟨hm, hle, hlt⟩)

/-- A host that never tells the machine, but asks for the hardware test, quits it and starts to
knit. The delimiter that ends its start is yet to come. -/
def untold : List Stimulus :=
  ([reqTest, make .quitCmd []].flatMap Wire.frame ++
    Wire.delimiter :: Wire.stuff (reqStart 0 199 0)).map .byte

theorem prepared_of_run_untold :
    (reached .kh930 untold).mode = .ready ∧
      (SinceReset Told .kh930 untold ∨ SinceReset QuitsTest .kh930 untold) ∧
      (reached .kh930 untold).said (.byte Wire.delimiter) = [cnfStart 0, reqLine 0] ∧
      ((reached .kh930 untold).after (.byte Wire.delimiter)).mode = .knitting := by
  obtain ⟨hprepared, -, -, hstart⟩ := prepared_of_run .kh930 untold (.byte Wire.delimiter)
  have hm : (reached .kh930 untold).mode = .ready := by decide +kernel
  obtain ⟨hsaid, hk⟩ := hstart 0 199 [0] (by decide +kernel) hm (by decide) (by decide +kernel)
  exact ⟨hm, hprepared (Or.inl hm), hsaid, hk⟩

/-- The controller is ready although no machine has been told, and accepts the start. -/
theorem ready_untold :
    (reached .kh930 untold).mode = .ready ∧ ¬SinceReset Told .kh930 untold ∧
      (reached .kh930 untold).heard (.byte Wire.delimiter) = some (.reqStart, [0, 199, 0]) ∧
      (reached .kh930 untold).said (.byte Wire.delimiter) = [cnfStart 0, reqLine 0] ∧
      ((reached .kh930 untold).after (.byte Wire.delimiter)).mode = .knitting := by
  have hnone : ∀ n, (hn : n < untold.length) →
      ((reached .kh930 (untold.take n)).heard untold[n]).map Prod.fst ≠ some .reqInit := by
    decide +kernel
  refine ⟨by decide +kernel, fun h => ?_, by decide +kernel, by decide +kernel, by decide +kernel⟩
  obtain ⟨n, hn, ⟨payload, hp, -⟩, -⟩ := h.exists_lt
  exact hnone n hn (by rw [hp]; rfl)

end KnitBench.ReferenceController
