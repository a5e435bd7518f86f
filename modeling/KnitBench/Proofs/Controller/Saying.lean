import KnitBench.Proofs.Controller.Speech
import KnitBench.Proofs.Message.LineBitmap

/-! What becomes of the knitting of a pattern, whatever happens on the wires of the reference
controller: each byte, each slice of time and each reset does at most one thing to it. -/

namespace KnitBench

namespace Message

/-- A message that neither asks for a line nor confirms a start. -/
def Plain (m : List UInt8) : Prop := m.head? ≠ some Code.reqLine.byte ∧ m ≠ cnfStart 0

theorem plain_make (code : Code) (payload : List UInt8) (hr : code ≠ .reqLine)
    (hs : code ≠ .cnfStart) : Plain (make code payload) := by
  have hb {code' : Code} (h : code ≠ code') : code.byte ≠ code'.byte := by
    intro he
    have ho := Code.ofByte?_byte code
    rw [he, Code.ofByte?_byte] at ho
    exact h (Option.some.inj ho).symm
  refine ⟨fun h => hb hr (Option.some.inj h), fun h => ?_⟩
  have hc : code.byte = Code.cnfStart.byte := congrArg (fun m => m.headD 0) h
  exact hb hs hc

/-- A refusal to start is plain. -/
theorem plain_cnfStart_error : Plain (cnfStart 1) := ⟨nofun, by decide⟩

end Message

namespace ReferenceController

open Message

variable {c c' : ReferenceController} {x : Stimulus} {b : UInt8}

/-- The line that the controller takes with a payload, if it is the one asked for: its number, and
whether it is marked as the last one. -/
def takenOf (c : ReferenceController) : List UInt8 → Option (UInt8 × Bool)
  | index :: _ :: flags :: bits =>
    if c.mode = .knitting ∧ index = c.line.index ∧ LineBitmap.size ≤ bits.length then
      some (index, flags &&& lastLineFlag != 0)
    else none
  | _ => none

/-- The line that a message has the controller take. -/
def takenIn (c : ReferenceController) (message : List UInt8) : Option (UInt8 × Bool) :=
  match split message with
  | .ok (code, payload) => if code = Code.cnfLine.byte then c.takenOf payload else none
  | .error _ => none

/-- The line that a stimulus has the controller take. -/
def takes? (c : ReferenceController) : Stimulus → Option (UInt8 × Bool)
  | .byte b => (c.receiver.push b).1.bind c.takenIn
  | .raise .. | .slice | .reset | .poll => none

/-- What a stimulus may make of a mode and a line, what is said, and which line is taken. -/
inductive Turn (mode : Mode) (line : LineBuffer) :
    Stimulus → ReferenceController → List (List UInt8) → Option (UInt8 × Bool) → Prop
  /-- Mode and line are left alone. -/
  | quiet {x : Stimulus} {c' : ReferenceController} {ms : List (List UInt8)} (hm : c'.mode = mode)
      (hl : ∃ worked, c'.line = { line with worked }) (hp : ∀ m ∈ ms, Plain m) :
      Turn mode line x c' ms none
  /-- The controller does not knit afterwards. -/
  | rest {x : Stimulus} {c' : ReferenceController} {ms : List (List UInt8)}
      (hm : c'.mode ≠ .knitting) (hp : ∀ m ∈ ms, Plain m) : Turn mode line x c' ms none
  | start (b : UInt8) {c' : ReferenceController} (hm : mode ≠ .knitting)
      (hm' : c'.mode = .knitting) (hl : c'.line = {}) :
      Turn mode line (.byte b) c' [cnfStart 0, reqLine 0] none
  | take (b : UInt8) (last : Bool) {c' : ReferenceController} (hm : mode = .knitting)
      (hm' : c'.mode = .knitting) (hi : c'.line.index = line.index) (hr : c'.line.ready = true)
      (hl : c'.line.last = last) : Turn mode line (.byte b) c' [] (some (line.index, last))
  /-- The line at hand is finished, and was not the last one. -/
  | ask {c' : ReferenceController} (hm : mode = .knitting) (hr : line.ready = true)
      (hl : line.last = false) (hm' : c'.mode = .knitting) (hi : c'.line.index = line.index + 1)
      (hr' : c'.line.ready = false) : Turn mode line .slice c' [reqLine (line.index + 1)] none

namespace Turn

/-- A single plain message, with mode and line left alone. -/
theorem reply {m : List UInt8} (hp : Plain m) : Turn c.mode c.line x (c.send m) [m] none :=
  .quiet rfl ⟨_, rfl⟩ fun _ hm => List.mem_singleton.mp hm ▸ hp

/-- Nothing is said, and nothing done. -/
theorem idle (hm : c'.mode = c.mode) (hl : ∃ worked, c'.line = { c.line with worked }) :
    Turn c.mode c.line x c' [] none :=
  .quiet hm hl nofun

end Turn

theorem turn_onInit (c : ReferenceController) (payload : List UInt8) :
    Turn c.mode c.line x (c.onInit payload).value (c.repliesToInit payload) none := by
  cases hm : payload.head?.bind Model.ofCode? with
  | none =>
    rw [onInit_of_none hm, repliesToInit, hm]
    exact .reply (plain_make .cnfInit [1] (by decide) (by decide))
  | some model =>
    obtain ⟨lamp0, outbox, hv⟩ := exists_value_onInit (c := c) hm
    rw [hv, repliesToInit, hm]
    refine .rest (by simp) fun m hmem => ?_
    rcases List.mem_cons.mp hmem with rfl | hmem
    · exact plain_make .cnfInit [0] (by decide) (by decide)
    · rw [List.mem_singleton.mp hmem]
      exact plain_make .indState _ (by decide) (by decide)

theorem turn_onStart (c : ReferenceController) (payload : List UInt8) :
    Turn c.mode c.line (.byte b) (c.onStart payload).value (c.repliesToStart payload) none := by
  rw [repliesToStart]
  cases ha : c.accepts payload with
  | false =>
    rw [onStart_of_not ha]
    exact .reply plain_cnfStart_error
  | true =>
    obtain ⟨hm, start, stop, lamp0, outbox, -, -, hv⟩ := exists_value_onStart ha
    rw [hv, hm]
    exact .start b (by decide) rfl rfl

theorem turn_onTest (c : ReferenceController) :
    Turn c.mode c.line x c.onTest.value [cnfTest 0] none := by
  obtain ⟨testRegister, lamp0, outbox, hv⟩ := c.exists_value_onTest
  rw [hv]
  refine .rest nofun fun m hmem => ?_
  rw [List.mem_singleton.mp hmem]
  exact plain_make .cnfTest [0] nofun nofun

theorem plain_of_mem_repliesToTestCommand {m : List UInt8} {code : Code} {payload : List UInt8}
    (hm : m ∈ c.repliesToTestCommand code payload) : Plain m := by
  have told {text : String} (h : m ∈ [testRes text]) : Plain m :=
    List.mem_singleton.mp h ▸ plain_make .testRes _ nofun nofun
  unfold repliesToTestCommand at hm
  split at hm
  · cases hm
  · cases hm
  · split at hm
    · cases hm
    · exact told hm
  · exact told hm
  · exact told hm
  · cases hm
  · exact told hm

theorem turn_onTestCommand (c : ReferenceController) (code : Code) (payload : List UInt8) :
    Turn c.mode c.line x (c.onTestCommand code payload).value
      (c.repliesToTestCommand code payload) none := by
  by_cases hq : code = .quitCmd
  · subst hq
    obtain ⟨lamp0, outbox, he⟩ := c.exists_value_enter .ready
    refine .rest ?_ fun m hm => plain_of_mem_repliesToTestCommand hm
    change (c.enter .ready).value.mode ≠ _
    rw [he]
    exact nofun
  · obtain ⟨testRegister, outbox, hv⟩ := c.exists_value_onTestCommand payload hq
    rw [hv]
    exact .quiet rfl ⟨_, rfl⟩ fun m hm => plain_of_mem_repliesToTestCommand hm

theorem turn_onLine (c : ReferenceController) (payload : List UInt8) :
    Turn c.mode c.line (.byte b) (c.onLine payload).value [] (c.takenOf payload) := by
  have ignored : Turn c.mode c.line (.byte b) c [] none := .idle rfl ⟨_, rfl⟩
  match payload with
  | index :: color :: flags :: bits =>
    simp only [onLine, takenOf]
    by_cases hk : c.mode = .knitting ∧ index = c.line.index
    · rw [if_pos hk]
      by_cases hl : LineBitmap.size ≤ bits.length
      · obtain ⟨bitmap, hb⟩ := LineBitmap.exists_ofBytes? hl
        rw [if_pos ⟨hk.1, hk.2, hl⟩, hb, hk.2]
        exact .take b _ hk.1 hk.1 rfl rfl rfl
      · rw [if_neg fun h => hl h.2.2, LineBitmap.ofBytes?_of_lt hl]
        exact ignored
    · rw [if_neg hk, if_neg fun h => hk ⟨h.1, h.2.1⟩]
      exact ignored
  | [] | [_] | [_, _] => exact ignored

/-- What a message does to the knitting of a pattern. -/
theorem turn_onMessage (c : ReferenceController) (message : List UInt8) :
    Turn c.mode c.line (.byte b) (c.onMessage message).value (c.replies message)
      (c.takenIn message) := by
  have ignored : Turn c.mode c.line (.byte b) c [] none := .idle rfl ⟨_, rfl⟩
  unfold onMessage replies takenIn
  cases split message with
  | error => exact ignored
  | ok parts =>
    obtain ⟨byte, payload⟩ := parts
    dsimp only
    cases hc : Code.ofByte? byte with
    | none =>
      have hne : byte ≠ Code.cnfLine.byte := by
        rintro rfl
        rw [Code.ofByte?_byte] at hc
        cases hc
      rw [if_neg hne]
      exact ignored
    | some code =>
      obtain rfl := Code.byte_of_ofByte? hc
      cases code
      case reqInit => exact turn_onInit c payload
      case reqStart => exact turn_onStart c payload
      case cnfLine => exact turn_onLine c payload
      case reqInfo => exact .reply (plain_make .cnfInfo _ nofun nofun)
      case reqTest => exact turn_onTest c
      all_goals
        dsimp only
        split
        · exact turn_onTestCommand c _ payload
        · exact ignored

theorem turn_byte (c : ReferenceController) (b : UInt8) :
    Turn c.mode c.line (.byte b) (c.after (.byte b)) (c.sends (.byte b)) (c.takes? (.byte b)) := by
  simp only [after, receive, sends, takes?]
  cases c.receiver.push b with
  | mk message? receiver =>
    cases message? with
    | none => exact .idle rfl ⟨_, rfl⟩
    | some message => exact turn_onMessage { c with receiver } message

theorem turn_slice (c : ReferenceController) :
    Turn c.mode c.line .slice (c.after .slice) (c.sends .slice) none := by
  obtain ⟨os, -, hs⟩ := c.exists_value_step
  have hm : (c.after .slice).mode = c.worked.mode := by
    rw [after, hs]
  have hl : (c.after .slice).line = c.worked.line := by
    rw [after, hs]
  obtain ⟨worked, hv⟩ := c.tracked.exists_value_workLine
  have hw : c.worked = if c.tracked.finishes then (c.tracked.noting worked).finishLine.value
    else c.tracked.noting worked := hv
  rw [sends]
  cases hf : c.tracked.finishes with
  | false =>
    rw [hf] at hw
    exact .idle (by rw [hm, hw]; rfl) ⟨worked, by rw [hl, hw]; rfl⟩
  | true =>
    obtain ⟨hk, hr⟩ := knitting_of_finishes hf
    rw [hf] at hw
    cases hlast : c.line.last with
    | false =>
      have hv : c.worked = _ := hw.trans (value_finishLine (c := c.tracked.noting worked) hlast)
      refine .ask hk hr hlast ?_ ?_ ?_
      · rw [hm, hv, mode_send]
        exact hk
      · rw [hl, hv, line_send]
        rfl
      · rw [hl, hv, line_send]
    | true =>
      have hv : c.worked = _ :=
        hw.trans (value_finishLine_last (c := c.tracked.noting worked) hlast)
      refine .rest ?_ (by simp)
      obtain ⟨lamp0, outbox, he⟩ := exists_value_enter _ .ready
      rw [hm, hv, he]
      simp

/-- Whatever happens, at most one thing comes of it for the knitting of a pattern. -/
theorem turn_after (c : ReferenceController) (x : Stimulus) :
    Turn c.mode c.line x (c.after x) (c.said x) (c.takes? x) := by
  rw [said_eq]
  cases x with
  | byte b => exact turn_byte c b
  | raise line value => cases line <;> exact .idle rfl ⟨_, rfl⟩
  | slice => exact turn_slice c
  | reset => exact .rest nofun nofun
  | poll =>
    obtain ⟨outbox, hc⟩ := c.exists_poll
    rw [after, hc]
    exact .idle rfl ⟨_, rfl⟩

end ReferenceController

end KnitBench
