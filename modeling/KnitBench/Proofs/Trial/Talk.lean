import KnitBench.Proofs.Wire.Delivery
import KnitBench.Trial

/-! What a trial makes of ticks and of the messages of the controller. -/

namespace KnitBench

theorem StateReport.read_payload (r : StateReport) :
    ∃ hallLeft hallRight, read r.payload = .ok { r with hallLeft, hallRight } :=
  ⟨_, _, rfl⟩

namespace Trial

variable {t t' t'' : Trial} {m : Mechanism}

theorem hear_make (t : Trial) (code : Message.Code) (payload : List UInt8) :
    t.hear (Message.make code payload) =
      match t.stage, code with
      | _, .debug | _, .testRes => pure (.ok (), t)
      | .awaiting, .cnfInit => pure (expectOk .cnfInit payload, t)
      | .awaiting, .indState =>
        match expectHealthy payload with
        | .error fault => pure (.error fault, t)
        | .ok _ => do return (.ok (), ← t.startKnitting)
      | .knitting, .indState => pure (expectHealthy payload, t)
      | .knitting, .cnfStart => pure (expectOk .cnfStart payload, t)
      | .knitting, .reqLine => pure (t.request payload)
      | stage, code => pure (.error (.unexpectedCommand code.byte stage), t) := by
  simp only [hear, Message.split_make, Message.Code.ofByte?_byte]
  cases t.stage <;> cases code <;> rfl

theorem value_accept (t : Trial) (message : List UInt8) :
    (t.accept message).value =
      (t.hear message).value.1.map fun _ => (t.hear message).value.2 := rfl

theorem value_accept_cnfInit (hs : t.stage = .awaiting) :
    (t.accept (Message.cnfInit 0)).value = .ok t := by
  rw [value_accept, Message.cnfInit, hear_make, hs]
  rfl

/-- Once the controller has reported that it is well, it is asked to knit. -/
theorem value_accept_report {r : StateReport} (hs : t.stage = .awaiting) (he : r.error = 0) :
    (t.accept r.message).value = .ok { t with
      outgoing := t.outgoing ++
        [Message.reqStart (UInt8.ofNat t.setup.start) (UInt8.ofNat t.setup.stop) 0]
      stage := .knitting } := by
  have hh : expectHealthy r.payload = .ok () := by
    obtain ⟨hallLeft, hallRight, hr⟩ := r.read_payload
    rw [expectHealthy, hr]
    change expectOk .indState [r.error] = _
    rw [he]
    rfl
  rw [value_accept, StateReport.message, hear_make, hs]
  simp only [hh]
  rfl

theorem value_accept_cnfStart (hs : t.stage = .knitting) :
    (t.accept (Message.cnfStart 0)).value = .ok t := by
  rw [value_accept, Message.cnfStart, hear_make, hs]
  rfl

/-- A request for the next line is noted. -/
theorem value_accept_reqLine {line : UInt8} (hs : t.stage = .knitting) (hl : line = t.nextLine) :
    (t.accept (Message.reqLine line)).value = .ok { t with
      nextLine := t.nextLine + 1
      pending := t.pending ++ [(t.options.delay, line)] } := by
  rw [value_accept, Message.reqLine, hear_make]
  simp only [hs, request, if_pos hl]
  rfl

theorem value_deliver_nil (hp : t.pending = []) : t.deliver.value = { t with pending := [] } := by
  unfold deliver
  rw [hp]
  rfl

/-- A request whose time has come is answered. -/
theorem value_deliver_due {w : Nat} {line : UInt8} (hp : t.pending = [(w, line)]) (hw : w ≤ 1) :
    t.deliver.value = { t with
      pending := []
      outgoing := t.outgoing ++ [t.answer line]
      lineDelivered := true } := by
  unfold deliver
  rw [hp]
  have h0 : w - 1 = 0 := by omega
  simp only [List.map_cons, List.map_nil, h0]
  rfl

/-- Any other request waits. -/
theorem value_deliver_waiting {w : Nat} {line : UInt8} (hp : t.pending = [(w + 2, line)]) :
    t.deliver.value = { t with pending := [(w + 1, line)] } := by
  unfold deliver
  rw [hp]
  rfl

theorem value_tick_verdict {v : Verdict} (hv : t.verdict = some v) (m : Mechanism) :
    (t.tick m).value = (none, t) := by
  unfold tick
  rw [hv]
  rfl

theorem value_tick_opening (hv : t.verdict = none) (hs : t.stage = .opening) (m : Mechanism) :
    (t.tick m).value = (none, { t with
      outgoing := t.outgoing ++ [Message.reqInit t.setup.model], stage := .awaiting }) := by
  unfold tick
  rw [hv, hs]
  rfl

theorem value_tick_awaiting (hv : t.verdict = none) (hs : t.stage = .awaiting) (m : Mechanism) :
    (t.tick m).value = (none, t) := by
  unfold tick
  rw [hv, hs]
  rfl

theorem value_tick_knitting (hv : t.verdict = none) (hs : t.stage = .knitting) (m : Mechanism) :
    (t.tick m).value = (t.deliver.value.turn m).value := by
  unfold tick
  rw [hv, hs]
  rfl

/-- Two trials on the same course over the bed. -/
structure OnCourse (t t' : Trial) : Prop where
  sweep_eq : t'.sweep = t.sweep
  passDirection_eq : t'.passDirection = t.passDirection
  passes_eq : t'.passes = t.passes
  reversals_eq : t'.reversals = t.reversals

/-- Away from the rail the sweep goes on. -/
theorem value_turn_of_not (h : m.atRail t.sweep = false) :
    (t.turn m).value = (some t.sweep, t) := by
  unfold turn
  rw [h]
  rfl

/-- At the rail the sweep turns. -/
theorem value_turn_atRail (h : m.atRail t.sweep = true) (hr : t.reversals + 1 ≤ reversalLimit) :
    (t.turn m).value = (some t.sweep.reversed,
      { t with sweep := t.sweep.reversed, reversals := t.reversals + 1 }) := by
  unfold turn
  rw [if_pos h]
  dsimp only [Logged.value_bind]
  rw [if_neg (by omega)]
  rfl

/-- A turn too many ends the trial. -/
theorem value_turn_stalled (h : m.atRail t.sweep = true) (hr : reversalLimit < t.reversals + 1) :
    (t.turn m).value = (none, { t with
      sweep := t.sweep.reversed
      reversals := t.reversals + 1
      verdict := some (.stalled (t.reversals + 1)) }) := by
  unfold turn
  rw [if_pos h]
  dsimp only [Logged.value_bind]
  rw [if_pos hr]
  rfl

/-- Two trials that are at the same point of the conversation. -/
structure Agrees (t t' : Trial) : Prop where
  setup_eq : t'.setup = t.setup
  options_eq : t'.options = t.options
  stage_eq : t'.stage = t.stage
  nextLine_eq : t'.nextLine = t.nextLine
  pending_eq : t'.pending = t.pending
  outgoing_eq : t'.outgoing = t.outgoing

theorem Agrees.refl (t : Trial) : t.Agrees t := ⟨rfl, rfl, rfl, rfl, rfl, rfl⟩

theorem Agrees.trans (h : t.Agrees t') (h' : t'.Agrees t'') : t.Agrees t'' :=
  ⟨h'.1.trans h.1, h'.2.trans h.2, h'.3.trans h.3, h'.4.trans h.4, h'.5.trans h.5, h'.6.trans h.6⟩

theorem agrees_finish (t : Trial) (v : Verdict) : t.Agrees (t.finish v).value :=
  ⟨rfl, rfl, rfl, rfl, rfl, rfl⟩

/-- Turning the sweep is no matter of the conversation. -/
theorem agrees_turn (t : Trial) (m : Mechanism) : t.Agrees (t.turn m).value.2 := by
  unfold turn
  split
  · dsimp only [Logged.value_bind]
    split
    · exact ⟨rfl, rfl, rfl, rfl, rfl, rfl⟩
    · exact ⟨rfl, rfl, rfl, rfl, rfl, rfl⟩
  · exact .refl t

theorem agrees_checkPass (t : Trial) (needles : Array Needle) :
    t.Agrees (t.checkPass needles).value.2 := by
  unfold checkPass
  split
  · exact .refl t
  · exact ⟨rfl, rfl, rfl, rfl, rfl, rfl⟩

/-- Neither is comparing the needles. -/
theorem agrees_afterMove (t : Trial) (m : Mechanism) : t.Agrees (t.afterMove m).value.2 := by
  unfold afterMove
  split
  · simp only [Logged.value_bind]
    have hc := t.agrees_checkPass m.needles
    generalize (t.checkPass m.needles).value = r at hc ⊢
    obtain ⟨verdict?, u⟩ := r
    have hu : t.Agrees { u with
        lineDelivered := false
        passDirection := u.passDirection.reversed
        reversals := 0 } := hc.trans ⟨rfl, rfl, rfl, rfl, rfl, rfl⟩
    cases verdict? with
    | none => exact hu
    | some v => exact hu.trans (agrees_finish _ v)
  · exact .refl t

end Trial

end KnitBench
