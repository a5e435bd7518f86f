import KnitBench.Proofs.Bench.Clock
import KnitBench.Proofs.Bench.Conversation
import KnitBench.Proofs.Trial.Judgement

/-! How a controller that knits is supplied with lines: every request is answered with the pattern,
after no more ticks than the options of the trial allow. -/

namespace KnitBench.Bench

open ReferenceController Trial

variable {b : Bench ReferenceController} {s : Setup} {o : TrialOptions} {n n' : Nat}
  {fresh fresh' : Prop} {m : Mechanism} {c c' : ReferenceController} {t t₁ t₂ : Trial}
  {d : Direction}

/-- The line with which every request is answered. -/
def patternLine (s : Setup) (o : TrialOptions) : LineBitmap :=
  .ofCells o.pattern.cells s.start s.stop

/-- Where the line is that the controller has asked for. -/
inductive Supply (line : LineBitmap) (n : Nat) (t : Trial) (c : ReferenceController) : Prop
  /-- It will be sent in fewer than `n` ticks. -/
  | waiting (w : Nat) (hw : w < n) (hr : c.line.ready = false)
      (hp : t.pending = [(w, c.line.index)]) (ho : t.outgoing = [])
  | answering (hr : c.line.ready = false) (hp : t.pending = [])
      (ho : t.outgoing = [t.answer c.line.index])
  /-- The controller has it. -/
  | holding (hr : c.line.ready = true) (hb : c.line.bitmap = line) (hp : t.pending = [])
      (ho : t.outgoing = [])

/-- Trial and controller while the range is knitted. When `fresh` holds, no pass has been compared
since the last line was sent. -/
structure Serving (s : Setup) (o : TrialOptions) (n : Nat) (fresh : Prop) (t : Trial)
    (c : ReferenceController) : Prop where
  model_eq : c.model = s.model
  mode_eq : c.mode = .knitting
  start_eq : c.start = s.start
  stop_eq : c.stop = s.stop
  last_eq : c.line.last = false
  setup_eq : t.setup = s
  options_eq : t.options = o
  stage_eq : t.stage = .knitting
  verdict_eq : t.verdict = none
  nextLine_eq : t.nextLine = c.line.index + 1
  supply : Supply (patternLine s o) n t c
  delivered : fresh → c.line.ready = true ∨ t.outgoing ≠ [] → t.lineDelivered = true

namespace Serving

theorem mono (h : Serving s o n fresh t c) (hn : n ≤ n') : Serving s o n' fresh t c := by
  refine { h with supply := ?_ }
  cases h.supply with
  | waiting w hw hr hp ho => exact .waiting w (by omega) hr hp ho
  | answering hr hp ho => exact .answering hr hp ho
  | holding hr hb hp ho => exact .holding hr hb hp ho

/-- Only model, mode, range and line of the controller matter. -/
theorem congr_controller (h : Serving s o n fresh t c) (hc : c'.model = c.model)
    (hm : c'.mode = c.mode) (hs : c'.start = c.start) (hp : c'.stop = c.stop)
    (hl : ∃ worked, c'.line = { c.line with worked }) : Serving s o n fresh t c' := by
  obtain ⟨worked, hl⟩ := hl
  have hi : c'.line.index = c.line.index := by rw [hl]
  have hr : c'.line.ready = c.line.ready := by rw [hl]
  refine ⟨hc.trans h.1, hm.trans h.2, hs.trans h.3, hp.trans h.4, by rw [hl]; exact h.5, h.6, h.7,
    h.8, h.9, by rw [hi]; exact h.10, ?_, by rw [hr]; exact h.12⟩
  cases h.supply with
  | waiting w hw hr' hp ho => exact .waiting w hw (hr.trans hr') (by rw [hi]; exact hp) ho
  | answering hr' hp ho => exact .answering (hr.trans hr') hp (by rw [hi]; exact ho)
  | holding hr' hb hp ho => exact .holding (hr.trans hr') (by rw [hl]; exact hb) hp ho

/-- Only the trial's part of the conversation matters, and that a line has been delivered. -/
theorem congr_trial (h : Serving s o n fresh t c) (ha : t.Agrees t₁) (hv : t₁.verdict = none)
    (hd : fresh' → fresh ∧ t₁.lineDelivered = t.lineDelivered) : Serving s o n fresh' t₁ c := by
  obtain ⟨hse, hop, hst, hne, hpe, hou⟩ := ha
  refine ⟨h.1, h.2, h.3, h.4, h.5, hse.trans h.6, hop.trans h.7, hst.trans h.8, hv, hne.trans h.10,
    ?_, ?_⟩
  · cases h.supply with
    | waiting w hw hr hp ho => exact .waiting w hw hr (hpe.trans hp) (hou.trans ho)
    | answering hr hp ho =>
      refine .answering hr (hpe.trans hp) ?_
      rw [hou, ho, answer, answer, hse, hop]
    | holding hr hb hp ho => exact .holding hr hb (hpe.trans hp) (hou.trans ho)
  · intro hf hsent
    rw [hou] at hsent
    rw [(hd hf).2]
    exact h.delivered (hd hf).1 hsent

theorem holding (h : Serving s o n fresh t c) (hr : c.line.ready = true) :
    c.line.bitmap = patternLine s o ∧ t.pending = [] ∧ t.outgoing = [] := by
  cases h.supply with
  | waiting _ _ hn | answering hn =>
    rw [hr] at hn
    cases hn
  | holding _ hb hp ho => exact ⟨hb, hp, ho⟩

/-- Once no tick is left to wait, the line is there. -/
theorem ready (h : Serving s o 0 fresh t c) (ho : t.outgoing = []) : c.line.ready = true := by
  cases h.supply with
  | waiting w hw => omega
  | answering _ _ ho' =>
    rw [ho] at ho'
    cases ho'
  | holding hr => exact hr

/-- A tick brings the line closer. -/
theorem deliver (h : Serving s o (n + 1) fresh t c) (ho : t.outgoing = []) :
    t.OnCourse t.deliver.value ∧ Serving s o n fresh t.deliver.value c := by
  cases h.supply with
  | waiting w hw hr hp =>
    match w with
    | 0 | 1 =>
      rw [value_deliver_due hp (by omega)]
      refine ⟨⟨rfl, rfl, rfl, rfl⟩, h.1, h.2, h.3, h.4, h.5, h.6, h.7, h.8, h.9, h.10,
        .answering hr rfl ?_, fun _ _ => rfl⟩
      rw [ho]
      rfl
    | w + 2 =>
      rw [value_deliver_waiting hp]
      exact ⟨⟨rfl, rfl, rfl, rfl⟩, h.1, h.2, h.3, h.4, h.5, h.6, h.7, h.8, h.9, h.10,
        .waiting (w + 1) (by omega) hr rfl ho, h.12⟩
  | answering _ _ ho' =>
    rw [ho] at ho'
    cases ho'
  | holding hr hb hp =>
    rw [value_deliver_nil hp]
    exact ⟨⟨rfl, rfl, rfl, rfl⟩, h.1, h.2, h.3, h.4, h.5, h.6, h.7, h.8, h.9, h.10,
      .holding hr hb rfl ho, h.12⟩

theorem fits_outgoing (h : Serving s o n fresh t c) : ∀ m ∈ t.outgoing, Wire.Fits m := by
  cases h.supply with
  | waiting _ _ _ _ ho | holding _ _ _ ho => simp [ho]
  | answering _ _ ho =>
    rw [ho]
    exact fun m hm => List.mem_singleton.mp hm ▸ Message.fits_cnfLine ..

/-- The controller takes the line, if it is sent. -/
theorem tell (h : Serving s o n fresh t c) (hw : c.line.worked = none) :
    ∃ line, c.told t.outgoing = { c with line } ∧ line.worked = none ∧
      Serving s o n fresh { t with outgoing := [] } { c with line } := by
  cases h.supply with
  | waiting w hlt hr hp ho =>
    refine ⟨c.line, by rw [ho]; rfl, hw, h.1, h.2, h.3, h.4, h.5, h.6, h.7, h.8, h.9, h.10,
      .waiting w hlt hr hp rfl, ?_⟩
    intro hf hsent
    exact h.delivered hf (hsent.imp_right fun hne => absurd rfl hne)
  | answering hr hp ho =>
    have hbits : LineBitmap.ofCells t.options.pattern.cells t.setup.start t.setup.stop =
        patternLine s o := by
      rw [h.setup_eq, h.options_eq]
      rfl
    generalize hb : patternLine s o = bits at hbits
    have hlast : ((0 : UInt8) &&& Message.lastLineFlag != 0) = false := by decide
    have hv : c.told t.outgoing = { c with line := { c.line with
        bitmap := bits, ready := true, last := false, worked := none } } := by
      rw [ho, told_cons, told_nil, answer, hbits, onMessage_cnfLine h.mode_eq rfl,
        Logged.value_pure, hlast]
    exact ⟨_, hv, rfl, h.1, h.2, h.3, h.4, rfl, h.6, h.7, h.8, h.9, h.10,
      .holding rfl hb.symm hp rfl, fun hf _ => h.delivered hf (Or.inr (by simp [ho]))⟩
  | holding hr hb hp ho =>
    refine ⟨c.line, by rw [ho]; rfl, hw, h.1, h.2, h.3, h.4, h.5, h.6, h.7, h.8, h.9, h.10,
      .holding hr hb hp rfl, ?_⟩
    intro hf _
    exact h.delivered hf (Or.inl hr)

/-- Done with its line, the controller asks for the next one. -/
theorem request (h : Serving s o n fresh t c) (hr : c.line.ready = true)
    (ha : t.Agrees t₁) (hc : c'.model = c.model) (hm : c'.mode = c.mode) (hs : c'.start = c.start)
    (hp : c'.stop = c.stop)
    (hl : c'.line = { c.line with ready := false, worked := none, index := c.line.index + 1 }) :
    ∃ t', heard (some t₁) [Message.reqLine (c.line.index + 1)] = .ok (some t') ∧
      t'.outgoing = [] ∧
      (t₁.verdict = none → (∀ fresh, Serving s o (o.delay + 1) fresh t' c') ∧
        t' = { t₁ with nextLine := t'.nextLine, pending := t'.pending }) := by
  obtain ⟨-, hpe, hou⟩ := h.holding hr
  have hst := ha.stage_eq.trans h.stage_eq
  have hnl := ha.nextLine_eq.trans h.nextLine_eq
  refine ⟨_, heard_reqLine hst hnl.symm, ha.outgoing_eq.trans hou, fun hv => ⟨fun fresh => ?_, rfl⟩⟩
  have hop := ha.options_eq.trans h.options_eq
  refine ⟨hc.trans h.1, hm.trans h.2, hs.trans h.3, hp.trans h.4, by rw [hl]; exact h.5,
    ha.setup_eq.trans h.6, hop, hst, hv, ?_, .waiting o.delay (Nat.lt_succ_self _) ?_ ?_ ?_, ?_⟩
  · rw [hl, hnl]
  · rw [hl]
  · rw [hl, hop, ha.pending_eq, hpe]
    rfl
  · exact ha.outgoing_eq.trans hou
  · intro _ hsent
    rw [hl] at hsent
    rcases hsent with hsent | hsent
    · cases hsent
    · exact absurd (ha.outgoing_eq.trans hou) hsent

end Serving

/-- Mechanism, controller and trial between two steps while the range is knitted. -/
structure Between (s : Setup) (o : TrialOptions) (n : Nat) (fresh : Prop) (m : Mechanism)
    (c : ReferenceController) (t : Trial) : Prop where
  wired : Wired m c
  empty : c.Queues []
  setup_eq : m.setup = s
  serving : Serving s o n fresh t c
  outgoing_eq : t.outgoing = []

namespace Between

/-- Slices of time that leave the line alone change nothing of it. -/
theorem rest (h : Between s o n fresh m c t) (hw : c.worked = c.tracked) :
    t.outgoing = [] ∧ Attached m c ∧ c.worked.Queues [] ∧
      Between s o n fresh (m.latch c.worked.wantedRegister) (c.sliced m.hall) t := by
  refine ⟨h.outgoing_eq, h.wired.toAttached, ?_, h.wired.toAttached.slice, queues_sliced ..,
    h.setup_eq, ?_, h.outgoing_eq⟩
  · rw [hw]
    exact h.empty
  · rw [sliced, hw]
    exact h.serving.congr_controller rfl rfl rfl rfl ⟨_, rfl⟩

/-- Neither do ticks with a move; what the trial has to send reaches the controller. -/
theorem tick_move (h : Between s o n fresh b.mechanism b.controller t) (hb : Timed 5 t b)
    (hr : (t.tick b.mechanism).value = (some d, t₁))
    (hm : (t₁.afterMove (b.mechanism.move d)).value = (none, t₂))
    (hs : Serving s o n' fresh' t₂ b.controller) (hn : b.controller.line.worked = none)
    (hw : (b.controller.seeing (b.mechanism.move d).levels).worked =
      (b.controller.seeing (b.mechanism.move d).levels).tracked) :
    ∃ stale line register b', b.step.value = (.ok .running, b') ∧
      Timed 1 { t₂ with outgoing := [] } b' ∧
      Between s o n' fresh' b'.mechanism b'.controller { t₂ with outgoing := [] } ∧
      line.worked = none ∧ b'.mechanism = { b.mechanism.move d with stale, register } ∧
      b'.controller = { (b.controller.seeing (b.mechanism.move d).levels).tracked with
        line
        register := some register
        outbox := #[]
        hall := (b.mechanism.move d).hall } := by
  have ha := h.wired.toAttached
  have hq : (b.controller.seeing (b.mechanism.move d).levels).worked.Queues [] := by
    rw [hw]
    exact h.empty
  obtain ⟨stale, b', hstep, ht, hm', hc'⟩ := hb.tick_move hr hm ha hq nofun (heard_nil _)
    hs.fits_outgoing
  have hsl : (b.controller.seeing (b.mechanism.move d).levels).sliced (b.mechanism.move d).hall =
      { (b.controller.seeing (b.mechanism.move d).levels).tracked with
        register :=
          some (b.controller.seeing (b.mechanism.move d).levels).worked.wantedRegister
        outbox := #[]
        hall := (b.mechanism.move d).hall } := by
    rw [sliced, hw]
  have hs' : Serving s o n' fresh' t₂
      ((b.controller.seeing (b.mechanism.move d).levels).sliced (b.mechanism.move d).hall) := by
    rw [hsl]
    exact hs.congr_controller rfl rfl rfl rfl ⟨_, rfl⟩
  have hwired := (ha.move d).slice.answers (answers_told _ t₂.outgoing)
  have hq' : ((b.controller.seeing (b.mechanism.move d).levels).sliced
      (b.mechanism.move d).hall).Queues [] := queues_sliced ..
  obtain ⟨line, htold, hwl, hserv⟩ := hs'.tell (by rw [hsl]; exact hn)
  rw [htold] at hc' hwired
  refine ⟨stale, line, _, b', hstep, ht, ?_, hwl, hm', ?_⟩
  · rw [hm', hc']
    exact ⟨hwired.shown stale, hq', h.setup_eq, hserv, rfl⟩
  · rw [hc', hsl]

end Between

end KnitBench.Bench
