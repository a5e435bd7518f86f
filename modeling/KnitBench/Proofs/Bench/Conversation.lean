import KnitBench.Proofs.Bench.Tick
import KnitBench.Proofs.Controller.Replies
import KnitBench.Proofs.Trial.Talk

/-! The conversation of a trial with the reference controller. `Conversing` joins the stage of the
trial, the mode of the controller, and the messages on their way in both directions. It is kept
whatever happens and at whatever time, so the trial never refuses a message, and never has more than
one request to answer. -/

namespace KnitBench.Bench

open ReferenceController Trial

variable {b : Bench ReferenceController} {t t' : Trial} {m m' : Mechanism}
  {c c' : ReferenceController} {ms : List (List UInt8)} {resets : Prop}

/-- Once the controller has reported that it is ready, the trial has its request to knit to send. -/
theorem heard_report {report : StateReport} (hs : t.stage = .awaiting) (hr : report.error = 0) :
    heard (some t) [Message.cnfInit 0, report.message] = .ok (some { t with
      outgoing := t.outgoing ++
        [Message.reqStart (UInt8.ofNat t.setup.start) (UInt8.ofNat t.setup.stop) 0]
      stage := .knitting }) := by
  rw [heard, value_accept_cnfInit hs]
  dsimp only
  rw [heard, value_accept_report hs hr]
  rfl

theorem heard_cnfStart (hs : t.stage = .knitting) (ms : List (List UInt8)) :
    heard (some t) (Message.cnfStart 0 :: ms) = heard (some t) ms := by
  rw [heard, value_accept_cnfStart hs]

/-- A request for the next line waits for its answer. -/
theorem heard_reqLine {line : UInt8} (hs : t.stage = .knitting) (hl : line = t.nextLine) :
    heard (some t) [Message.reqLine line] = .ok (some { t with
      nextLine := t.nextLine + 1
      pending := t.pending ++ [(t.options.delay, line)] }) := by
  rw [heard, value_accept_reqLine hs hl]
  rfl

/-- How far the conversation has come. The messages `ms` wait at the controller. -/
inductive Conversing (t : Trial) (c : ReferenceController) : List (List UInt8) → Prop
  | opening (hs : t.stage = .opening) (hm : c.mode = .idle) (hn : t.nextLine = 0)
      (hp : t.pending = []) (ho : t.outgoing = []) : Conversing t c []
  | calling (hs : t.stage = .awaiting) (hm : c.mode = .idle) (hn : t.nextLine = 0)
      (hp : t.pending = []) (ho : t.outgoing = [Message.reqInit t.setup.model]) :
      Conversing t c []
  | called (report : StateReport) (hr : report.error = 0) (hs : t.stage = .awaiting)
      (hm : c.mode = .ready) (hc : c.model = t.setup.model) (hn : t.nextLine = 0)
      (hp : t.pending = []) (ho : t.outgoing = []) :
      Conversing t c [Message.cnfInit 0, report.message]
  | starting (hs : t.stage = .knitting) (hm : c.mode = .ready) (hc : c.model = t.setup.model)
      (hn : t.nextLine = 0) (hp : t.pending = [])
      (ho : t.outgoing =
        [Message.reqStart (UInt8.ofNat t.setup.start) (UInt8.ofNat t.setup.stop) 0]) :
      Conversing t c []
  /-- A request for a line is on its way, the first one behind the confirmation. -/
  | requesting (before : List (List UInt8)) (hb : before = [] ∨ before = [Message.cnfStart 0])
      (hs : t.stage = .knitting) (hm : c.mode = .knitting) (hr : c.line.ready = false)
      (hn : t.nextLine = c.line.index) (hp : t.pending = []) (ho : t.outgoing = []) :
      Conversing t c (before ++ [Message.reqLine c.line.index])
  /-- The request waits at the trial. -/
  | waiting (w : Nat) (hs : t.stage = .knitting) (hm : c.mode = .knitting)
      (hr : c.line.ready = false) (hn : t.nextLine = c.line.index + 1)
      (hp : t.pending = [(w, c.line.index)]) (ho : t.outgoing = []) : Conversing t c []
  | answering (hs : t.stage = .knitting) (hm : c.mode = .knitting) (hr : c.line.ready = false)
      (hn : t.nextLine = c.line.index + 1) (hp : t.pending = [])
      (ho : t.outgoing = [t.answer c.line.index]) : Conversing t c []
  /-- The controller holds a line. -/
  | working (hs : t.stage = .knitting) (hm : c.mode = .knitting) (hr : c.line.ready = true)
      (hl : c.line.last = false) (hn : t.nextLine = c.line.index + 1) (hp : t.pending = [])
      (ho : t.outgoing = []) : Conversing t c []
  /-- The controller has been reset and has forgotten the conversation. -/
  | forsaken (hs : t.stage ≠ .opening) (hm : c.mode = .idle) (hp : t.pending.length ≤ 1)
      (ho : ∀ o ∈ t.outgoing, ∃ line, o = t.answer line) : Conversing t c []

namespace Conversing

/-- The trial has at most one request to answer. -/
theorem length_pending (h : Conversing t c ms) : t.pending.length ≤ 1 := by
  cases h with
  | opening _ _ _ hp | calling _ _ _ hp | called _ _ _ _ _ _ hp | starting _ _ _ _ hp
  | requesting _ _ _ _ _ _ hp | answering _ _ _ _ hp | working _ _ _ _ _ hp =>
    rw [hp]
    exact Nat.zero_le 1
  | waiting w _ _ _ _ hp =>
    rw [hp]
    exact Nat.le_refl 1
  | forsaken _ _ hp => exact hp

/-- Only mode, model and line of the controller matter. -/
theorem congr_controller (h : Conversing t c ms) (hm : c'.mode = c.mode)
    (hc : c'.model = c.model) (hl : ∃ worked, c'.line = { c.line with worked }) :
    Conversing t c' ms := by
  obtain ⟨worked, hl⟩ := hl
  have hi : c'.line.index = c.line.index := by rw [hl]
  have hr : c'.line.ready = c.line.ready := by rw [hl]
  have hlast : c'.line.last = c.line.last := by rw [hl]
  cases h with
  | opening hs hm' hn hp ho => exact .opening hs (hm.trans hm') hn hp ho
  | calling hs hm' hn hp ho => exact .calling hs (hm.trans hm') hn hp ho
  | called report hr' hs hm' hc' hn hp ho =>
    exact .called report hr' hs (hm.trans hm') (hc.trans hc') hn hp ho
  | starting hs hm' hc' hn hp ho => exact .starting hs (hm.trans hm') (hc.trans hc') hn hp ho
  | requesting before hb hs hm' hr' hn hp ho =>
    rw [← hi]
    exact .requesting before hb hs (hm.trans hm') (hr.trans hr') (by rw [hi, hn]) hp ho
  | waiting w hs hm' hr' hn hp ho =>
    exact .waiting w hs (hm.trans hm') (hr.trans hr') (by rw [hi, hn]) (by rw [hi, hp]) ho
  | answering hs hm' hr' hn hp ho =>
    exact .answering hs (hm.trans hm') (hr.trans hr') (by rw [hi, hn]) hp (by rw [hi, ho])
  | working hs hm' hr' hl' hn hp ho =>
    exact .working hs (hm.trans hm') (hr.trans hr') (hlast.trans hl') (by rw [hi, hn]) hp ho
  | forsaken hs hm' hp ho => exact .forsaken hs (hm.trans hm') hp ho

/-- Only the trial's part of the conversation matters. -/
theorem congr_trial (h : Conversing t c ms) (ha : t.Agrees t') : Conversing t' c ms := by
  have hans (line : UInt8) : t'.answer line = t.answer line := by
    rw [answer, answer, ha.setup_eq, ha.options_eq]
  obtain ⟨hse, hop, hst, hne, hpe, hou⟩ := ha
  cases h with
  | opening hs hm hn hp ho =>
    exact .opening (hst.trans hs) hm (hne.trans hn) (hpe.trans hp) (hou.trans ho)
  | calling hs hm hn hp ho =>
    exact .calling (hst.trans hs) hm (hne.trans hn) (hpe.trans hp) (by rw [hou, ho, hse])
  | called report hr hs hm hc hn hp ho =>
    exact .called report hr (hst.trans hs) hm (by rw [hc, hse]) (hne.trans hn) (hpe.trans hp)
      (hou.trans ho)
  | starting hs hm hc hn hp ho =>
    exact .starting (hst.trans hs) hm (by rw [hc, hse]) (hne.trans hn) (hpe.trans hp)
      (by rw [hou, ho, hse])
  | requesting before hb hs hm hr hn hp ho =>
    exact .requesting before hb (hst.trans hs) hm hr (hne.trans hn) (hpe.trans hp) (hou.trans ho)
  | waiting w hs hm hr hn hp ho =>
    exact .waiting w (hst.trans hs) hm hr (hne.trans hn) (hpe.trans hp) (hou.trans ho)
  | answering hs hm hr hn hp ho =>
    exact .answering (hst.trans hs) hm hr (hne.trans hn) (hpe.trans hp) (by rw [hou, ho, hans])
  | working hs hm hr hl hn hp ho =>
    exact .working (hst.trans hs) hm hr hl (hne.trans hn) (hpe.trans hp) (hou.trans ho)
  | forsaken hs hm hp ho =>
    refine .forsaken (by rw [hst]; exact hs) hm (by rw [hpe]; exact hp) ?_
    intro o hmem
    rw [hou] at hmem
    obtain ⟨line, rfl⟩ := ho o hmem
    exact ⟨line, (hans line).symm⟩

/-- A reset at a moment when the trial has nothing to send. -/
theorem reset (h : Conversing t c ms) (ho : t.outgoing = []) : Conversing t c.reset.value [] := by
  have hnil : ∀ o ∈ t.outgoing, ∃ line, o = t.answer line := by simp [ho]
  have hlen := h.length_pending
  by_cases hs : t.stage = .opening
  · cases h with
    | opening _ _ hn hp ho => exact .opening hs rfl hn hp ho
    | calling hs' | called _ _ hs' | starting hs' | requesting _ _ hs' | waiting _ hs'
    | answering hs' | working hs' =>
      rw [hs] at hs'
      cases hs'
    | forsaken hs' => exact absurd hs hs'
  · exact .forsaken hs rfl hlen hnil

/-- A tick of the trial. -/
theorem tick (h : Conversing t c ms) (ho : t.outgoing = []) (m : Mechanism) :
    Conversing (t.tick m).value.2 c ms := by
  cases hv : t.verdict with
  | some v =>
    rw [value_tick_verdict hv]
    exact h
  | none =>
    cases h with
    | opening hs hm hn hp ho =>
      rw [value_tick_opening hv hs]
      exact .calling rfl hm hn hp (by rw [ho]; rfl)
    | calling _ _ _ _ ho' | starting _ _ _ _ _ ho' | answering _ _ _ _ _ ho' =>
      rw [ho] at ho'
      cases ho'
    | called report hr hs hm hc hn hp ho =>
      rw [value_tick_awaiting hv hs]
      exact .called report hr hs hm hc hn hp ho
    | requesting before hb hs hm hr hn hp ho =>
      rw [value_tick_knitting hv hs]
      refine congr_trial ?_ (agrees_turn _ m)
      rw [value_deliver_nil hp]
      exact .requesting before hb hs hm hr hn rfl ho
    | waiting w hs hm hr hn hp ho =>
      rw [value_tick_knitting hv hs]
      refine congr_trial ?_ (agrees_turn _ m)
      match w with
      | 0 | 1 =>
        rw [value_deliver_due hp (by omega)]
        exact .answering hs hm hr hn rfl (by rw [ho]; rfl)
      | w + 2 =>
        rw [value_deliver_waiting hp]
        exact .waiting (w + 1) hs hm hr hn rfl ho
    | working hs hm hr hl hn hp ho =>
      rw [value_tick_knitting hv hs]
      refine congr_trial ?_ (agrees_turn _ m)
      rw [value_deliver_nil hp]
      exact .working hs hm hr hl hn rfl ho
    | forsaken hs hm hp ho' =>
      cases hst : t.stage with
      | opening => exact absurd hst hs
      | awaiting =>
        rw [value_tick_awaiting hv hst]
        exact .forsaken hs hm hp ho'
      | knitting =>
        rw [value_tick_knitting hv hst]
        refine congr_trial ?_ (agrees_turn _ m)
        match hpe : t.pending with
        | [] =>
          rw [value_deliver_nil hpe]
          exact .forsaken hs hm (Nat.zero_le 1) ho'
        | [(0, line)] | [(1, line)] =>
          rw [value_deliver_due hpe (by omega)]
          refine .forsaken hs hm (Nat.zero_le 1) ?_
          rw [ho]
          intro o hmem
          exact ⟨line, List.mem_singleton.mp hmem⟩
        | [(w + 2, line)] =>
          rw [value_deliver_waiting hpe]
          exact .forsaken hs hm (Nat.le_refl 1) ho'
        | _ :: _ :: _ =>
          rw [hpe] at hp
          simp only [List.length_cons] at hp
          omega

/-- A slice of the controller's time: it may be done with its line. -/
theorem slice (h : Conversing t c ms) (hq : c.Queues ms) (hall : HallReading) :
    ∃ ms', c.worked.Queues ms' ∧ Conversing t (c.sliced hall) ms' := by
  rcases c.tracked.value_workLine_cases with ⟨w, hw⟩ | ⟨hk, hr, w, hw⟩
  · refine ⟨ms, ?_, h.congr_controller ?_ ?_ ⟨w, ?_⟩⟩
    · rw [worked, hw]
      exact hq
    · rw [sliced, worked, hw]
      rfl
    · rw [sliced, worked, hw]
      rfl
    · rw [sliced, worked, hw]
      rfl
  · have hk' : c.mode = .knitting := hk
    have hr' : c.line.ready = true := hr
    cases h with
    | working hs hm _ hl hn hp ho =>
      have hqn : (c.tracked.noting w).Queues [] := hq
      obtain ⟨lamp1, outbox, hv, hqf⟩ := exists_value_finishLine hqn hl
      have hwk : c.worked = (c.tracked.noting w).finishLine.value := hw
      rw [← hwk] at hv hqf
      refine ⟨_, hqf, ?_⟩
      have hreq : Conversing t (c.sliced hall)
          ([] ++ [Message.reqLine (c.sliced hall).line.index]) := by
        refine .requesting [] (Or.inl rfl) hs ?_ ?_ ?_ hp ho
        · rw [sliced, hv]
          exact hm
        · rw [sliced, hv]
        · rw [sliced, hv]
          exact hn
      have hi : (c.sliced hall).line.index = (c.tracked.noting w).line.index + 1 := by
        rw [sliced, hv]
      rwa [hi] at hreq
    | opening _ hm | calling _ hm | called _ _ _ hm | starting _ hm | forsaken _ hm =>
      rw [hk'] at hm
      cases hm
    | requesting _ _ _ _ hn | waiting _ _ _ hn | answering _ _ hn =>
      rw [hr'] at hn
      cases hn

theorem fits (h : Conversing t c ms) : ∀ m ∈ ms, Wire.Fits m := by
  cases h with
  | called report =>
    intro m hm
    simp only [List.mem_cons, List.not_mem_nil, or_false] at hm
    rcases hm with rfl | rfl
    · exact Message.fits_cnfInit 0
    · exact Message.fits_report report
  | requesting before hb =>
    intro m hm
    rcases List.mem_append.mp hm with hm | hm
    · rcases hb with rfl | rfl
      · cases hm
      · rw [List.mem_singleton.mp hm]
        exact Message.fits_cnfStart 0
    · rw [List.mem_singleton.mp hm]
      exact Message.fits_reqLine _
  | opening | calling | starting | waiting | answering | working | forsaken => exact nofun

theorem fits_outgoing (h : Conversing t c ms) : ∀ m ∈ t.outgoing, Wire.Fits m := by
  have none (ho : t.outgoing = []) : ∀ m ∈ t.outgoing, Wire.Fits m := by simp [ho]
  have single {m : List UInt8} (ho : t.outgoing = [m]) (hf : Wire.Fits m) :
      ∀ m ∈ t.outgoing, Wire.Fits m := by
    rw [ho]
    exact fun o hm => List.mem_singleton.mp hm ▸ hf
  cases h with
  | opening _ _ _ _ ho | called _ _ _ _ _ _ _ ho | requesting _ _ _ _ _ _ _ ho
  | waiting _ _ _ _ _ _ ho | working _ _ _ _ _ _ ho => exact none ho
  | calling _ _ _ _ ho => exact single ho (Message.fits_reqInit _)
  | starting _ _ _ _ _ ho => exact single ho (Message.fits_reqStart ..)
  | answering _ _ _ _ _ ho => exact single ho (Message.fits_cnfLine ..)
  | forsaken _ _ _ ho =>
    intro o hm
    obtain ⟨line, rfl⟩ := ho o hm
    exact Message.fits_cnfLine ..

/-- The trial takes every message that waits for it. -/
theorem hear (h : Conversing t c ms) :
    ∃ t', heard (some t) ms = .ok (some t') ∧ Conversing t' c [] := by
  cases h with
  | called report hr hs hm hc hn hp ho =>
    refine ⟨_, heard_report hs hr, .starting rfl hm hc hn hp ?_⟩
    rw [ho]
    rfl
  | requesting before hb hs hm hr hn hp ho =>
    have hreq := heard_reqLine hs hn.symm
    refine ⟨_, ?_, .waiting (t := { t with
      nextLine := t.nextLine + 1
      pending := t.pending ++ [(t.options.delay, c.line.index)] }) t.options.delay hs hm hr
        (by rw [hn]) (by rw [hp]; rfl) ho⟩
    rcases hb with rfl | rfl
    · exact hreq
    · rw [List.singleton_append, heard_cnfStart hs]
      exact hreq
  | opening hs hm hn hp ho => exact ⟨t, rfl, .opening hs hm hn hp ho⟩
  | calling hs hm hn hp ho => exact ⟨t, rfl, .calling hs hm hn hp ho⟩
  | starting hs hm hc hn hp ho => exact ⟨t, rfl, .starting hs hm hc hn hp ho⟩
  | waiting w hs hm hr hn hp ho => exact ⟨t, rfl, .waiting w hs hm hr hn hp ho⟩
  | answering hs hm hr hn hp ho => exact ⟨t, rfl, .answering hs hm hr hn hp ho⟩
  | working hs hm hr hl hn hp ho => exact ⟨t, rfl, .working hs hm hr hl hn hp ho⟩
  | forsaken hs hm hp ho => exact ⟨t, rfl, .forsaken hs hm hp ho⟩

theorem told_answers (hm : c.mode ≠ .knitting) (os : List (List UInt8))
    (ho : ∀ o ∈ os, ∃ line, o = t.answer line) : c.told os = c := by
  induction os with
  | nil => rfl
  | cons o os ih =>
    obtain ⟨line, rfl⟩ := ho _ List.mem_cons_self
    rw [told_cons, answer, value_cnfLine_of_mode_ne hm]
    exact ih fun o hmem => ho o (List.mem_cons_of_mem _ hmem)

/-- The controller takes every message that the trial has to send. -/
theorem tell (h : Conversing t c []) (hq : c.Queues []) :
    ∃ ms', Conversing { t with outgoing := [] } (c.told t.outgoing) ms' ∧
      (c.told t.outgoing).Queues ms' := by
  have silent (ho : t.outgoing = []) :
      { t with outgoing := [] } = t ∧ c.told t.outgoing = c := by
    rw [ho]
    exact ⟨by rw [← ho], rfl⟩
  generalize hms : ([] : List (List UInt8)) = ms at h
  cases h with
  | called | requesting => simp at hms
  | opening hs hm hn hp ho =>
    rw [(silent ho).1, (silent ho).2]
    exact ⟨[], .opening hs hm hn hp ho, hq⟩
  | waiting w hs hm hr hn hp ho =>
    rw [(silent ho).1, (silent ho).2]
    exact ⟨[], .waiting w hs hm hr hn hp ho, hq⟩
  | working hs hm hr hl hn hp ho =>
    rw [(silent ho).1, (silent ho).2]
    exact ⟨[], .working hs hm hr hl hn hp ho, hq⟩
  | calling hs hm hn hp ho =>
    obtain ⟨report, lamp0, outbox, hr, hv, hqr⟩ := exists_value_reqInit hq t.setup.model
    rw [ho, told_cons, told_nil]
    refine ⟨_, ?_, hqr⟩
    rw [hv]
    exact .called report hr hs rfl rfl hn hp rfl
  | starting hs hm hc hn hp ho =>
    obtain ⟨lamp0, outbox, hv, hqr⟩ := exists_value_reqStart_range hq hm hc
    rw [ho, told_cons, told_nil]
    generalize (c.onMessage (Message.reqStart (UInt8.ofNat t.setup.start)
      (UInt8.ofNat t.setup.stop) 0)).value = c' at hv hqr ⊢
    have hi : c'.line.index = 0 := by rw [hv]
    have hreq : Conversing { t with outgoing := [] } c'
        ([Message.cnfStart 0] ++ [Message.reqLine c'.line.index]) :=
      .requesting _ (Or.inr rfl) hs (by rw [hv]) (by rw [hv]) (by rw [hi]; exact hn) hp rfl
    rw [hi] at hreq
    exact ⟨_, hreq, hqr⟩
  | answering hs hm hr hn hp ho =>
    have hlast : ((0 : UInt8) &&& Message.lastLineFlag != 0) = false := by decide
    rw [ho, told_cons, told_nil, answer, onMessage_cnfLine hm rfl, Logged.value_pure, hlast]
    exact ⟨[], .working hs hm rfl rfl hn hp rfl, queues_of_outbox_eq (c := c) rfl hq⟩
  | forsaken hs hm hp ho =>
    rw [told_answers (by rw [hm]; decide) _ ho]
    exact ⟨[], .forsaken hs hm hp nofun, hq⟩

end Conversing

/-- A bench with a trial in conversation. -/
structure Talks (b : Bench ReferenceController) (t : Trial) (ms : List (List UInt8)) : Prop where
  trial_eq : b.trial = some t
  conversing : Conversing t b.controller ms
  queues : b.controller.Queues ms
  attached : Attached b.mechanism b.controller
  receiver_eq : b.receiver = .empty
  controller_receiver_eq : b.controller.receiver = .empty

theorem Talks.initial (s : Setup) (model : Model) (o : TrialOptions) (tracing : Bool) :
    Talks (((assemble s (powerOn model)).withTrial o).setTracing tracing) (.begin s o) [] := by
  have hw := Wired.initial s model
  have ha : (((assemble s (powerOn model)).withTrial o).setTracing tracing).controller =
      Controller.raiseLevels (Mechanism.initial s).levels (powerOn model) := rfl
  rw [raiseLevels_eq] at hw ha
  refine ⟨rfl, ?_, ?_, ?_, rfl, ?_⟩ <;> rw [ha]
  · exact .opening rfl rfl rfl rfl rfl
  · exact Carries.nil
  · exact hw.toAttached
  · rfl

/-- A cue may cut the conversation off, but does not disturb it. -/
theorem Talks.obeyNext (h : Talks b t ms) (ho : t.outgoing = []) :
    ∃ ms', Talks b.obeyNext.value t ms' := by
  obtain ⟨m', c', queue, tracing, hv, -, hc⟩ := b.exists_value_obeyNext
  rw [hv]
  generalize hm : b.mechanism = m at hc
  generalize hcc : b.controller = c at hc
  have hconv := h.conversing
  have hq := h.queues
  have hat := h.attached
  have hr := h.controller_receiver_eq
  rw [hcc] at hconv hq hr
  rw [hm, hcc] at hat
  cases hc with
  | rest => exact ⟨ms, h.trial_eq, hconv, hq, hat, h.receiver_eq, hr⟩
  | move d =>
    exact ⟨ms, h.trial_eq, hconv.congr_controller rfl rfl ⟨_, rfl⟩, hq, hat.move d, h.receiver_eq,
      hr⟩
  | reset => exact ⟨[], h.trial_eq, hconv.reset ho, Carries.nil, hat.reset, h.receiver_eq, rfl⟩

theorem Talks.tickTrial (h : Talks b t ms) (ho : t.outgoing = []) :
    ∃ t', Talks b.tickTrial.value t' ms := by
  have hconv := h.conversing.tick ho b.mechanism
  generalize hp : (t.tick b.mechanism).value = p at hconv
  obtain ⟨planned?, t'⟩ := p
  cases planned? with
  | none =>
    rw [value_tickTrial_rest h.trial_eq hp]
    exact ⟨t', rfl, hconv, h.queues, h.attached, h.receiver_eq, h.controller_receiver_eq⟩
  | some d =>
    rw [value_tickTrial_move h.trial_eq hp]
    exact ⟨_, rfl, (hconv.congr_trial (agrees_afterMove _ _)).congr_controller rfl rfl ⟨_, rfl⟩,
      h.queues, h.attached.move d, h.receiver_eq, h.controller_receiver_eq⟩

theorem Talks.refresh (h : Talks b t ms) : Talks b.refresh.value t ms := by
  obtain ⟨panel, mechanism, hv, hm⟩ := b.exists_value_refresh
  rw [hv]
  rcases hm with rfl | rfl
  · exact ⟨h.1, h.2, h.3, h.4, h.5, h.6⟩
  · exact ⟨h.1, h.2, h.3, h.attached.refreshed, h.5, h.6⟩

theorem Talks.tickIfDue (h : Talks b t ms) (ho : t.outgoing = []) :
    ∃ t' ms', Talks b.tickIfDue.value t' ms' := by
  rcases b.value_tickIfDue_cases with ⟨lastTick, hv⟩ | ⟨lastTick, hv⟩
  · rw [hv]
    exact ⟨t, ms, h.1, h.2, h.3, h.4, h.5, h.6⟩
  · rw [hv, value_tick]
    obtain ⟨ms', h₁⟩ := Talks.obeyNext (b := { b with lastTick, ticks := b.ticks + 1 })
      ⟨h.1, h.2, h.3, h.4, h.5, h.6⟩ ho
    obtain ⟨t', h₂⟩ := h₁.tickTrial ho
    exact ⟨t', ms', h₂.refresh⟩

/-- After the tick, the trial takes every message that the controller has sent, and the controller
every message that the trial has to send. -/
theorem Talks.exchange {b₁ : Bench ReferenceController} (h : Talks b₁ t ms)
    (hb : b.tickIfDue.value = b₁) (hv : b.verdict = none) :
    ∃ ms₂ t₂ ms', heard (some t) ms₂ = .ok (some t₂) ∧
      b.step.value.1 = .ok (ending b₁.verdict) ∧ (b.after .step).verdict = b₁.verdict ∧
      Talks (b.after .step) { t₂ with outgoing := [] } ms' := by
  obtain ⟨ms₂, hq₂, hc₂⟩ := h.conversing.slice h.queues b₁.mechanism.hall
  obtain ⟨t₂, hh, hc₃⟩ := hc₂.hear
  obtain ⟨ms₃, hc₄, hq₄⟩ := hc₃.tell (queues_sliced ..)
  have hhb := hh
  rw [← h.trial_eq] at hhb
  obtain ⟨traffic, panel, hs⟩ := exists_value_step hb hv h.attached h.receiver_eq
    h.controller_receiver_eq hq₂ hc₂.fits hhb hc₃.fits_outgoing
  have hans := answers_told (b₁.controller.sliced b₁.mechanism.hall) t₂.outgoing
  rw [outgoing_some] at hs
  rw [after, hs]
  exact ⟨ms₂, t₂, ms₃, hh, rfl, rfl, rfl, hc₄, hq₄,
    h.attached.slice.toAttached.answers hans, h.receiver_eq,
    (hans.receiver_eq.trans (receiver_sliced h.queues _)).trans h.controller_receiver_eq⟩

/-- Whatever step is next, the trial takes every message, and the conversation goes on. -/
theorem Talks.step (h : Talks b t ms) (ho : t.outgoing = []) :
    ∃ status t' ms', b.step.value.1 = .ok status ∧ t'.outgoing = [] ∧
      Talks (b.after .step) t' ms' := by
  cases hv : b.verdict with
  | some v =>
    rw [after, value_step_finished hv]
    exact ⟨.finished v, t, ms, rfl, ho, h⟩
  | none =>
    obtain ⟨t', ms', h'⟩ := h.tickIfDue ho
    obtain ⟨ms₂, t₂, ms₃, -, hs, -, h₃⟩ := h'.exchange rfl hv
    exact ⟨_, _, ms₃, hs, rfl, h₃⟩

theorem Talks.play (h : Talks b t ms) (ho : t.outgoing = []) (inputs : List Input) :
    ∃ t' ms', t'.outgoing = [] ∧ Talks (b.play inputs) t' ms' := by
  induction inputs generalizing b t ms with
  | nil => exact ⟨t, ms, ho, h⟩
  | cons i inputs ih =>
    cases i with
    | cue cue =>
      obtain ⟨queue, hb, -⟩ := b.exists_after_cue cue
      have h' : Talks (b.after (.cue cue)) t ms := by
        rw [hb]
        exact ⟨h.1, h.2, h.3, h.4, h.5, h.6⟩
      exact ih h' ho
    | step =>
      obtain ⟨status, t', ms', -, ho', h'⟩ := h.step ho
      exact ih h' ho'

/-- Whatever the options of the trial, whatever the operator does and at whatever moment, the trial
refuses no message of the controller, and never has more than one request to answer. -/
theorem trial_refuses_nothing (s : Setup) (model : Model) (o : TrialOptions) (tracing : Bool)
    (inputs : List Input) :
    let b := (((assemble s (powerOn model)).withTrial o).setTracing tracing).play inputs
    (∃ status, b.step.value.1 = .ok status) ∧
      ∃ t, b.trial = some t ∧ t.pending.length ≤ 1 := by
  intro b
  obtain ⟨t, ms, ho, h⟩ := (Talks.initial s model o tracing).play rfl inputs
  obtain ⟨status, -, -, hs, -⟩ := h.step ho
  exact ⟨⟨status, hs⟩, t, h.trial_eq, h.conversing.length_pending⟩

end KnitBench.Bench
