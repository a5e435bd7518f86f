import KnitBench.Proofs.Bench.Conversation
import KnitBench.Proofs.Controller.Lamp
import KnitBench.Proofs.Controller.Preparation
import KnitBench.Proofs.Trial.Course

/-! Lamp 0 of the panel, which is to show whether the controller knits. It does, until a reset is
obeyed while the lamp is on. The controller then forgets that it has ever switched it on, so that
the lamp stays on. -/

namespace KnitBench

theorem Panel.lamp0_setLamp (p : Panel) (index : UInt8) (on : Bool) :
    (p.setLamp index on).lamp0 = (Output.lamp index on).light p.lamp0 := by
  rw [Panel.setLamp, Output.light]
  by_cases hi : index = 0
  · rw [if_pos hi, if_pos hi]
  · rw [if_neg hi, if_neg hi]
    split <;> rfl

theorem Panel.lamp0_refreshed (p : Panel) : p.refreshed.lamp0 = p.lamp0 := by
  unfold Panel.refreshed
  split <;> rfl

namespace Trial

variable {t t' : Trial}

/-- The trial sweeps, and has nothing to send but answers. -/
structure OnlyAnswers (t : Trial) : Prop where
  stage_eq : t.stage = .knitting
  answers : ∀ m ∈ t.outgoing, ∃ line, m = t.answer line

theorem OnlyAnswers.congr (h : t.OnlyAnswers) (ha : t.Agrees t') : t'.OnlyAnswers := by
  refine ⟨ha.stage_eq.trans h.stage_eq, fun m hm => ?_⟩
  rw [ha.outgoing_eq] at hm
  obtain ⟨line, rfl⟩ := h.answers m hm
  exact ⟨line, by rw [answer, answer, ha.setup_eq, ha.options_eq]⟩

theorem OnlyAnswers.tick (h : t.OnlyAnswers) (m : Mechanism) : (t.tick m).value.2.OnlyAnswers := by
  cases hv : t.verdict with
  | some v =>
    rw [value_tick_verdict hv]
    exact h
  | none =>
    rw [value_tick_knitting hv h.stage_eq]
    refine OnlyAnswers.congr ?_ (agrees_turn _ m)
    obtain ⟨lines, pending, hd⟩ := t.exists_value_deliver
    rw [hd]
    refine ⟨h.stage_eq, fun m hm => ?_⟩
    rcases List.mem_append.mp hm with hm | hm
    · exact h.answers m hm
    · obtain ⟨line, -, rfl⟩ := List.mem_map.mp hm
      exact ⟨line, rfl⟩

end Trial

namespace Bench

open ReferenceController Trial

variable {b b₁ : Bench ReferenceController} {t t' : Trial} {ms : List (List UInt8)} {lit : Bool}
  {inputs : List Input}

/-! ### The lamp in a step -/

/-- The trial has no part in the lamp. -/
theorem lamp_consult (b : Bench ReferenceController) (m : List UInt8) :
    (b.consult m).value.2.controller = b.controller ∧
      (b.consult m).value.2.panel = b.panel := by
  unfold consult
  split
  · exact ⟨rfl, rfl⟩
  · rename_i t ht
    rw [Logged.value_bind]
    generalize (t.hear m).value = r
    obtain ⟨answer, t'⟩ := r
    cases answer <;> exact ⟨rfl, rfl⟩

/-- Of panel and controller, an output changes what the lamp shows and what is known of the
sensors. -/
theorem lamp_passOn (b : Bench ReferenceController) (o : Output) :
    ∃ hall, (b.passOn o).value.2.controller = { b.controller with hall } ∧
      (b.passOn o).value.2.panel.lamp0 = o.light b.panel.lamp0 := by
  cases o with
  | solenoids | convert =>
    rw [value_passOn_of_drives b rfl]
    exact ⟨_, rfl, rfl⟩
  | beeper duty => exact ⟨b.controller.hall, rfl, rfl⟩
  | lamp index on => exact ⟨b.controller.hall, rfl, b.panel.lamp0_setLamp index on⟩
  | serial byte =>
    unfold passOn
    dsimp only
    split
    · exact ⟨b.controller.hall, rfl, rfl⟩
    · rename_i message receiver _
      obtain ⟨hc, hp⟩ := lamp_consult { b with
        receiver, traffic := b.traffic.record .fromDevice message } message
      rw [Logged.value_bind, value_record]
      exact ⟨b.controller.hall, hc, congrArg Panel.lamp0 hp⟩

/-- Outputs that are all passed on leave the lamp as they tell. -/
theorem lamp_passAllOn (os : List Output) (hf : (passAllOn os b).value.1 = none) :
    ∃ hall, (passAllOn os b).value.2.controller = { b.controller with hall } ∧
      (passAllOn os b).value.2.panel.lamp0 = os.foldl Output.light b.panel.lamp0 := by
  induction os generalizing b with
  | nil => exact ⟨b.controller.hall, rfl, rfl⟩
  | cons o os ih =>
    obtain ⟨hall, hc, hp⟩ := b.lamp_passOn o
    obtain ⟨b', ho, hos⟩ := passAllOn_cons_iff.mp (Prod.ext hf rfl)
    rw [ho] at hc hp
    obtain ⟨hall', hc', hp'⟩ := ih (congrArg Prod.fst hos)
    rw [hos] at hc' hp'
    refine ⟨hall', hc'.trans ?_, hp'.trans ?_⟩
    · rw [hc]
    · rw [hp, List.foldl_cons]

/-- When all that waits has been passed on, the lamp shows whether the controller knits. -/
theorem mirrors_collect (h : b.controller.Mirrors b.panel.lamp0)
    (hc : b.collect.value = (none, b₁)) :
    b₁.controller.Mirrors b₁.panel.lamp0 ∧
      b₁.panel.lamp0 = decide (b.controller.mode = .knitting) := by
  have hv : b.collect.value = (passAllOn b.controller.outbox.toList { b with
      controller := { b.controller with outbox := #[] } }).value := rfl
  rw [hv] at hc
  obtain ⟨hall, hcon, hp⟩ := lamp_passAllOn _ (congrArg Prod.fst hc)
  rw [hc] at hcon hp
  have hl : b₁.panel.lamp0 = decide (b.controller.mode = .knitting) :=
    hp.trans (h.shown_eq.trans h.lamp0_eq)
  dsimp only at hcon
  rw [hcon]
  exact ⟨⟨h.lamp0_eq, hl.trans h.lamp0_eq.symm⟩, hl⟩

/-- When nothing waits, there is nothing to pass on. -/
theorem value_collect_of_outbox_eq (h : b.controller.outbox = #[]) :
    b.collect.value =
      (none, { b with controller := { b.controller with outbox := #[] } }) := by
  have hv : b.collect.value = (passAllOn b.controller.outbox.toList { b with
      controller := { b.controller with outbox := #[] } }).value := rfl
  rw [hv, h]
  rfl

theorem mirrors_sendAll (ms : List (List UInt8)) (h : b.controller.Mirrors lit) :
    (sendAll ms b).value.controller.Mirrors lit ∧ (sendAll ms b).value.panel = b.panel := by
  induction ms generalizing b with
  | nil => exact ⟨h, rfl⟩
  | cons m ms ih =>
    simp only [sendAll, Logged.value_bind, value_record]
    exact ih (b := { b with
      controller := (Controller.receiveAll (Wire.frame m) b.controller).value
      traffic := b.traffic.record .toDevice m }) (h.receiveAll _)

theorem mirrors_sendOutgoing (h : b.controller.Mirrors lit) :
    b.sendOutgoing.value.controller.Mirrors lit ∧ b.sendOutgoing.value.panel = b.panel := by
  unfold sendOutgoing
  split
  · exact ⟨h, rfl⟩
  · exact mirrors_sendAll (b := { b with trial := _ }) _ h

theorem lamp_tickTrial (b : Bench ReferenceController) :
    ∃ levels, b.tickTrial.value.controller = b.controller.seeing levels ∧
      b.tickTrial.value.panel = b.panel := by
  have stays : b.controller = b.controller.seeing b.controller.levels := rfl
  cases ht : b.trial with
  | none =>
    rw [value_tickTrial_none ht]
    exact ⟨_, stays, rfl⟩
  | some t =>
    generalize hp : (t.tick b.mechanism).value = p
    obtain ⟨planned?, t'⟩ := p
    cases planned? with
    | none =>
      rw [value_tickTrial_rest ht hp]
      exact ⟨_, stays, rfl⟩
    | some d =>
      rw [value_tickTrial_move ht hp]
      exact ⟨_, rfl, rfl⟩

theorem lamp_refresh (b : Bench ReferenceController) :
    b.refresh.value.controller = b.controller ∧ b.refresh.value.panel.lamp0 = b.panel.lamp0 := by
  unfold refresh
  split
  · exact ⟨rfl, b.panel.lamp0_refreshed⟩
  · exact ⟨rfl, rfl⟩

/-- The next step obeys a reset. -/
structure ResetsNext (b : Bench ReferenceController) : Prop where
  verdict_eq : b.verdict = none
  due : tickInterval < b.now - min b.lastTick b.now
  oldest : b.queue.cues.head?.map Cue.action = some .reset

/-- Until the slice of time, a step changes the levels that the controller sees, and of the panel
not the lamp, unless it obeys a reset. -/
theorem lamp_tickIfDue (hv : b.verdict = none) :
    b.tickIfDue.value.panel.lamp0 = b.panel.lamp0 ∧
      ((∃ levels, b.tickIfDue.value.controller = b.controller.seeing levels) ∨
        b.ResetsNext ∧
          ∃ levels, b.tickIfDue.value.controller = b.controller.reset.value.seeing levels) := by
  by_cases hd : tickInterval < b.now - min b.lastTick b.now
  · obtain ⟨mechanism, controller, queue, tracing, ho, -, hc⟩ :=
      exists_value_obeyNext_oldest { b with lastTick := b.now, ticks := b.ticks + 1 }
    rw [value_tickIfDue hd, value_tick, ho]
    obtain ⟨levels, htc, htp⟩ := lamp_tickTrial { b with
      lastTick := b.now, ticks := b.ticks + 1, mechanism, controller, queue, tracing }
    obtain ⟨hrc, hrp⟩ := lamp_refresh (tickTrial { b with
      lastTick := b.now, ticks := b.ticks + 1, mechanism, controller, queue, tracing }).value
    refine ⟨hrp.trans (congrArg Panel.lamp0 htp), ?_⟩
    rw [hrc, htc]
    cases hc with
    | rest | move => exact Or.inl ⟨levels, rfl⟩
    | reset h => exact Or.inr ⟨⟨hv, hd, h⟩, levels, rfl⟩
  · rw [value_tickIfDue_of_not hd]
    exact ⟨rfl, Or.inl ⟨b.controller.levels, rfl⟩⟩

/-- What a step does after the tick, when the trial refuses nothing. -/
theorem exists_after_step {c : ReferenceController} {status : Status}
    (hb : b.tickIfDue.value = b₁) (hv : b.verdict = none) (hw : b₁.controller.step.value = c)
    (hs : b.step.value.1 = .ok status) :
    ∃ b₂, (collect { b₁ with controller := c }).value = (none, b₂) ∧
      b.after .step = b₂.sendOutgoing.value := by
  generalize hc : (collect { b₁ with controller := c }).value = r
  obtain ⟨fault?, b₂⟩ := r
  cases fault? with
  | some fault =>
    have hslice : (Controller.step b₁.controller).value = (.running, c) := by rw [← hw]; rfl
    rw [step, hv, Logged.value_bind, hb, Logged.value_bind, hslice, Logged.value_bind, hc] at hs
    cases hs
  | none =>
    refine ⟨b₂, rfl, ?_⟩
    rw [after, value_step hv hb (by rw [hw]; exact hc) rfl]

/-- What a step makes of the lamp after the tick, when the trial refuses nothing. It is on only if
the controller knits after its slice of time. -/
theorem mirrors_after_step {c : ReferenceController} {status : Status}
    (hb : b.tickIfDue.value = b₁) (hv : b.verdict = none) (hw : b₁.controller.step.value = c)
    (hm : c.Mirrors b₁.panel.lamp0) (hs : b.step.value.1 = .ok status) :
    (b.after .step).controller.Mirrors (b.after .step).panel.lamp0 ∧
      ((b.after .step).panel.lamp0 = true → c.mode = .knitting) := by
  obtain ⟨b₂, hcol, ha⟩ := exists_after_step hb hv hw hs
  obtain ⟨hm₂, hl₂⟩ := mirrors_collect (b := { b₁ with controller := c }) hm hcol
  obtain ⟨hm₃, hp₃⟩ := mirrors_sendOutgoing hm₂
  rw [ha, hp₃, hl₂]
  rw [hl₂] at hm₃
  exact ⟨hm₃, of_decide_eq_true⟩

/-! ### A controller that is not spoken to -/

/-- A bench whose controller waits and is told nothing but lines, while lamp 0 shows `lit`. -/
structure Idles (b : Bench ReferenceController) (lit : Bool) : Prop where
  waits : Waits b.controller.model b.controller
  attached : Attached b.mechanism b.controller
  receiver_eq : b.controller.receiver = .empty
  trial : ∀ t, b.trial = some t → t.OnlyAnswers
  lamp0_eq : b.panel.lamp0 = lit

namespace Idles

theorem initial (s : Setup) (model : Model) (tracing : Bool) :
    ((assemble s (powerOn model)).setTracing tracing).Idles false := by
  have ha := (Wired.initial s model).toAttached
  rw [raiseLevels_eq] at ha
  have hc : ((assemble s (powerOn model)).setTracing tracing).controller =
      (powerOn model).seeing (Mechanism.initial s).levels := controller_assemble ..
  have ht : ((assemble s (powerOn model)).setTracing tracing).trial = none := rfl
  refine ⟨?_, ?_, ?_, fun t h => ?_, rfl⟩
  · rw [hc]
    exact ⟨rfl, rfl, rfl⟩
  · rw [hc]
    exact ha
  · rw [hc]
    rfl
  · rw [ht] at h
    cases h

theorem obeyNext (h : b.Idles lit) : b.obeyNext.value.Idles lit := by
  obtain ⟨m', c', queue, tracing, hv, -, hc⟩ := b.exists_value_obeyNext
  rw [hv]
  have hw := h.waits
  have ha := h.attached
  have hr := h.receiver_eq
  generalize b.mechanism = m at hc ha
  generalize b.controller = c at hc hw ha hr
  cases hc with
  | rest => exact ⟨hw, ha, hr, h.trial, h.lamp0_eq⟩
  | move d => exact ⟨⟨hw.outbox_eq, hw.mode_eq, rfl⟩, ha.move d, hr, h.trial, h.lamp0_eq⟩
  | reset => exact ⟨hw.reset, ha.reset, rfl, h.trial, h.lamp0_eq⟩

theorem tickTrial (h : b.Idles lit) : b.tickTrial.value.Idles lit := by
  cases ht : b.trial with
  | none =>
    rw [value_tickTrial_none ht]
    exact h
  | some t =>
    have hon := (h.trial t ht).tick b.mechanism
    generalize hp : (t.tick b.mechanism).value = p at hon
    obtain ⟨planned?, t'⟩ := p
    cases planned? with
    | none =>
      rw [value_tickTrial_rest ht hp]
      exact ⟨h.waits, h.attached, h.receiver_eq, fun u hu => Option.some.inj hu ▸ hon, h.lamp0_eq⟩
    | some d =>
      rw [value_tickTrial_move ht hp]
      refine ⟨⟨h.waits.outbox_eq, h.waits.mode_eq, rfl⟩, h.attached.move d, h.receiver_eq, ?_,
        h.lamp0_eq⟩
      exact fun u hu => Option.some.inj hu ▸ hon.congr (agrees_afterMove _ _)

theorem refresh (h : b.Idles lit) : b.refresh.value.Idles lit := by
  have hl := (b.lamp_refresh).2.trans h.lamp0_eq
  obtain ⟨panel, mechanism, hv, hm⟩ := b.exists_value_refresh
  rw [hv] at hl ⊢
  refine ⟨h.waits, ?_, h.receiver_eq, h.trial, hl⟩
  rcases hm with rfl | rfl
  · exact h.attached
  · exact h.attached.refreshed

theorem tickIfDue (h : b.Idles lit) : b.tickIfDue.value.Idles lit := by
  rcases b.value_tickIfDue_cases with ⟨lastTick, hv⟩ | ⟨lastTick, hv⟩
  · rw [hv]
    exact ⟨h.1, h.2, h.3, h.4, h.5⟩
  · rw [hv, value_tick]
    have h₀ : ({ b with lastTick, ticks := b.ticks + 1 } :
        Bench ReferenceController).Idles lit := ⟨h.1, h.2, h.3, h.4, h.5⟩
    exact h₀.obeyNext.tickTrial.refresh

/-- After the tick, the controller has nothing to say, and of the answers of the trial it takes no
notice. -/
theorem exchange (h : b₁.Idles lit) (hb : b.tickIfDue.value = b₁) (hv : b.verdict = none) :
    (b.after .step).Idles lit := by
  have hcol := h.waits.value_collect h.attached
  have hw := h.waits.sliced b₁.mechanism.hall
  obtain ⟨ms, hq⟩ := h.attached.queues
  have hr := (receiver_sliced hq b₁.mechanism.hall).trans h.receiver_eq
  have hans : ∃ t : Trial, ∀ m ∈ outgoing b₁.trial, ∃ line, m = t.answer line := by
    cases ht : b₁.trial with
    | none => exact ⟨.begin .standard {}, fun m hm => absurd hm List.not_mem_nil⟩
    | some t => exact ⟨t, (h.trial t ht).answers⟩
  obtain ⟨t, hans⟩ := hans
  have hfits : ∀ m ∈ outgoing b₁.trial, Wire.Fits m := by
    intro m hm
    obtain ⟨line, rfl⟩ := hans m hm
    exact Message.fits_cnfLine ..
  have htold := Conversing.told_answers hw.mode_ne _ hans
  obtain ⟨traffic, hs⟩ := exists_value_sendOutgoing (b := { b₁ with
    mechanism := b₁.mechanism.latch b₁.controller.worked.wantedRegister
    controller := b₁.controller.sliced b₁.mechanism.hall }) hfits hr
  rw [htold] at hs
  rw [after, value_step hv hb hcol hs]
  refine ⟨⟨hw.outbox_eq, hw.mode_eq, rfl⟩, h.attached.slice.toAttached, hr, ?_, h.lamp0_eq⟩
  intro u hu
  obtain ⟨t₁, ht₁, rfl⟩ := Option.map_eq_some_iff.mp hu
  exact ⟨(h.trial t₁ ht₁).stage_eq, fun m hm => absurd hm List.not_mem_nil⟩

theorem step (h : b.Idles lit) : (b.after .step).Idles lit := by
  cases hv : b.verdict with
  | some v =>
    rw [after, value_step_finished hv]
    exact h
  | none => exact h.tickIfDue.exchange rfl hv

/-- Nothing ever changes lamp 0 of such a bench. -/
theorem play (h : b.Idles lit) (inputs : List Input) : (b.play inputs).Idles lit := by
  induction inputs generalizing b with
  | nil => exact h
  | cons i inputs ih =>
    cases i with
    | step => exact ih h.step
    | cue cue =>
      obtain ⟨queue, hb, -⟩ := b.exists_after_cue cue
      refine ih (b := b.after (.cue cue)) ?_
      rw [hb]
      exact ⟨h.1, h.2, h.3, h.4, h.5⟩

theorem mode_ne (h : b.Idles lit) : b.controller.mode ≠ .knitting := h.waits.mode_ne

theorem collect (h : b.Idles lit) :
    b.collect.value.1 = none ∧ b.collect.value.2.panel.lamp0 = lit := by
  rw [value_collect_of_outbox_eq h.waits.outbox_eq]
  exact ⟨rfl, h.lamp0_eq⟩

end Idles

/-! ### A trial in conversation -/

theorem stage_heard (h : heard (some t) ms = .ok (some t')) (hs : t.stage = .knitting) :
    t'.stage = .knitting := by
  induction ms generalizing t with
  | nil =>
    cases h
    exact hs
  | cons m ms ih =>
    exact ih (heard_of_cons h) (stage_after_accept hs m)

/-- A trial in conversation, whose controller has told lamp 0 whether it knits. -/
structure Mirrored (b : Bench ReferenceController) (t : Trial) : Prop where
  talks : ∃ ms, Talks b t ms
  outgoing_eq : t.outgoing = []
  mirrors : b.controller.Mirrors b.panel.lamp0
  knitting : b.panel.lamp0 = true → t.stage = .knitting

/-- A controller that knits is in conversation with a trial that sweeps. -/
theorem Conversing.stage_eq {c : ReferenceController} (h : Conversing t c ms)
    (hm : c.mode = .knitting) : t.stage = .knitting := by
  cases h with
  | opening _ hi | calling _ hi | called _ _ _ hi | starting _ hi | forsaken _ hi =>
    rw [hm] at hi
    cases hi
  | requesting _ _ hs | waiting _ hs | answering hs | working hs => exact hs

namespace Mirrored

theorem initial (s : Setup) (model : Model) (o : TrialOptions) (tracing : Bool) :
    (((assemble s (powerOn model)).withTrial o).setTracing tracing).Mirrored (.begin s o) := by
  have hc : (((assemble s (powerOn model)).withTrial o).setTracing tracing).controller =
      (powerOn model).seeing (Mechanism.initial s).levels := controller_assemble ..
  refine ⟨⟨[], .initial s model o tracing⟩, rfl, ?_, nofun⟩
  rw [hc]
  exact ⟨rfl, rfl⟩

/-- The messages that wait at the controller are all taken when they are passed on. -/
theorem exists_value_collect (h : b.Mirrored t) : ∃ b₁, b.collect.value = (none, b₁) := by
  obtain ⟨ms, ht⟩ := h.talks
  obtain ⟨t', hh, -⟩ := ht.conversing.hear
  have hheard : heard b.trial
      (b.receiver.feed (b.controller.outbox.toList.filterMap Output.byte?)).1 = .ok (some t') := by
    rw [ht.queues.bytes_eq, ht.receiver_eq, Wire.Framer.feed_frames ht.conversing.fits, ht.trial_eq]
    exact hh
  obtain ⟨traffic, panel, hv⟩ := exists_value_passAllOn (b := { b with
    controller := { b.controller with outbox := #[] } }) _ hheard
  exact ⟨_, hv⟩

/-- A reset that is obeyed while the lamp is on: the controller waits again, and the lamp does not
hear of it. -/
theorem strike (h : b.Mirrored t) (hr : b.ResetsNext) (hl : b.panel.lamp0 = true) :
    (b.after .step).Idles true := by
  obtain ⟨ms, ht⟩ := h.talks
  have hstruck : (obeyNext { b with
      lastTick := b.now, ticks := b.ticks + 1 }).value.Idles true := by
    obtain ⟨queue, hv⟩ := exists_value_obeyNext_reset (b := { b with
      lastTick := b.now, ticks := b.ticks + 1 }) hr.oldest
    rw [hv]
    refine ⟨⟨rfl, rfl, rfl⟩, ht.attached.reset, rfl, fun u hu => ?_, hl⟩
    obtain rfl : t = u := Option.some.inj (ht.trial_eq.symm.trans hu)
    refine ⟨h.knitting hl, ?_⟩
    rw [h.outgoing_eq]
    exact nofun
  have hb := value_tickIfDue hr.due
  rw [value_tick] at hb
  exact hstruck.tickTrial.refresh.exchange hb hr.verdict_eq

/-- Any other step. -/
theorem step (h : b.Mirrored t) (hn : ¬ (b.ResetsNext ∧ b.panel.lamp0 = true)) :
    ∃ t', (b.after .step).Mirrored t' := by
  obtain ⟨ms, ht⟩ := h.talks
  cases hv : b.verdict with
  | some v =>
    rw [after, value_step_finished hv]
    exact ⟨t, h⟩
  | none =>
    obtain ⟨t₁, ms₁, ht₁⟩ := ht.tickIfDue h.outgoing_eq
    obtain ⟨hl, hc⟩ := lamp_tickIfDue hv
    generalize hb : b.tickIfDue.value = b₁ at ht₁ hl hc
    obtain ⟨ms₂, t₂, ms₃, hh, hs, -, ht₃⟩ := ht₁.exchange hb hv
    have hm₁ : b₁.controller.Mirrors b₁.panel.lamp0 := by
      rw [hl]
      rcases hc with ⟨levels, hc⟩ | ⟨hr, levels, hc⟩
      · rw [hc]
        exact h.mirrors.congr rfl rfl rfl
      · have hdark : b.panel.lamp0 = false := Bool.eq_false_iff.mpr fun hl => hn ⟨hr, hl⟩
        rw [hc, hdark]
        exact (Mirrors.reset b.controller).congr rfl rfl rfl
    obtain ⟨hm₃, hlit⟩ := mirrors_after_step hb hv rfl hm₁.step hs
    refine ⟨{ t₂ with outgoing := [] }, ⟨ms₃, ht₃⟩, rfl, hm₃, fun hl => ?_⟩
    -- No slice of time makes the controller knit: it did before, in conversation with the trial.
    have hk : b₁.controller.mode = .knitting := by
      have hmode := b₁.controller.mode_slice
      rw [ReferenceController.after] at hmode
      rcases hmode with hm | ⟨hk, -⟩
      · exact hm.symm.trans (hlit hl)
      · exact hk
    have hst : t₂.stage = .knitting := stage_heard hh (Conversing.stage_eq ht₁.conversing hk)
    exact hst

end Mirrored

/-- Whether in a schedule a reset is obeyed while lamp 0 is on. -/
def ResetLit (b : Bench ReferenceController) (inputs : List Input) : Prop :=
  ∃ before after, inputs = before ++ .step :: after ∧
    (b.play before).ResetsNext ∧ (b.play before).panel.lamp0 = true

theorem resetLit_cons (b : Bench ReferenceController) (i : Input) (inputs : List Input) :
    b.ResetLit (i :: inputs) ↔
      (i = .step ∧ b.ResetsNext ∧ b.panel.lamp0 = true) ∨ (b.after i).ResetLit inputs := by
  constructor
  · rintro ⟨before, after, hi, hr, hl⟩
    cases before with
    | nil =>
      obtain ⟨rfl, -⟩ := List.cons.inj hi
      exact Or.inl ⟨rfl, hr, hl⟩
    | cons j before =>
      obtain ⟨rfl, rfl⟩ := List.cons.inj hi
      exact Or.inr ⟨before, after, rfl, hr, hl⟩
  · rintro (⟨rfl, hr, hl⟩ | ⟨before, after, rfl, hr, hl⟩)
    · exact ⟨[], inputs, rfl, hr, hl⟩
    · exact ⟨i :: before, after, rfl, hr, hl⟩

/-- What a schedule makes of a trial in conversation. -/
theorem Mirrored.play (h : b.Mirrored t) (inputs : List Input) :
    b.ResetLit inputs ∧ (b.play inputs).Idles true ∨
      ¬ b.ResetLit inputs ∧ ∃ t', (b.play inputs).Mirrored t' := by
  induction inputs generalizing b t with
  | nil =>
    refine Or.inr ⟨?_, t, h⟩
    rintro ⟨before, after, hi, -⟩
    cases before <;> cases hi
  | cons i inputs ih =>
    rw [resetLit_cons]
    cases i with
    | cue cue =>
      obtain ⟨queue, hb, -⟩ := b.exists_after_cue cue
      have h' : (b.after (.cue cue)).Mirrored t := by
        obtain ⟨ms, ht⟩ := h.talks
        rw [hb]
        exact ⟨⟨ms, ht.1, ht.2, ht.3, ht.4, ht.5, ht.6⟩, h.outgoing_eq, h.mirrors, h.knitting⟩
      have hno : ¬ (Input.cue cue = .step ∧ b.ResetsNext ∧ b.panel.lamp0 = true) :=
        fun h => nomatch h.1
      rw [or_iff_right hno]
      exact ih h'
    | step =>
      by_cases hs : b.ResetsNext ∧ b.panel.lamp0 = true
      · exact Or.inl ⟨Or.inl ⟨rfl, hs⟩, (h.strike hs.1 hs.2).play inputs⟩
      · obtain ⟨t', h'⟩ := h.step hs
        have hno : ¬ (Input.step = .step ∧ b.ResetsNext ∧ b.panel.lamp0 = true) := fun h => hs h.2
        rw [or_iff_right hno]
        exact ih h'

/-- Whatever the operator does and at whatever moment, with a trial and without one: all that waits
at the controller is passed on without a fault, and lamp 0 then shows that the controller knits, or
that a reset has once been obeyed while the lamp was on. Both never come together, for after such a
reset the controller never knits again. -/
theorem lamp0_collect_play (s : Setup) (model : Model) (o? : Option TrialOptions) (tracing : Bool)
    (inputs : List Input) :
    let assembled := assemble s (powerOn model)
    let b₀ := (o?.elim assembled assembled.withTrial).setTracing tracing
    let b := b₀.play inputs
    b.collect.value.1 = none ∧
      (b.collect.value.2.panel.lamp0 = true ↔
        b.controller.mode = .knitting ∨ b₀.ResetLit inputs) ∧
      ¬ (b.controller.mode = .knitting ∧ b₀.ResetLit inputs) := by
  intro assembled b₀ b
  cases o? with
  | none =>
    have h : b₀.Idles false := Idles.initial s model tracing
    have hno : ¬ b₀.ResetLit inputs := by
      rintro ⟨before, after, -, -, hl⟩
      rw [(h.play before).lamp0_eq] at hl
      cases hl
    have hb := h.play inputs
    obtain ⟨hf, hl⟩ := hb.collect
    refine ⟨hf, ?_, fun hk => hno hk.2⟩
    rw [hl]
    exact iff_of_false Bool.false_ne_true fun hk => hk.elim hb.mode_ne hno
  | some o =>
    have h : b₀.Mirrored (.begin s o) := Mirrored.initial s model o tracing
    rcases h.play inputs with ⟨hr, hb⟩ | ⟨hno, t, hb⟩
    · obtain ⟨hf, hl⟩ := hb.collect
      refine ⟨hf, ?_, fun hk => hb.mode_ne hk.1⟩
      rw [hl]
      exact iff_of_true rfl (Or.inr hr)
    · obtain ⟨b₁, hc⟩ := hb.exists_value_collect
      obtain ⟨-, hl⟩ := mirrors_collect hb.mirrors hc
      refine ⟨congrArg Prod.fst hc, ?_, fun hk => hno hk.2⟩
      rw [hc, hl, decide_eq_true_eq]
      exact (or_iff_left hno).symm

/-- A schedule in which a trial has the controller knit, before a reset is obeyed. -/
def resetMidway : List Input :=
  List.replicate 8 .step ++ .cue ⟨.reset, 0⟩ :: List.replicate 3 .step

theorem lamp0_stays_on :
    let b := ((assemble .standard (powerOn .kh910)).withTrial {}).play resetMidway
    b.controller.mode = .idle ∧ b.collect.value.2.panel.lamp0 = true := by
  have ho : (((assemble .standard (powerOn .kh910)).withTrial {}).play
      resetMidway).controller.outbox = #[] := by decide +kernel
  refine ⟨by decide +kernel, ?_⟩
  rw [value_collect_of_outbox_eq ho]
  decide +kernel

end Bench

end KnitBench
