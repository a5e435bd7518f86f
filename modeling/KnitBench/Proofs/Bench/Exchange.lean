import KnitBench.Bench.Run
import KnitBench.Proofs.Trial.Talk
import KnitBench.Proofs.Wiring

/-! One step of a bench with the reference controller, from the tick on: what the controller has put
out reaches mechanism and trial, and what the trial has to send reaches the controller. -/

namespace KnitBench.Bench

open ReferenceController

variable {b : Bench ReferenceController} {c : ReferenceController} {model : Model}
  {os : List Output} {ms : List (List UInt8)} {t? : Option Trial}

theorem controller_assemble (s : Setup) (c : ReferenceController) :
    (assemble s c).controller = c.seeing (Mechanism.initial s).levels := raiseLevels_eq ..

/-- The trial after it has taken messages, if there is a trial and it refuses none. -/
def heard : Option Trial → List (List UInt8) → Except ProtocolFault (Option Trial)
  | t?, [] => .ok t?
  | none, _ :: rest => heard none rest
  | some t, m :: rest =>
    match (t.accept m).value with
    | .ok t => heard (some t) rest
    | .error fault => .error fault

@[simp] theorem heard_nil (t? : Option Trial) : heard t? [] = .ok t? := by
  cases t? <;> rfl

/-- When no message is refused, those behind the first one are heard by the trial after it. -/
theorem heard_of_cons {t : Trial} {m : List UInt8} (h : heard (some t) (m :: ms) = .ok t?) :
    heard (some (t.hear m).value.2) ms = .ok t? := by
  rw [heard, Trial.value_accept] at h
  cases ha : (t.hear m).value.1 with
  | ok =>
    rw [ha] at h
    exact h
  | error fault =>
    rw [ha] at h
    cases h

theorem value_record (b : Bench ReferenceController) (heading : Heading) (m : List UInt8) :
    (b.record heading m).value = { b with traffic := b.traffic.record heading m } := by
  unfold record
  split <;> rfl

/-- A message that the trial does not refuse goes on to the next. -/
theorem exists_value_consult {m : List UInt8} (h : heard b.trial (m :: ms) = .ok t?) :
    ∃ u?, (b.consult m).value = (none, { b with trial := u? }) ∧ heard u? ms = .ok t? := by
  unfold consult
  cases ht : b.trial with
  | none =>
    have hb : b = { b with trial := none } := by rw [← ht]
    rw [ht] at h
    exact ⟨none, congrArg (Prod.mk none) hb, h⟩
  | some t =>
    rw [ht, heard, Trial.value_accept] at h
    simp only [Logged.value_bind]
    generalize (t.hear m).value = r at h ⊢
    obtain ⟨answer, u⟩ := r
    cases answer with
    | ok => exact ⟨some u, rfl, h⟩
    | error fault => cases h

/-- Outputs are all passed on when the first one is, and then those behind it. -/
theorem passAllOn_cons_iff {b₂ : Bench ReferenceController} {o : Output} :
    (passAllOn (o :: os) b).value = (none, b₂) ↔
      ∃ b₁, (b.passOn o).value = (none, b₁) ∧ (passAllOn os b₁).value = (none, b₂) := by
  rw [passAllOn, Logged.value_bind]
  generalize (b.passOn o).value = r
  obtain ⟨fault?, b'⟩ := r
  cases fault? with
  | some fault =>
    constructor
    · intro h
      cases h
    · rintro ⟨b₁, h, -⟩
      cases h
  | none =>
    constructor
    · intro h
      exact ⟨b', rfl, h⟩
    · rintro ⟨b₁, h, h'⟩
      cases h
      exact h'

/-- An output that goes to the mechanism or measures it changes nothing else. -/
theorem value_passOn_of_drives (b : Bench ReferenceController) {o : Output} (h : o.drives = true) :
    (b.passOn o).value = (none, { b with
      mechanism := b.mechanism.latch (o.latch b.mechanism.register)
      controller := { b.controller with
        hall := o.sample b.mechanism.hall b.controller.hall } }) := by
  cases o with
  | solenoids r => rfl
  | convert channel =>
    simp only [passOn, Output.sample]
    by_cases hr : channel = rightChannel
    · subst hr
      rfl
    · rw [if_neg hr, if_neg hr]
      by_cases hl : channel = leftChannel
      · subst hl
        rfl
      · rw [if_neg hl, if_neg hl]
        rfl
  | serial | beeper | lamp => cases h

/-- Outputs that go to the mechanism or measure it do not show in traffic and indicators. -/
theorem value_passAllOn_of_drives (h : ∀ o ∈ os, o.drives = true) :
    (passAllOn os b).value = (none, { b with
      mechanism := b.mechanism.latch (os.foldl Output.latch b.mechanism.register)
      controller := { b.controller with
        hall := os.foldl (Output.sample b.mechanism.hall) b.controller.hall } }) := by
  induction os generalizing b with
  | nil => rfl
  | cons o os ih =>
    rw [passAllOn, Logged.value_bind, value_passOn_of_drives b (h o List.mem_cons_self)]
    exact ih fun o ho => h o (List.mem_cons_of_mem _ ho)

/-- Passing outputs on comes to this, when the trial refuses nothing. -/
theorem exists_value_passAllOn (os : List Output)
    (h : heard b.trial (b.receiver.feed (os.filterMap Output.byte?)).1 = .ok t?) :
    ∃ traffic panel, (passAllOn os b).value = (none, { b with
      mechanism := b.mechanism.latch (os.foldl Output.latch b.mechanism.register)
      controller := { b.controller with
        hall := os.foldl (Output.sample b.mechanism.hall) b.controller.hall }
      receiver := (b.receiver.feed (os.filterMap Output.byte?)).2
      trial := t?
      traffic, panel }) := by
  induction os generalizing b with
  | nil =>
    obtain rfl : b.trial = t? := by simpa using h
    exact ⟨b.traffic, b.panel, rfl⟩
  | cons o os ih =>
    cases o with
    | solenoids | convert =>
      rw [passAllOn, Logged.value_bind, value_passOn_of_drives b rfl]
      exact ih h
    | serial byte =>
      have hb : (Output.serial byte :: os).filterMap Output.byte? =
          byte :: os.filterMap Output.byte? := rfl
      rw [hb, Wire.Framer.feed_cons] at h ⊢
      simp only [passAllOn, passOn, Logged.value_bind]
      cases hp : b.receiver.push byte with
      | mk message? receiver =>
        rw [hp] at h
        cases message? with
        | none => exact ih (b := { b with receiver }) h
        | some m =>
          simp only [Option.toList_some, List.singleton_append] at h
          simp only [Logged.value_bind, value_record]
          obtain ⟨u?, hc, hu⟩ := exists_value_consult (b := { b with
            receiver, traffic := b.traffic.record .fromDevice m }) h
          rw [hc]
          exact ih (b := { b with
            receiver, traffic := b.traffic.record .fromDevice m, trial := u? }) hu
    | beeper duty => exact ih (b := { b with panel := b.panel.beep duty }) h
    | lamp index on => exact ih (b := { b with panel := b.panel.setLamp index on }) h

/-- What a slice of the controller's time makes of a bench. -/
theorem exists_value_collect (ha : Attached b.mechanism b.controller) (hr : b.receiver = .empty)
    (hq : b.controller.worked.Queues ms) (hf : ∀ m ∈ ms, Wire.Fits m)
    (hh : heard b.trial ms = .ok t?) :
    ∃ traffic panel,
      ({ b with controller := b.controller.step.value } : Bench ReferenceController).collect.value =
        (none, { b with
          mechanism := b.mechanism.latch b.controller.worked.wantedRegister
          controller := b.controller.sliced b.mechanism.hall
          trial := t?
          traffic, panel }) := by
  obtain ⟨ms₀, hq₀⟩ := ha.queues
  have hfeed : b.receiver.feed (b.controller.step.value.outbox.toList.filterMap Output.byte?) =
      (ms, .empty) := by
    rw [filterMap_byte_step hq, hr, Wire.Framer.feed_frames hf]
  have hheard : heard b.trial
      (b.receiver.feed (b.controller.step.value.outbox.toList.filterMap Output.byte?)).1 =
        .ok t? := by
    rw [hfeed]
    exact hh
  obtain ⟨traffic, panel, hv⟩ := exists_value_passAllOn (b := { b with
    controller := { b.controller.step.value with outbox := #[] } }) _ hheard
  refine ⟨traffic, panel, ?_⟩
  refine hv.trans ?_
  dsimp only
  rw [hfeed, foldl_latch_step hq₀ ha.register_eq, foldl_sample_step hq₀, ← sliced_eq, ← hr]

/-- What sending messages to the controller makes of a bench. -/
theorem exists_value_sendAll (hf : ∀ m ∈ ms, Wire.Fits m) (hc : b.controller.receiver = .empty) :
    ∃ traffic, (sendAll ms b).value =
      { b with controller := b.controller.told ms, traffic } := by
  induction ms generalizing b with
  | nil => exact ⟨b.traffic, rfl⟩
  | cons m ms ih =>
    simp only [sendAll, Logged.value_bind, value_record]
    rw [receiveAll_frame (hf m (by simp)) hc]
    exact ih (b := { b with
      controller := (b.controller.onMessage m).value
      traffic := b.traffic.record .toDevice m }) (fun m hm => hf m (by simp [hm]))
      ((answers_onMessage b.controller m).receiver_eq.trans hc)

/-- The messages that a trial has to send, if there is a trial. -/
def outgoing (t? : Option Trial) : List (List UInt8) := (t?.map Trial.outgoing).getD []

@[simp] theorem outgoing_some (t : Trial) : outgoing (some t) = t.outgoing := rfl

theorem value_sendOutgoing_none (h : b.trial = none) : b.sendOutgoing.value = b := by
  unfold sendOutgoing
  rw [h]
  rfl

/-- What sending all that there is to send makes of a bench. -/
theorem exists_value_sendOutgoing (hf : ∀ m ∈ outgoing b.trial, Wire.Fits m)
    (hc : b.controller.receiver = .empty) :
    ∃ traffic, b.sendOutgoing.value = { b with
      controller := b.controller.told (outgoing b.trial)
      trial := b.trial.map fun t => { t with outgoing := [] }
      traffic } := by
  unfold sendOutgoing
  cases ht : b.trial with
  | none =>
    have hb : b = { b with trial := none } := by rw [← ht]
    exact ⟨b.traffic, hb⟩
  | some t =>
    rw [ht] at hf
    exact exists_value_sendAll (b := { b with trial := some { t with outgoing := [] } }) hf hc

/-- How a step ends. -/
def ending (verdict : Option Trial.Verdict) : Status := verdict.elim .running .finished

/-- With a verdict nothing happens any more. -/
theorem value_step_finished {v : Trial.Verdict} (hv : b.verdict = some v) :
    b.step.value = (.ok (.finished v), b) := by
  unfold step
  rw [hv]
  rfl

theorem value_step {b₁ b₂ b₃ : Bench ReferenceController} (hv : b.verdict = none)
    (hb : b.tickIfDue.value = b₁)
    (hc : (collect { b₁ with controller := b₁.controller.step.value }).value = (none, b₂))
    (hs : b₂.sendOutgoing.value = b₃) : b.step.value = (.ok (ending b₃.verdict), b₃) := by
  have hw : (Controller.step b₁.controller).value = (.running, b₁.controller.step.value) := rfl
  rw [step, hv, Logged.value_bind, hb, Logged.value_bind, hw]
  rw [Logged.value_bind, hc]
  dsimp only
  rw [Logged.value_bind, hs]
  cases b₃.verdict <;> rfl

/-- One step: the tick, if it is due, a slice of the controller's time, then what the controller has
to say reaches the trial, and what the trial has to say reaches the controller. -/
theorem exists_value_step {b₁ : Bench ReferenceController} (hb : b.tickIfDue.value = b₁)
    (hv : b.verdict = none) (ha : Attached b₁.mechanism b₁.controller) (hr : b₁.receiver = .empty)
    (hc : b₁.controller.receiver = .empty) (hq : b₁.controller.worked.Queues ms)
    (hf : ∀ m ∈ ms, Wire.Fits m) (hh : heard b₁.trial ms = .ok t?)
    (hf' : ∀ m ∈ outgoing t?, Wire.Fits m) :
    ∃ traffic panel, b.step.value = (.ok (ending b₁.verdict), { b₁ with
      mechanism := b₁.mechanism.latch b₁.controller.worked.wantedRegister
      controller := (b₁.controller.sliced b₁.mechanism.hall).told (outgoing t?)
      trial := t?.map fun t => { t with outgoing := [] }
      traffic, panel }) := by
  obtain ⟨traffic, panel, hcol⟩ := exists_value_collect ha hr hq hf hh
  obtain ⟨ms₀, hq₀⟩ := ha.queues
  obtain ⟨traffic', hs⟩ := exists_value_sendOutgoing (b := { b₁ with
    mechanism := b₁.mechanism.latch b₁.controller.worked.wantedRegister
    controller := b₁.controller.sliced b₁.mechanism.hall
    trial := t?, traffic, panel }) hf' ((receiver_sliced hq₀ _).trans hc)
  exact ⟨traffic', panel, value_step hv hb hcol hs⟩

/-- The controller has not been spoken to: it waits, and has nothing to tell. -/
structure Waits (model : Model) (c : ReferenceController) : Prop where
  outbox_eq : c.outbox = #[]
  mode_eq : c.mode = .idle
  model_eq : c.model = model

namespace Waits

theorem mode_ne (h : Waits model c) : c.mode ≠ .knitting := by
  rw [h.mode_eq]
  decide

/-- No solenoid is to be powered. -/
theorem wantedRegister_eq (h : Waits model c) :
    c.worked.wantedRegister = model.idleRegister := by
  have hm : c.tracked.mode = .idle := h.mode_eq
  rw [worked_of_mode_ne h.mode_ne, wantedRegister, hm, ← h.model_eq]
  rfl

theorem sliced (h : Waits model c) (hall : HallReading) : Waits model (c.sliced hall) := by
  rw [ReferenceController.sliced, worked_of_mode_ne h.mode_ne]
  exact ⟨rfl, h.mode_eq, h.model_eq⟩

theorem reset (h : Waits model c) : Waits model c.reset.value := ⟨rfl, rfl, h.model_eq⟩

/-- Nothing is put out but what drives the mechanism. -/
theorem drives_step (h : Waits model c) {o : Output} (ho : o ∈ c.step.value.outbox.toList) :
    o.drives = true := by
  obtain ⟨os, hos, hs⟩ := c.exists_value_step
  have hw : c.worked.outbox = #[] := by
    rw [worked_of_mode_ne h.mode_ne]
    exact h.outbox_eq
  rw [hs, hw] at ho
  rcases hos with ⟨rfl, -⟩ | rfl <;> simp at ho
  · rcases ho with rfl | rfl <;> rfl
  · rcases ho with rfl | rfl | rfl <;> rfl

/-- What a slice of time makes of the bench. -/
theorem value_collect (h : Waits model b.controller) (ha : Attached b.mechanism b.controller) :
    ({ b with controller := b.controller.step.value } : Bench ReferenceController).collect.value =
      (none, { b with
        mechanism := b.mechanism.latch b.controller.worked.wantedRegister
        controller := b.controller.sliced b.mechanism.hall }) := by
  obtain ⟨ms, hq⟩ := ha.queues
  refine (value_passAllOn_of_drives (b := { b with
    controller := { b.controller.step.value with outbox := #[] } })
    fun o => h.drives_step).trans ?_
  dsimp only
  rw [foldl_latch_step hq ha.register_eq, foldl_sample_step hq, ← sliced_eq]

end Waits

end KnitBench.Bench
