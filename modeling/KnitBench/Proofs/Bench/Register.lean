import KnitBench.Proofs.Bench.Lamp
import KnitBench.Proofs.Bench.Pace

/-! The register on the solenoids. The reference controller keeps what it has put out last, and puts
out only what differs from it. Nothing is lost by that: what the controller wants on the solenoids
is there, as if it were put out with every slice of time. -/

namespace KnitBench

/-- A controller with another way to work for a slice of time. -/
@[reducible] def Controller.withStep {σ : Type} (i : Controller σ) (f : σ → Logged (Activity × σ)) :
    Controller σ := { i with step := f }

/-- The register that an output puts on the solenoids, if it does. -/
def Output.register? : Output → Option Register
  | .solenoids r => some r
  | .convert _ | .serial _ | .beeper _ | .lamp .. => none

namespace ReferenceController

variable (c : ReferenceController)

/-- Puts out what belongs on the solenoids, whether it is there or not. -/
def driveAlways : ReferenceController :=
  { c with register := some c.wantedRegister }.emit (.solenoids c.wantedRegister)

/-- A slice of time with which the register is put out in any case. -/
def stepEagerly : Logged ReferenceController := do
  let tracker ← c.tracker.track c.model c.levels c.hall
  let c ← { c with cycle := c.cycle + cyclesPerStep, tracker }.workLine
  return (c.driveAlways.emit (.convert rightChannel)).emit (.convert leftChannel)

/-- The reference controller, were it to put out its register with every slice of time. -/
@[reducible] def eager : Controller ReferenceController :=
  .withStep inferInstance fun c => do return (.running, ← c.stepEagerly)

theorem value_stepEagerly :
    c.stepEagerly.value = { c.worked with
      register := some c.worked.wantedRegister
      outbox := c.worked.outbox ++ [Output.solenoids c.worked.wantedRegister,
        .convert rightChannel, .convert leftChannel] } := by
  have hv : c.stepEagerly.value = (c.worked.driveAlways.emit (.convert rightChannel)).emit
      (.convert leftChannel) := rfl
  rw [hv, driveAlways]
  simp [emit]

end ReferenceController

namespace Bench

section Instances

variable {σ : Type} (i : Controller σ) (f : σ → Logged (Activity × σ)) (b : Bench σ)

/-! How a controller works for a slice of time is no matter of the rest of a step. -/

theorem receiveAll_withStep (bytes : List UInt8) (c : σ) :
    @Controller.receiveAll σ (i.withStep f) bytes c = @Controller.receiveAll σ i bytes c := by
  induction bytes generalizing c with
  | nil => rfl
  | cons byte bytes ih => exact congrArg (i.receive byte c >>= ·) (funext ih)

theorem passAllOn_withStep (os : List Output) :
    @passAllOn σ (i.withStep f) os b = @passAllOn σ i os b := by
  induction os generalizing b with
  | nil => rfl
  | cons o os ih =>
    refine congrArg (@passOn σ i b o >>= ·) (funext fun r => ?_)
    obtain ⟨fault?, b'⟩ := r
    cases fault? with
    | none => exact ih b'
    | some fault => rfl

theorem sendAll_withStep (messages : List (List UInt8)) :
    @sendAll σ (i.withStep f) messages b = @sendAll σ i messages b := by
  induction messages generalizing b with
  | nil => rfl
  | cons message messages ih =>
    simp only [sendAll, receiveAll_withStep]
    refine congrArg (@Controller.receiveAll σ i _ _ >>= ·) (funext fun c => ?_)
    exact congrArg (@record σ i _ _ _ >>= ·) (funext ih)

theorem given_cue_withStep (cue : Cue) :
    @given σ (i.withStep f) b (.cue cue) = @given σ i b (.cue cue) := rfl

theorem tickIfDue_withStep : @tickIfDue σ (i.withStep f) b = @tickIfDue σ i b := rfl

theorem collect_withStep : @collect σ (i.withStep f) b = @collect σ i b :=
  passAllOn_withStep ..

theorem sendOutgoing_withStep : @sendOutgoing σ (i.withStep f) b = @sendOutgoing σ i b := by
  cases ht : b.trial with
  | none => simp only [sendOutgoing, ht]
  | some t =>
    simp only [sendOutgoing, ht]
    exact sendAll_withStep ..

/-- A step does the same when what its slice has put out is passed on to the same end. -/
theorem value_step_withStep {b₁ b₂ : Bench σ} {activity : Activity} {c c' : σ}
    (hv : b.verdict = none) (hb : (@tickIfDue σ i b).value = b₁)
    (hf : (f b₁.controller).value = (activity, c))
    (hi : (i.step b₁.controller).value = (activity, c'))
    (hc : (@collect σ i { b₁ with controller := c }).value = (none, b₂))
    (hc' : (@collect σ i { b₁ with controller := c' }).value = (none, b₂)) :
    (@step σ (i.withStep f) b).value = (@step σ i b).value := by
  have hf' : (@Controller.step σ (i.withStep f) b₁.controller).value = (activity, c) := hf
  simp only [step, hv, Logged.value_bind, tickIfDue_withStep, collect_withStep, hb, hf', hi, hc,
    hc', sendOutgoing_withStep]

end Instances

open ReferenceController

variable {b b₁ b₂ : Bench ReferenceController} {c : ReferenceController} {os os' : List Output}
  {ms : List (List UInt8)} {r : Register} {inputs : List Input}

/-! ### What is passed on -/

/-- Of the mechanism, an output changes what is on the solenoids. -/
theorem mechanism_passOn (b : Bench ReferenceController) (o : Output) :
    (b.passOn o).value.2.mechanism = b.mechanism.latch (o.latch b.mechanism.register) := by
  cases o with
  | solenoids | convert => rw [value_passOn_of_drives b rfl]
  | beeper | lamp => rfl
  | serial byte =>
    unfold passOn
    dsimp only
    split
    · rfl
    · rename_i message receiver _
      rw [Logged.value_bind, value_record, consult]
      split
      · rfl
      · rename_i t _
        rw [Logged.value_bind]
        dsimp only
        split <;> rfl

theorem mechanism_passAllOn (h : (passAllOn os b).value = (none, b₁)) :
    b₁.mechanism = b.mechanism.latch (os.foldl Output.latch b.mechanism.register) := by
  induction os generalizing b with
  | nil =>
    cases h
    rfl
  | cons o os ih =>
    obtain ⟨b', ho, hos⟩ := passAllOn_cons_iff.mp h
    have hm := b.mechanism_passOn o
    rw [ho] at hm
    dsimp only at hm
    rw [ih hos, hm]
    rfl

/-- Outputs are passed on without a fault, one part after the other. -/
theorem passAllOn_append_iff :
    (passAllOn (os ++ os') b).value = (none, b₂) ↔
      ∃ b₁, (passAllOn os b).value = (none, b₁) ∧ (passAllOn os' b₁).value = (none, b₂) := by
  induction os generalizing b with
  | nil =>
    constructor
    · intro h
      exact ⟨b, rfl, h⟩
    · rintro ⟨b₁, h, h'⟩
      cases h
      exact h'
  | cons o os ih =>
    rw [List.cons_append]
    constructor
    · intro h
      obtain ⟨b', ho, hrest⟩ := passAllOn_cons_iff.mp h
      obtain ⟨b₁, hos, hos'⟩ := ih.mp hrest
      exact ⟨b₁, passAllOn_cons_iff.mpr ⟨b', ho, hos⟩, hos'⟩
    · rintro ⟨b₁, h, hos'⟩
      obtain ⟨b', ho, hos⟩ := passAllOn_cons_iff.mp h
      exact passAllOn_cons_iff.mpr ⟨b', ho, ih.mpr ⟨b₁, hos, hos'⟩⟩

/-- Collecting is passing on all that waits. -/
theorem value_collect (b : Bench ReferenceController) (c : ReferenceController) :
    (collect { b with controller := c }).value =
      (passAllOn c.outbox.toList { b with controller := { c with outbox := #[] } }).value := rfl

/-- What has been collected is on the solenoids. -/
theorem register_collect (h : (collect { b with controller := c }).value = (none, b₂)) :
    b₂.mechanism.register = c.outbox.toList.foldl Output.latch b.mechanism.register ∧
      b₂.controller.register = c.register := by
  rw [value_collect] at h
  obtain ⟨hall, hc, -⟩ := lamp_passAllOn _ (congrArg Prod.fst h)
  rw [h] at hc
  rw [mechanism_passAllOn h, hc]
  exact ⟨rfl, rfl⟩

/-- A register that is on the solenoids already may be put out once more. -/
theorem value_passAllOn_solenoids (h : b.mechanism.register = r) (os : List Output) :
    (passAllOn (.solenoids r :: os) b).value = (passAllOn os b).value := by
  have hb : { b with mechanism := b.mechanism.latch r } = b := by
    rw [← h]
    rfl
  rw [passAllOn, Logged.value_bind]
  change (passAllOn os { b with mechanism := b.mechanism.latch r }).value = _
  rw [hb]

/-- Messages to the controller do not reach the solenoids. -/
theorem register_sendAll (messages : List (List UInt8)) (b : Bench ReferenceController) :
    (sendAll messages b).value.mechanism = b.mechanism ∧
      (sendAll messages b).value.controller.register = b.controller.register := by
  induction messages generalizing b with
  | nil => exact ⟨rfl, rfl⟩
  | cons message messages ih =>
    simp only [sendAll, Logged.value_bind, value_record]
    obtain ⟨hm, hr⟩ := ih { b with
      controller := (Controller.receiveAll (Wire.frame message) b.controller).value
      traffic := b.traffic.record .toDevice message }
    exact ⟨hm, hr.trans (register_receiveAll b.controller _)⟩

theorem register_sendOutgoing (b : Bench ReferenceController) :
    b.sendOutgoing.value.mechanism = b.mechanism ∧
      b.sendOutgoing.value.controller.register = b.controller.register := by
  unfold sendOutgoing
  split
  · exact ⟨rfl, rfl⟩
  · exact register_sendAll _ { b with trial := _ }

/-! ### What the controller puts out -/

/-- Work on the line does not reach the solenoids. -/
theorem register_worked (c : ReferenceController) : c.worked.register = c.register := by
  obtain ⟨mode, line, lamp0, lamp1, outbox, hw⟩ := exists_workLine c.tracked
  rw [worked, hw]
  rfl

/-- What goes to the solenoids in a slice: the register that is wanted, if it has changed. -/
theorem filterMap_register_step (hq : c.Queues ms) :
    c.step.value.outbox.toList.filterMap Output.register? =
      if c.register = some c.worked.wantedRegister then [] else [c.worked.wantedRegister] := by
  obtain ⟨mode, line, lamp0, lamp1, outbox, ms', hw, hq'⟩ := exists_worked hq
  have hnone : c.worked.outbox.toList.filterMap Output.register? = [] := by
    refine List.filterMap_eq_nil_iff.mpr fun o ho => ?_
    have hd := hq'.drives_eq o ho
    cases o with
    | solenoids => cases hd
    | convert | serial | beeper | lamp => rfl
  have hv : c.step.value = (c.worked.driveSolenoids.emit (.convert rightChannel)).emit
      (.convert leftChannel) := rfl
  rw [hv, driveSolenoids, register_worked]
  by_cases hr : c.register = some c.worked.wantedRegister
  · simp [emit, hr, hnone, Output.register?]
  · simp [emit, hr, hnone, Output.register?]

/-- What an eager slice puts out, and what a slice puts out as it is, is passed on to the same end:
what the eager one puts out besides is on the solenoids already. -/
theorem value_collect_eager (ha : Attached b.mechanism b.controller)
    (hc : (collect { b with controller := b.controller.step.value }).value = (none, b₂)) :
    (collect { b with controller := b.controller.stepEagerly.value }).value = (none, b₂) := by
  obtain ⟨ms, hq⟩ := ha.queues
  obtain ⟨mode, line, lamp0, lamp1, outbox, ms', hw, hq'⟩ := exists_worked hq
  obtain ⟨os, hos, hs⟩ := b.controller.exists_value_step
  have he := b.controller.value_stepEagerly
  rw [value_collect, hs] at hc
  rw [value_collect, he]
  rcases hos with ⟨rfl, hreg⟩ | rfl
  · simp only [Array.toList_appendList, List.nil_append] at hc ⊢
    obtain ⟨b₁, hfirst, hrest⟩ := passAllOn_append_iff.mp hc
    refine passAllOn_append_iff.mpr ⟨b₁, hfirst, ?_⟩
    rw [← hrest]
    refine value_passAllOn_solenoids ?_ _
    rw [mechanism_passAllOn hfirst, Mechanism.register_latch]
    refine (Carries.foldl_latch hq').trans (ha.register_eq _ ?_)
    exact (register_worked _).symm.trans hreg
  · exact hc

/-! ### A step -/

/-- A bench on which nobody finds fault: its controller has not been spoken to, or a trial is in
conversation with it. -/
inductive Serves (b : Bench ReferenceController) : Prop
  | idles (lit : Bool) (h : b.Idles lit)
  | talks (t : Trial) (ms : List (List UInt8)) (ho : t.outgoing = []) (h : Talks b t ms)

namespace Serves

theorem initial (s : Setup) (model : Model) (o? : Option TrialOptions) (tracing : Bool) :
    let assembled := assemble s (powerOn model)
    ((o?.elim assembled assembled.withTrial).setTracing tracing).Serves := by
  cases o? with
  | none => exact .idles false (.initial s model tracing)
  | some o => exact .talks (.begin s o) [] rfl (.initial s model o tracing)

theorem play (h : b.Serves) (inputs : List Input) : (b.play inputs).Serves := by
  cases h with
  | idles lit h => exact .idles lit (h.play inputs)
  | talks t ms ho h =>
    obtain ⟨t', ms', ho', h'⟩ := h.play ho inputs
    exact .talks t' ms' ho' h'

theorem after (h : b.Serves) (i : Input) : (b.after i).Serves := h.play [i]

/-- From the tick on, a step passes on without a fault what the slice has put out. -/
theorem exchange (h : b.Serves) (hb : b.tickIfDue.value = b₁) (hv : b.verdict = none) :
    Attached b₁.mechanism b₁.controller ∧
      ∃ b₂, (collect { b₁ with controller := b₁.controller.step.value }).value = (none, b₂) ∧
        b.after .step = b₂.sendOutgoing.value := by
  cases h with
  | idles lit h =>
    have h' := h.tickIfDue
    rw [hb] at h'
    have hc := h'.waits.value_collect h'.attached
    exact ⟨h'.attached, _, hc, by rw [Bench.after, value_step hv hb hc rfl]⟩
  | talks t ms ho h =>
    obtain ⟨t', ms', h'⟩ := h.tickIfDue ho
    rw [hb] at h'
    obtain ⟨-, -, -, -, hs, -, -⟩ := h'.exchange hb hv
    exact ⟨h'.attached, exists_after_step hb hv rfl hs⟩

/-- After the step, what the controller has wanted on the solenoids is there, and the controller
keeps it to tell. -/
theorem register_step (h : b.Serves) (hv : b.verdict = none) :
    (b.after .step).mechanism.register = b.tickIfDue.value.controller.worked.wantedRegister ∧
      (b.after .step).controller.register =
        some b.tickIfDue.value.controller.worked.wantedRegister := by
  obtain ⟨ha, b₂, hc, hafter⟩ := h.exchange rfl hv
  generalize b.tickIfDue.value = b₁ at ha hc ⊢
  obtain ⟨ms, hq⟩ := ha.queues
  obtain ⟨os, -, hs⟩ := b₁.controller.exists_value_step
  obtain ⟨hm, hr⟩ := register_collect hc
  obtain ⟨hm', hr'⟩ := b₂.register_sendOutgoing
  rw [hafter, hm', hr', hm, hr]
  exact ⟨foldl_latch_step hq ha.register_eq, by rw [hs]⟩

/-- A step with an eager slice does the same. -/
theorem value_step_eager (h : b.Serves) :
    (@step ReferenceController eager b).value = b.step.value := by
  cases hv : b.verdict with
  | some v =>
    rw [value_step_finished hv]
    unfold step
    rw [hv]
    rfl
  | none =>
    obtain ⟨ha, b₂, hc, -⟩ := h.exchange rfl hv
    exact value_step_withStep _ _ b hv rfl rfl rfl (value_collect_eager ha hc) hc

end Serves

/-! ### Runs -/

/-- The bench after several inputs, were the controller to put out its register with every slice. -/
def playEagerly (b : Bench ReferenceController) (inputs : List Input) : Bench ReferenceController :=
  @giveAll ReferenceController eager b inputs

theorem Serves.playEagerly_eq (h : b.Serves) (inputs : List Input) :
    b.playEagerly inputs = b.play inputs := by
  induction inputs generalizing b with
  -- Both sides are the bench itself. To compare them directly is to compare both slices of time.
  | nil => exact Eq.refl b
  | cons i inputs ih =>
    have hi : @given ReferenceController eager b i = b.after i := by
      cases i with
      | cue cue => exact given_cue_withStep ..
      | step => exact congrArg Prod.snd h.value_step_eager
    have hgive := @giveAll_cons ReferenceController eager b i inputs
    rw [playEagerly, hgive, hi]
    exact ih (h.after i)

/-- What the slice of the next step puts out for the solenoids. -/
def puts (b : Bench ReferenceController) : List Register :=
  match b.verdict with
  | some _ => []
  | none => b.tickIfDue.value.controller.step.value.outbox.toList.filterMap Output.register?

/-- All that is put out for the solenoids in a schedule. -/
def written (b : Bench ReferenceController) : List Input → List Register
  | [] => []
  | .cue cue :: inputs => (b.after (.cue cue)).written inputs
  | .step :: inputs => b.puts ++ (b.after .step).written inputs

/-- Whether in a schedule a reset is obeyed. -/
def Resets (b : Bench ReferenceController) (inputs : List Input) : Prop :=
  ∃ before after, inputs = before ++ .step :: after ∧ (b.play before).ResetsNext

theorem resets_cons {i : Input} (h : (b.after i).Resets inputs) : b.Resets (i :: inputs) := by
  obtain ⟨before, after, rfl, hr⟩ := h
  exact ⟨i :: before, after, rfl, hr⟩

theorem resets_of_resetsNext (h : b.ResetsNext) : b.Resets (.step :: inputs) :=
  ⟨[], inputs, rfl, h⟩

/-- Until the slice, a step that obeys no reset leaves the controller what it has to tell. -/
theorem register_tickIfDue (hv : b.verdict = none) (hr : ¬ b.ResetsNext) :
    b.tickIfDue.value.controller.register = b.controller.register := by
  obtain ⟨-, ⟨levels, hc⟩ | ⟨hr', -⟩⟩ := lamp_tickIfDue hv
  · rw [hc]
    rfl
  · exact absurd hr' hr

/-- A register is put out after another one, which the controller has kept to tell. -/
theorem Serves.isChain_written (h : b.Serves) (hn : ¬ b.Resets inputs) :
    (b.controller.register.toList ++ b.written inputs).IsChain (· ≠ ·) := by
  -- In front of the chain stands what the controller has kept. A step puts out nothing and keeps
  -- it, or puts out another register, which it keeps from then on.
  induction inputs generalizing b with
  | nil => cases b.controller.register <;> simp [written]
  | cons i inputs ih =>
    have hlater := ih (h.after i) fun hr => hn (resets_cons hr)
    cases i with
    | cue cue =>
      obtain ⟨queue, hb, -⟩ := b.exists_after_cue cue
      have hc : (b.after (.cue cue)).controller = b.controller := by rw [hb]
      rwa [← hc]
    | step =>
      cases hv : b.verdict with
      | some v =>
        have hb : b.after .step = b := by rw [Bench.after, value_step_finished hv]
        rw [written, puts, hv]
        rwa [hb] at hlater ⊢
      | none =>
        obtain ⟨ha, -⟩ := h.exchange rfl hv
        obtain ⟨ms, hq⟩ := ha.queues
        have hreg := register_tickIfDue hv fun hr => hn (resets_of_resetsNext hr)
        rw [(h.register_step hv).2] at hlater
        rw [written, puts, hv]
        dsimp only
        rw [filterMap_register_step hq, hreg]
        generalize b.tickIfDue.value.controller.worked.wantedRegister = w at hlater ⊢
        by_cases hw : b.controller.register = some w
        · rw [if_pos hw, hw]
          exact hlater
        · rw [if_neg hw]
          cases hc : b.controller.register with
          | none => exact hlater
          | some r =>
            refine List.isChain_cons_cons.mpr ⟨fun he => hw ?_, hlater⟩
            rw [hc, he]

/-- Whatever the operator does and at whatever moment, with a trial and without one: with every
slice of the controller's time, what it then wants on the solenoids gets there. Steps and bench are
as if the controller put its register out with every slice. And until a reset is obeyed, each
register that is put out differs from the one before it, the first from the one that the controller
has put out last. -/
theorem register_play (s : Setup) (model : Model) (o? : Option TrialOptions) (tracing : Bool)
    (inputs : List Input) :
    let assembled := assemble s (powerOn model)
    let b₀ := (o?.elim assembled assembled.withTrial).setTracing tracing
    let b := b₀.play inputs
    (b.verdict = none →
      (b.after .step).mechanism.register = b.tickIfDue.value.controller.worked.wantedRegister) ∧
    b₀.playEagerly inputs = b ∧ (@step ReferenceController eager b).value = b.step.value ∧
    (∀ later, ¬ b.Resets later →
      (b.controller.register.toList ++ b.written later).IsChain (· ≠ ·)) := by
  intro assembled b₀ b
  have h₀ : b₀.Serves := .initial s model o? tracing
  have h : b.Serves := h₀.play inputs
  exact ⟨fun hv => (h.register_step hv).1, h₀.playEagerly_eq inputs, h.value_step_eager,
    fun _ hn => h.isChain_written hn⟩

end Bench

end KnitBench
