import KnitBench.Proofs.Bench.Conversation
import KnitBench.Proofs.Trial.Course

/-! What the bench makes of the verdict of its trial. The verdict of a move reaches the bench with
that move. A trial that stalls does so in its tick, and of this the bench is told nothing: it goes
on as before. -/

namespace KnitBench.Bench

open ReferenceController Trial

variable {b : Bench ReferenceController} {t t' : Trial} {ms : List (List UInt8)} {v : Verdict}

/-- What the bench learns of the verdict of its trial: everything but a stall. -/
def learned : Option Verdict → Option Verdict
  | some (.stalled _) => none
  | verdict? => verdict?

/-- Messages bring no verdict. -/
theorem verdict_heard (h : heard (some t) ms = .ok (some t')) : t'.verdict = t.verdict := by
  induction ms generalizing t with
  | nil =>
    cases h
    rfl
  | cons m ms ih =>
    obtain ⟨stage, nextLine, pending, others, hu, -⟩ := t.exists_after_accept m
    have hv : (t.after (.accept m)).verdict = t.verdict := by rw [hu]
    exact (ih (heard_of_cons h)).trans hv

/-- A tick of the trial: the bench learns of the verdict, if a move brings it. And a verdict
stands. -/
theorem exists_tickTrial (ht : b.trial = some t) (hl : b.verdict = learned t.verdict) :
    ∃ t', b.tickTrial.value.trial = some t' ∧ b.tickTrial.value.verdict = learned t'.verdict ∧
      ∀ v, t.verdict = some v → t'.verdict = some v := by
  cases hv : t.verdict with
  | some v =>
    rw [value_tickTrial_rest ht (value_tick_verdict hv b.mechanism)]
    refine ⟨t, rfl, hl, ?_⟩
    rintro v' ⟨⟩
    exact hv
  | none =>
    have hb : b.verdict = none := by
      rw [hl, hv]
      rfl
    obtain ⟨lines, hticked⟩ := ticked hv b.mechanism
    generalize hr : (t.tick b.mechanism).value = r at hticked
    cases hticked with
    | waiting stage others =>
      rw [value_tickTrial_rest ht hr]
      refine ⟨_, rfl, ?_, nofun⟩
      rw [hv]
      exact hb
    | stalling lines pending sweep reversals =>
      rw [value_tickTrial_rest ht hr]
      exact ⟨_, rfl, hb, nofun⟩
    | moving lines pending sweep reversals =>
      rw [value_tickTrial_move ht hr, hb]
      generalize hu : ({ t with
        pending, sweep, reversals
        outgoing := t.outgoing ++ lines.map t.answer
        lineDelivered := t.lineDelivered || !lines.isEmpty } : Trial) = u
      have huv : u.verdict = none := by
        rw [← hu]
        exact hv
      have hj := u.judged (b.mechanism.move sweep)
      generalize (u.afterMove (b.mechanism.move sweep)).value = r' at hj
      refine ⟨r'.2, rfl, ?_, nofun⟩
      cases hj with
      | idle =>
        rw [huv]
        rfl
      | failed | passed => rfl
      | matched =>
        rw [huv]
        rfl

theorem exists_tickIfDue (ht : b.trial = some t) (hl : b.verdict = learned t.verdict) :
    ∃ t', b.tickIfDue.value.trial = some t' ∧ b.tickIfDue.value.verdict = learned t'.verdict ∧
      ∀ v, t.verdict = some v → t'.verdict = some v := by
  rcases b.value_tickIfDue_cases with ⟨lastTick, hv⟩ | ⟨lastTick, hv⟩
  · rw [hv]
    exact ⟨t, ht, hl, fun _ h => h⟩
  · obtain ⟨mechanism, controller, queue, tracing, ho, -, -⟩ :=
      exists_value_obeyNext { b with lastTick, ticks := b.ticks + 1 }
    obtain ⟨t', ht', hl', hk⟩ := exists_tickTrial (b := { b with
      lastTick, ticks := b.ticks + 1, mechanism, controller, queue, tracing }) ht hl
    rw [hv, value_tick, ho]
    obtain ⟨panel, mechanism', hr, -⟩ := exists_value_refresh (tickTrial { b with
      lastTick, ticks := b.ticks + 1, mechanism, controller, queue, tracing }).value
    rw [hr]
    exact ⟨t', ht', hl', hk⟩

/-- A bench with a trial in conversation, of whose verdict it has learned all but a stall. -/
structure Learns (b : Bench ReferenceController) (t : Trial) : Prop where
  talks : ∃ ms, Talks b t ms
  outgoing_eq : t.outgoing = []
  verdict_eq : b.verdict = learned t.verdict

namespace Learns

theorem initial (s : Setup) (model : Model) (o : TrialOptions) (tracing : Bool) :
    Learns (((assemble s (powerOn model)).withTrial o).setTracing tracing) (.begin s o) :=
  ⟨⟨[], .initial s model o tracing⟩, rfl, rfl⟩

/-- A step ends as the bench has learned, and leaves a verdict as it is. -/
theorem step (h : Learns b t) :
    ∃ t', Learns (b.after .step) t' ∧ (∀ v, t.verdict = some v → t'.verdict = some v) ∧
      b.step.value.1 = .ok (ending (learned t'.verdict)) := by
  obtain ⟨ms, ht⟩ := h.talks
  cases hv : b.verdict with
  | some v =>
    have hl := h.verdict_eq
    rw [hv] at hl
    refine ⟨t, ?_, fun _ hk => hk, ?_⟩
    · rw [after, value_step_finished hv]
      exact h
    · rw [value_step_finished hv, ← hl]
      rfl
  | none =>
    obtain ⟨t₁, ms₁, ht₁⟩ := ht.tickIfDue h.outgoing_eq
    obtain ⟨t₁', htrial, hl, hk⟩ := exists_tickIfDue ht.trial_eq h.verdict_eq
    obtain rfl : t₁' = t₁ := Option.some.inj (htrial.symm.trans ht₁.trial_eq)
    obtain ⟨ms₂, t₂, ms₃, hh, hs, hb, ht₂⟩ := ht₁.exchange rfl hv
    have hv₂ := verdict_heard hh
    refine ⟨{ t₂ with outgoing := [] }, ⟨⟨ms₃, ht₂⟩, rfl, ?_⟩, ?_, ?_⟩
    · rw [hb, hl, hv₂]
    · intro v hkv
      rw [hv₂]
      exact hk v hkv
    · rw [hs, hl, hv₂]

theorem after (h : Learns b t) (i : Input) :
    ∃ t', Learns (b.after i) t' ∧ ∀ v, t.verdict = some v → t'.verdict = some v := by
  cases i with
  | step =>
    obtain ⟨t', h', hk, -⟩ := h.step
    exact ⟨t', h', hk⟩
  | cue cue =>
    obtain ⟨queue, hb, -⟩ := b.exists_after_cue cue
    obtain ⟨ms, ht⟩ := h.talks
    rw [hb]
    exact ⟨t, ⟨⟨ms, ht.1, ht.2, ht.3, ht.4, ht.5, ht.6⟩, h.2, h.3⟩, fun _ hk => hk⟩

theorem play (h : Learns b t) (inputs : List Input) :
    ∃ t', Learns (b.play inputs) t' ∧ ∀ v, t.verdict = some v → t'.verdict = some v := by
  induction inputs generalizing b t with
  | nil => exact ⟨t, h, fun _ hk => hk⟩
  | cons i inputs ih =>
    obtain ⟨t₁, h₁, hk₁⟩ := h.after i
    obtain ⟨t₂, h₂, hk₂⟩ := ih h₁
    exact ⟨t₂, h₂, fun v hv => hk₂ v (hk₁ v hv)⟩

end Learns

/-- Whenever the trial has its verdict after a step, this step has ended with it, later steps end
with it too and change nothing any more, unless the verdict is a stall. A stall is never reported:
from then on every step runs on. -/
theorem step_of_trial_verdict (s : Setup) (model : Model) (o : TrialOptions) (tracing : Bool)
    (inputs : List Input) :
    let b := (((assemble s (powerOn model)).withTrial o).setTracing tracing).play inputs
    ∃ t, (b.after .step).trial = some t ∧
      match t.verdict with
      | none => b.step.value.1 = .ok .running
      | some (.stalled reversals) => b.step.value.1 = .ok .running ∧
        ∀ more, let b' := (b.after .step).play more
          b'.step.value.1 = .ok .running ∧
            b'.trial.bind (·.verdict) = some (.stalled reversals)
      | some v => b.step.value.1 = .ok (.finished v) ∧
        ∀ more, let b' := (b.after .step).play more
          b'.step.value = (.ok (.finished v), b') := by
  intro b
  obtain ⟨t₀, h₀, -⟩ := (Learns.initial s model o tracing).play inputs
  obtain ⟨t, h, -, hs⟩ := h₀.step
  obtain ⟨ms, ht⟩ := h.talks
  refine ⟨t, ht.trial_eq, ?_⟩
  have later (v : Verdict) (hv : t.verdict = some v) (more : List Input) :
      ∃ t', Learns ((b.after .step).play more) t' ∧ t'.verdict = some v := by
    obtain ⟨t', h', hk⟩ := h.play more
    exact ⟨t', h', hk v hv⟩
  have reported (v : Verdict) (hv : t.verdict = some v) (hl : learned (some v) = some v)
      (more : List Input) : ((b.after .step).play more).step.value =
        (.ok (.finished v), (b.after .step).play more) := by
    obtain ⟨t', h', hv'⟩ := later v hv more
    refine value_step_finished ?_
    rw [h'.verdict_eq, hv', hl]
  cases hv : t.verdict with
  | none =>
    rw [hv] at hs
    exact hs
  | some v =>
    rw [hv] at hs
    cases v with
    | passed rows => exact ⟨hs, reported _ hv rfl⟩
    | mismatched mismatch => exact ⟨hs, reported _ hv rfl⟩
    | stalled reversals =>
      refine ⟨hs, fun more => ?_⟩
      obtain ⟨t', h', hv'⟩ := later _ hv more
      obtain ⟨t'', -, hk, hs'⟩ := h'.step
      obtain ⟨ms', ht'⟩ := h'.talks
      rw [hk _ hv'] at hs'
      refine ⟨hs', ?_⟩
      rw [ht'.trial_eq]
      exact hv'

end KnitBench.Bench
