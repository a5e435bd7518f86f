import KnitBench.Proofs.Bench.Outcome
import KnitBench.Proofs.Bench.Verdict

/-! A trial whose first line comes too late stalls: the carriage goes from rail to rail without a
pass until the trial gives up. The bench does not learn of it. -/

namespace KnitBench.Bench

open ReferenceController Trial

variable {b : Bench ReferenceController} {s : Setup} {o : TrialOptions} {d : Direction}
  {turns : Nat} {m : Mechanism} {c : ReferenceController} {t : Trial}

/-- The trial has ended with a stall. -/
def Stalled (b : Bench ReferenceController) : Prop :=
  ∃ t, b.trial = some t ∧ t.verdict = some (.stalled (reversalLimit + 1))

/-- The ticks that are left, at most, when the carriage goes in direction `d` and has turned so many
times. -/
def ticksLeft (s : Setup) (d : Direction) (turns : Nat) (x : Int) : Nat :=
  (toRail s d x).toNat + 1024 * (reversalLimit - turns) + 1

/-- The carriage goes to the rail in direction `d` while the controller waits for its first line,
for longer than the trial will last. -/
structure Starved (s : Setup) (d : Direction) (turns : Nat) (m : Mechanism)
    (c : ReferenceController) (t : Trial) : Prop where
  attached : Attached m c
  setup_eq : m.setup = s
  empty : c.Queues []
  ready_eq : c.line.ready = false
  worked_eq : c.line.worked = none
  stage_eq : t.stage = .knitting
  verdict_eq : t.verdict = none
  outgoing_eq : t.outgoing = []
  undelivered : t.lineDelivered = false
  sweep_eq : t.sweep = d
  reversals_eq : t.reversals = turns
  pending : ∃ w line, t.pending = [(w + 2, line)] ∧ ticksLeft s d turns m.quarters ≤ w

namespace Starved

theorem worked (h : Starved s d turns m c t) (l : Levels) :
    (c.seeing l).worked = (c.seeing l).tracked := by
  refine worked_eq_tracked h.worked_eq fun hr => ?_
  have hn := h.ready_eq
  rw [show c.line.ready = true from hr] at hn
  cases hn

theorem queues_worked (h : Starved s d turns m c t) (l : Levels) :
    (c.seeing l).worked.Queues [] := by
  rw [h.worked l]
  exact h.empty

/-- Slices of time between two ticks change nothing. -/
theorem rest (h : Starved s d turns m c t) :
    t.outgoing = [] ∧ Attached m c ∧ c.worked.Queues [] ∧
      Starved s d turns (m.latch c.worked.wantedRegister) (c.sliced m.hall) t := by
  have hw := h.worked m.levels
  rw [h.attached.seeing_self] at hw
  refine ⟨h.outgoing_eq, h.attached, ?_, h.attached.slice.toAttached, h.setup_eq,
    queues_sliced .., ?_, ?_, h.stage_eq, h.verdict_eq, h.outgoing_eq, h.undelivered, h.sweep_eq,
    h.reversals_eq, h.pending⟩
  · rw [hw]
    exact h.empty
  · rw [sliced, hw]
    exact h.ready_eq
  · rw [sliced, hw]
    exact h.worked_eq

/-- A tick with a move: the line comes no nearer than by one tick. -/
theorem tick_move (d' : Direction) (turns' : Nat)
    (h : Starved s d turns b.mechanism b.controller t) (hb : Timed 5 t b)
    (ht : ∀ u : Trial, u.sweep = d → u.reversals = turns → (u.turn b.mechanism).value =
      (some d', { u with sweep := d', reversals := turns' }))
    (hl : ticksLeft s d' turns' (b.mechanism.move d').quarters <
      ticksLeft s d turns b.mechanism.quarters) :
    ∃ b' t', b.step.value = (.ok .running, b') ∧ Timed 1 t' b' ∧
      Starved s d' turns' b'.mechanism b'.controller t' ∧
      b'.mechanism.quarters = (b.mechanism.move d').quarters := by
  obtain ⟨w, line, hp, hw⟩ := h.pending
  have htick := value_tick_knitting h.verdict_eq h.stage_eq b.mechanism
  rw [value_deliver_waiting hp,
    ht { t with pending := [(w + 1, line)] } h.sweep_eq h.reversals_eq] at htick
  have hmove := value_afterMove_of_undelivered (t := { t with
    pending := [(w + 1, line)], sweep := d', reversals := turns' }) h.undelivered
      (b.mechanism.move d')
  obtain ⟨stale, b', hs, htime, hm', hc'⟩ := hb.tick_move htick hmove h.attached
    (h.queues_worked _) nofun (heard_nil _) (by simp [h.outgoing_eq])
  have hout : ({ t with
      pending := [(w + 1, line)], sweep := d', reversals := turns' } : Trial).outgoing = [] :=
    h.outgoing_eq
  rw [hout, told_nil] at hc'
  have hwk := h.worked (b.mechanism.move d').levels
  refine ⟨b', _, hs, htime, ?_, by rw [hm']; rfl⟩
  refine ⟨?_, ?_, ?_, ?_, ?_, h.stage_eq, h.verdict_eq, rfl, h.undelivered, rfl, rfl, ?_⟩
  · rw [hm', hc']
    exact (h.attached.move d').slice.toAttached.shown stale
  · rw [hm']
    exact h.setup_eq
  · rw [hc']
    exact queues_sliced ..
  · rw [hc', sliced, hwk]
    exact h.ready_eq
  · rw [hc', sliced, hwk]
    exact h.worked_eq
  · obtain ⟨w', rfl⟩ : ∃ w', w = w' + 1 := ⟨w - 1, by omega⟩
    refine ⟨w', line, rfl, ?_⟩
    have hq : b'.mechanism.quarters = (b.mechanism.move d').quarters := by rw [hm']; rfl
    rw [hq]
    omega

/-- Away from the rail a tick goes on. -/
theorem tick_on (h : Starved s d turns b.mechanism b.controller t) (hb : Timed 5 t b)
    (hrail : b.mechanism.atRail d = false) :
    ∃ b' t', b.step.value = (.ok .running, b') ∧ Timed 1 t' b' ∧
      Starved s d turns b'.mechanism b'.controller t' ∧
      (toRail s d b'.mechanism.quarters).toNat < (toRail s d b.mechanism.quarters).toNat := by
  have hq := Mechanism.quarters_move_of_not_atRail h.attached.aligned hrail
  have hstep := toRail_step s d b.mechanism.quarters
  have hpos := toRail_pos hrail
  rw [h.setup_eq] at hpos
  rw [← hq] at hstep
  obtain ⟨b', t', hs, ht, hf, hq'⟩ := h.tick_move d turns hb
    (fun u hu hr => by
      subst hu hr
      exact value_turn_of_not hrail)
    (by unfold ticksLeft; omega)
  refine ⟨b', t', hs, ht, hf, ?_⟩
  rw [hq']
  omega

/-- At the rail the carriage turns, if it has not turned too often. -/
theorem tick_turn (h : Starved s d turns b.mechanism b.controller t) (hb : Timed 5 t b)
    (hrail : b.mechanism.atRail d = true) (hturns : turns + 1 ≤ reversalLimit) :
    Reaches (Phase (Starved s d.reversed (turns + 1))) 1 b := by
  have hle := toRail_le (Mechanism.aligned_move h.attached.aligned d.reversed) d.reversed
  rw [Mechanism.setup_move, h.setup_eq] at hle
  obtain ⟨b', t', hs, ht, hf, -⟩ := h.tick_move d.reversed (turns + 1) hb
    (fun u hu hr => by
      subst hu hr
      exact value_turn_atRail hrail hturns)
    (by unfold ticksLeft; omega)
  exact .step hs ⟨1, t', by decide, ht, hf⟩

/-- After the last turn that is put up with, the trial ends at the rail. -/
theorem tick_stall (h : Starved s d reversalLimit b.mechanism b.controller t) (hb : Timed 5 t b)
    (hrail : b.mechanism.atRail d = true) : Reaches Stalled 1 b := by
  obtain ⟨w, line, hp, -⟩ := h.pending
  have htick := value_tick_knitting h.verdict_eq h.stage_eq b.mechanism
  rw [value_deliver_waiting hp, value_turn_stalled (by rw [h.sweep_eq]; exact hrail)
    (by rw [h.reversals_eq]; exact Nat.lt_succ_self _)] at htick
  have hq := h.queues_worked b.mechanism.levels
  rw [h.attached.seeing_self] at hq
  obtain ⟨stale, b', hs, htime, -, -⟩ := hb.tick_rest htick h.attached hq nofun (heard_nil _)
    (by simp [h.outgoing_eq])
  exact .step hs ⟨_, htime.trial_eq, by rw [← h.reversals_eq]⟩

/-- The carriage comes to the rail. -/
theorem reaches_of_turn {P : Bench ReferenceController → Prop} (h : Phase (Starved s d turns) b)
    (turn : ∀ t b, Timed 5 t b → Starved s d turns b.mechanism b.controller t →
      b.mechanism.atRail d = true → Reaches P 1 b) : Reaches P 5121 b := by
  refine Steady.reaches (n := 1023) (k := 1) (μ := fun m => (toRail s d m.quarters).toNat)
    (fun _ _ _ hf => hf.rest) (fun _ _ => rfl) ?_ ?_ h
  · intro m c t hf
    have hr := toRail_le hf.attached.aligned d
    rw [hf.setup_eq] at hr
    omega
  · intro t b ht hf
    cases hrail : b.mechanism.atRail d with
    | false => exact Or.inr (hf.tick_on ht hrail)
    | true => exact Or.inl (turn t b ht hf hrail)

/-- From rail to rail the trial comes to its stall. -/
theorem reaches_stalled (left : Nat) (h : Phase (Starved s d turns) b)
    (hleft : turns + left = reversalLimit) : Reaches Stalled (5121 * (left + 1)) b := by
  induction left generalizing b d turns with
  | zero =>
    obtain rfl : turns = reversalLimit := hleft
    exact reaches_of_turn h fun t b ht hf hrail => hf.tick_stall ht hrail
  | succ left ih =>
    have hturn := reaches_of_turn h fun t b ht hf hrail => hf.tick_turn ht hrail (by omega)
    exact (hturn.trans fun b hb => ih hb (by omega)).mono (by omega)

end Starved

/-- A trial that makes the controller wait for too long stalls. -/
theorem opened_reaches_stalled (s : Setup) (tracing : Bool) (hdelay : 7170 ≤ o.delay) :
    Reaches Stalled 35855 (opened s o tracing) := by
  refine ((opened_reaches_agreed s o tracing).trans fun b hb => ?_ : Reaches _ (8 + 35847) _)
  obtain ⟨j, t, hj, ht, rfl, hi⟩ := hb
  have hstarved : Starved s s.side.firstDirection 0 b.mechanism b.controller (agreed s o) := by
    refine ⟨hi.wired.toAttached, hi.coming.setup_eq, hi.queues, ?_, ?_, rfl, rfl, rfl, rfl, rfl,
      rfl, o.delay - 2, 0, ?_, ?_⟩
    · rw [hi.line_eq]
    · rw [hi.line_eq]
    · rw [agreed, Nat.sub_add_cancel (by omega)]
    · have hr := toRail_le hi.wired.aligned s.side.firstDirection
      rw [hi.coming.setup_eq] at hr
      unfold ticksLeft reversalLimit
      omega
  exact Starved.reaches_stalled 6 ⟨j, _, hj, ht, hstarved⟩ rfl

/-- What is reached is reached by steps. -/
theorem Reaches.exists_play {P : Bench ReferenceController → Prop} {n : Nat} (h : Reaches P n b) :
    ∃ k, P (b.play (List.replicate k .step)) := by
  induction n generalizing b with
  | zero => exact ⟨0, h⟩
  | succ n ih =>
    rcases h with h | ⟨b', hs, h⟩
    · exact ⟨0, h⟩
    · obtain ⟨k, hk⟩ := ih h
      have hb : b.after .step = b' := by
        rw [after, hs]
      refine ⟨k + 1, ?_⟩
      rw [List.replicate_succ, play, List.foldl_cons, hb]
      exact hk

/-- When a trial stalls, the steps run on. -/
theorem exists_stall_unreported (s : Setup) (tracing : Bool) (hdelay : 7170 ≤ o.delay) :
    ∃ inputs, Stalled ((opened s o tracing).play (inputs ++ [.step])) ∧
      ((opened s o tracing).play inputs).step.value.1 = .ok .running := by
  obtain ⟨k, t, htrial, hv⟩ := (opened_reaches_stalled s tracing hdelay).exists_play
  obtain ⟨t', h, -⟩ := (Learns.initial s s.model o tracing).play (List.replicate k .step)
  obtain ⟨ms, ht⟩ := h.talks
  obtain rfl : t' = t := Option.some.inj (ht.trial_eq.symm.trans htrial)
  obtain ⟨t₁, h₁, hk, hs⟩ := h.step
  obtain ⟨ms₁, ht₁⟩ := h₁.talks
  rw [hk _ hv] at hs
  refine ⟨List.replicate k .step, ⟨t₁, ?_, hk _ hv⟩, hs⟩
  rw [play, List.foldl_append]
  exact ht₁.trial_eq

/-- The longest delay of all. -/
def longestDelay : TrialOptions := { delay := 4294967295 }

/-- A trial with the longest delay comes to its verdict in a step that reports none. -/
theorem stall_unreported_standard :
    ∃ inputs t v, (((opened .standard longestDelay false).play inputs).after .step).trial = some t ∧
      t.verdict = some v ∧
      ((opened .standard longestDelay false).play inputs).step.value.1 ≠ .ok (.finished v) := by
  obtain ⟨inputs, ⟨t, ht, hv⟩, hs⟩ :=
    exists_stall_unreported .standard (o := longestDelay) false (by decide)
  rw [play, List.foldl_append] at ht
  refine ⟨inputs, t, _, ht, hv, ?_⟩
  rw [hs]
  exact nofun

end KnitBench.Bench
