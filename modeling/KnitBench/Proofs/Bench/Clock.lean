import KnitBench.Proofs.Bench.Tick

/-! The clock of a bench with a trial and no cues: every fifth step ticks. And runs that come to
some state within so many steps. -/

namespace KnitBench.Bench

open ReferenceController

variable {b b₁ : Bench ReferenceController} {t t₁ t₂ t' : Trial} {d : Direction} {j n k : Nat}
  {ms : List (List UInt8)} {P Q : Bench ReferenceController → Prop}

/-- The cycles of the clock `j` slices of time after a tick. -/
def cyclesAt (lastTick j : Nat) : Nat := 16 * (lastTick + 2500 * j)

theorem cyclesAt_add (lastTick j : Nat) :
    cyclesAt lastTick j + cyclesPerStep = cyclesAt lastTick (j + 1) := by
  unfold cyclesAt cyclesPerStep
  omega

theorem microseconds_eq (c : ReferenceController) (cycles : Nat) :
    Controller.microseconds c cycles = microseconds cycles := by
  rw [Controller.microseconds, instController]

theorem microseconds_cyclesAt (lastTick j : Nat) :
    microseconds (cyclesAt lastTick j) = lastTick + 2500 * j := by
  unfold microseconds cyclesAt clockRate
  omega

theorem cyclesAt_tick (lastTick j : Nat) :
    cyclesAt lastTick j = cyclesAt (lastTick + 2500 * j) 0 := by
  unfold cyclesAt
  omega

theorem now_eq_of_cycle_eq (h : b.controller.cycle = cyclesAt b.lastTick j) :
    b.now = b.lastTick + 2500 * j := by
  have hc : Controller.cycle b.controller = b.controller.cycle := rfl
  rw [now, Controller.now, microseconds_eq, hc, h, microseconds_cyclesAt]

/-- Too early for the next tick. -/
theorem value_tickIfDue_early (h : b.controller.cycle = cyclesAt b.lastTick j) (hj : j < 5) :
    b.tickIfDue.value = b := by
  have hn := now_eq_of_cycle_eq h
  have hdue : ¬ tickInterval < b.now - min b.lastTick b.now := by
    unfold tickInterval
    omega
  rw [value_tickIfDue_of_not hdue, show min b.lastTick b.now = b.lastTick by omega]

/-- The time of the next tick. -/
theorem value_tickIfDue_due (h : b.controller.cycle = cyclesAt b.lastTick 5) :
    b.tickIfDue.value = ({ b with lastTick := b.now } : Bench ReferenceController).tick.value := by
  have hn := now_eq_of_cycle_eq h
  refine value_tickIfDue ?_
  unfold tickInterval
  omega

/-- A bench with a trial under way and no cue, `j` slices of time after its last tick. -/
structure Timed (j : Nat) (t : Trial) (b : Bench ReferenceController) : Prop where
  trial_eq : b.trial = some t
  verdict_eq : b.verdict = none
  pop_eq : b.queue.pop = none
  receiver_eq : b.receiver = .empty
  controller_receiver_eq : b.controller.receiver = .empty
  cycle_eq : b.controller.cycle = cyclesAt b.lastTick j

namespace Timed

theorem initial (s : Setup) (model : Model) (o : TrialOptions) (tracing : Bool) :
    Timed 0 (.begin s o) (((assemble s (powerOn model)).withTrial o).setTracing tracing) := by
  have hc : (((assemble s (powerOn model)).withTrial o).setTracing tracing).controller =
      Controller.raiseLevels (Mechanism.initial s).levels (powerOn model) := rfl
  rw [raiseLevels_eq] at hc
  exact ⟨rfl, rfl, rfl, rfl, by rw [hc]; rfl, by rw [hc]; rfl⟩

/-- The rest of a step, after the tick. -/
theorem exchange (h : Timed j t b₁) (hb : b.tickIfDue.value = b₁) (hv : b.verdict = none)
    (ha : Attached b₁.mechanism b₁.controller) (hq : b₁.controller.worked.Queues ms)
    (hf : ∀ m ∈ ms, Wire.Fits m) (hh : heard (some t) ms = .ok (some t'))
    (hf' : ∀ m ∈ t'.outgoing, Wire.Fits m) :
    ∃ b', b.step.value = (.ok .running, b') ∧ Timed (j + 1) { t' with outgoing := [] } b' ∧
      b'.mechanism = b₁.mechanism.latch b₁.controller.worked.wantedRegister ∧
      b'.controller = (b₁.controller.sliced b₁.mechanism.hall).told t'.outgoing := by
  rw [← h.trial_eq] at hh
  obtain ⟨traffic, panel, hs⟩ := exists_value_step hb hv ha h.receiver_eq
    h.controller_receiver_eq hq hf hh hf'
  rw [h.verdict_eq, outgoing_some] at hs
  obtain ⟨ms₀, hq₀⟩ := ha.queues
  have hans := answers_told (b₁.controller.sliced b₁.mechanism.hall) t'.outgoing
  have hcyc := hans.cycle_eq.trans (cycle_sliced hq₀ _)
  have hrec := hans.receiver_eq.trans (receiver_sliced hq₀ _)
  refine ⟨_, hs, ⟨rfl, rfl, h.pop_eq, h.receiver_eq,
    hrec.trans h.controller_receiver_eq, ?_⟩, rfl, rfl⟩
  rw [h.cycle_eq, cyclesAt_add] at hcyc
  exact hcyc

/-- A step before the next tick. -/
theorem rest (h : Timed j t b) (hj : j < 5) (ha : Attached b.mechanism b.controller)
    (hq : b.controller.worked.Queues ms) (hf : ∀ m ∈ ms, Wire.Fits m)
    (hh : heard (some t) ms = .ok (some t')) (hf' : ∀ m ∈ t'.outgoing, Wire.Fits m) :
    ∃ b', b.step.value = (.ok .running, b') ∧ Timed (j + 1) { t' with outgoing := [] } b' ∧
      b'.mechanism = b.mechanism.latch b.controller.worked.wantedRegister ∧
      b'.controller = (b.controller.sliced b.mechanism.hall).told t'.outgoing := by
  exact exchange h (value_tickIfDue_early h.cycle_eq hj) h.verdict_eq ha hq hf hh hf'

theorem value_obeyNext_none (h : b.queue.pop = none) : b.obeyNext.value = b := by
  unfold obeyNext
  rw [h]
  rfl

/-- Showing the state leaves the mechanism as it is, whether it shows it or not. -/
theorem exists_value_refresh_stale (b : Bench ReferenceController) :
    ∃ panel stale, b.refresh.value =
      { b with mechanism := { b.mechanism with stale }, panel } := by
  obtain ⟨panel, mechanism, hr, hm⟩ := b.exists_value_refresh
  rcases hm with rfl | rfl
  · exact ⟨panel, _, hr⟩
  · exact ⟨panel, false, hr⟩

/-- A tick of a trial that does not move. -/
theorem exists_value_tick_rest (ht : b.trial = some t) (hp : b.queue.pop = none)
    (hr : (t.tick b.mechanism).value = (none, t₁)) :
    ∃ panel stale, b.tick.value = { b with
      ticks := b.ticks + 1
      mechanism := { b.mechanism with stale }
      trial := some t₁
      panel } := by
  rw [value_tick, value_obeyNext_none (b := { b with ticks := b.ticks + 1 }) hp,
    value_tickTrial_rest (b := { b with ticks := b.ticks + 1 }) ht hr]
  exact exists_value_refresh_stale _

/-- A tick of a trial that moves. -/
theorem exists_value_tick_move {v? : Option Trial.Verdict} (ht : b.trial = some t)
    (hv : b.verdict = none) (hp : b.queue.pop = none)
    (hr : (t.tick b.mechanism).value = (some d, t₁))
    (ha : (t₁.afterMove (b.mechanism.move d)).value = (v?, t₂)) :
    ∃ panel stale, b.tick.value = { b with
      ticks := b.ticks + 1
      mechanism := { b.mechanism.move d with stale }
      controller := b.controller.seeing (b.mechanism.move d).levels
      trial := some t₂
      verdict := v?
      panel } := by
  rw [value_tick, value_obeyNext_none (b := { b with ticks := b.ticks + 1 }) hp,
    value_tickTrial_move (b := { b with ticks := b.ticks + 1 }) ht hr]
  dsimp only
  rw [ha, hv, Option.or_none]
  exact exists_value_refresh_stale _

/-- The step that ticks, the trial making no move. -/
theorem tick_rest (h : Timed 5 t b) (hr : (t.tick b.mechanism).value = (none, t₁))
    (ha : Attached b.mechanism b.controller) (hq : b.controller.worked.Queues ms)
    (hf : ∀ m ∈ ms, Wire.Fits m) (hh : heard (some t₁) ms = .ok (some t'))
    (hf' : ∀ m ∈ t'.outgoing, Wire.Fits m) :
    ∃ stale b', b.step.value = (.ok .running, b') ∧ Timed 1 { t' with outgoing := [] } b' ∧
      b'.mechanism = { b.mechanism with
        stale, register := b.controller.worked.wantedRegister } ∧
      b'.controller = (b.controller.sliced b.mechanism.hall).told t'.outgoing := by
  have hcyc := h.cycle_eq
  have hb := value_tickIfDue_due hcyc
  rw [cyclesAt_tick, ← now_eq_of_cycle_eq h.cycle_eq] at hcyc
  generalize b.now = now at hb hcyc
  obtain ⟨panel, stale, ht⟩ := exists_value_tick_rest (b := { b with lastTick := now })
    h.trial_eq h.pop_eq hr
  rw [ht] at hb
  have h₁ : Timed 0 t₁ { b with
      lastTick := now
      ticks := b.ticks + 1
      mechanism := { b.mechanism with stale }
      trial := some t₁
      panel } :=
    ⟨rfl, h.verdict_eq, h.pop_eq, h.receiver_eq, h.controller_receiver_eq, hcyc⟩
  obtain ⟨b', hs, ht', hm, hc⟩ := exchange h₁ hb h.verdict_eq
    (ha.shown stale) hq hf hh hf'
  exact ⟨stale, b', hs, ht', hm, hc⟩

/-- The step that ticks, the trial making a move that brings no verdict. -/
theorem tick_move (h : Timed 5 t b) (hr : (t.tick b.mechanism).value = (some d, t₁))
    (hm : (t₁.afterMove (b.mechanism.move d)).value = (none, t₂))
    (ha : Attached b.mechanism b.controller)
    (hq : (b.controller.seeing (b.mechanism.move d).levels).worked.Queues ms)
    (hf : ∀ m ∈ ms, Wire.Fits m) (hh : heard (some t₂) ms = .ok (some t'))
    (hf' : ∀ m ∈ t'.outgoing, Wire.Fits m) :
    ∃ stale b', b.step.value = (.ok .running, b') ∧ Timed 1 { t' with outgoing := [] } b' ∧
      b'.mechanism = { b.mechanism.move d with
        stale
        register := (b.controller.seeing (b.mechanism.move d).levels).worked.wantedRegister } ∧
      b'.controller = ((b.controller.seeing (b.mechanism.move d).levels).sliced
        (b.mechanism.move d).hall).told t'.outgoing := by
  have hcyc := h.cycle_eq
  have hb := value_tickIfDue_due hcyc
  rw [cyclesAt_tick, ← now_eq_of_cycle_eq h.cycle_eq] at hcyc
  generalize b.now = now at hb hcyc
  obtain ⟨panel, stale, ht⟩ := exists_value_tick_move (b := { b with lastTick := now })
    h.trial_eq h.verdict_eq h.pop_eq hr hm
  rw [ht] at hb
  have h₁ : Timed 0 t₂ { b with
      lastTick := now
      ticks := b.ticks + 1
      mechanism := { b.mechanism.move d with stale }
      controller := b.controller.seeing (b.mechanism.move d).levels
      trial := some t₂
      verdict := none
      panel } :=
    ⟨rfl, rfl, h.pop_eq, h.receiver_eq, h.controller_receiver_eq, hcyc⟩
  obtain ⟨b', hs, ht', hm, hc⟩ := exchange h₁ hb h.verdict_eq
    ((ha.move d).shown stale) hq hf hh hf'
  exact ⟨stale, b', hs, ht', hm, hc⟩

/-- The step that ticks, the trial making a move that brings a verdict. -/
theorem tick_verdict {v : Trial.Verdict} (h : Timed 5 t b)
    (hr : (t.tick b.mechanism).value = (some d, t₁))
    (hm : (t₁.afterMove (b.mechanism.move d)).value = (some v, t₂))
    (ha : Attached b.mechanism b.controller)
    (hq : (b.controller.seeing (b.mechanism.move d).levels).worked.Queues ms)
    (hf : ∀ m ∈ ms, Wire.Fits m) (hh : heard (some t₂) ms = .ok (some t'))
    (hf' : ∀ m ∈ t'.outgoing, Wire.Fits m) : b.step.value.1 = .ok (.finished v) := by
  have hb := value_tickIfDue_due h.cycle_eq
  generalize b.now = now at hb
  obtain ⟨panel, stale, ht⟩ := exists_value_tick_move (b := { b with lastTick := now })
    h.trial_eq h.verdict_eq h.pop_eq hr hm
  rw [ht] at hb
  obtain ⟨traffic, panel', hs⟩ := exists_value_step hb h.verdict_eq
    ((ha.move d).shown stale) h.receiver_eq h.controller_receiver_eq hq hf hh hf'
  rw [hs]
  rfl

end Timed

/-- Within `n` steps, all of them running on, the bench comes to a state where `P` holds. -/
def Reaches (P : Bench ReferenceController → Prop) : Nat → Bench ReferenceController → Prop
  | 0, b => P b
  | n + 1, b => P b ∨ ∃ b', b.step.value = (.ok .running, b') ∧ Reaches P n b'

namespace Reaches

theorem now (h : P b) (n : Nat) : Reaches P n b := by
  cases n with
  | zero => exact h
  | succ n => exact Or.inl h

theorem step {b' : Bench ReferenceController} (hs : b.step.value = (.ok .running, b'))
    (h : Reaches P n b') : Reaches P (n + 1) b := Or.inr ⟨b', hs, h⟩

theorem imp (h : Reaches P n b) (hPQ : ∀ b, P b → Q b) : Reaches Q n b := by
  induction n generalizing b with
  | zero => exact hPQ b h
  | succ n ih =>
    rcases h with h | ⟨b', hs, h⟩
    · exact .now (hPQ b h) _
    · exact .step hs (ih h)

theorem mono (h : Reaches P n b) (hnk : n ≤ k) : Reaches P k b := by
  induction n generalizing b k with
  | zero => exact .now h k
  | succ n ih =>
    obtain ⟨k, rfl⟩ : ∃ i, k = i + 1 := ⟨k - 1, by omega⟩
    rcases h with h | ⟨b', hs, h⟩
    · exact .now h _
    · exact .step hs (ih h (by omega))

theorem trans (h : Reaches P n b) (hPQ : ∀ b, P b → Reaches Q k b) : Reaches Q (n + k) b := by
  induction n generalizing b with
  | zero => exact (hPQ b h).mono (by omega)
  | succ n ih =>
    rcases h with h | ⟨b', hs, h⟩
    · exact (hPQ b h).mono (by omega)
    · rw [Nat.succ_add]
      exact .step hs (ih h)

/-- A run that comes within its limit to a state in which the next step brings the verdict. -/
theorem result_run {v : Trial.Verdict}
    (h : Reaches (fun b => b.step.value.1 = .ok (.finished v)) n b) {limit : Nat} (hn : n < limit)
    (journal : Journal) :
    (b.run limit journal).result = .ok (.finished v) := by
  unfold run
  induction n generalizing b limit journal with
  | zero =>
    obtain ⟨limit, rfl⟩ : ∃ i, limit = i + 1 := ⟨limit - 1, by omega⟩
    change b.step.value.1 = _ at h
    rw [stepWhile, if_pos rfl]
    generalize b.step = r at h
    obtain ⟨⟨result, b'⟩, notices⟩ := r
    subst h
    rfl
  | succ n ih =>
    obtain ⟨limit, rfl⟩ : ∃ i, limit = i + 1 := ⟨limit - 1, by omega⟩
    rcases h with h | ⟨b', hs, h⟩
    · rw [stepWhile, if_pos rfl]
      generalize b.step = r at h
      obtain ⟨⟨result, b'⟩, notices⟩ := r
      subst h
      rfl
    · rw [stepWhile, if_pos rfl]
      generalize b.step = r at hs
      obtain ⟨value, notices⟩ := r
      subst hs
      exact ih h (by omega) _

end Reaches

/-- A bench in some phase of its trial, wherever its clock is between two ticks. -/
def Phase (F : Mechanism → ReferenceController → Trial → Prop) (b : Bench ReferenceController) :
    Prop :=
  ∃ j t, j ≤ 5 ∧ Timed j t b ∧ F b.mechanism b.controller t

/-- A phase of the trial that slices of the controller's time between two ticks do not disturb. -/
def Steady (F : Mechanism → ReferenceController → Trial → Prop) : Prop :=
  ∀ m c t, F m c t → t.outgoing = [] ∧ Attached m c ∧ c.worked.Queues [] ∧
    F (m.latch c.worked.wantedRegister) (c.sliced m.hall) t

namespace Steady

variable {F : Mechanism → ReferenceController → Trial → Prop}

theorem rest (hF : Steady F) (h : Timed j t b) (hj : j < 5)
    (hf : F b.mechanism b.controller t) :
    ∃ b', b.step.value = (.ok .running, b') ∧ Timed (j + 1) t b' ∧
      F b'.mechanism b'.controller t ∧
      b'.mechanism = b.mechanism.latch b.controller.worked.wantedRegister ∧
      b'.controller = b.controller.sliced b.mechanism.hall := by
  obtain ⟨ho, ha, hq, hf'⟩ := hF _ _ _ hf
  have ht : { t with outgoing := [] } = t := by rw [← ho]
  have hfits : ∀ m ∈ t.outgoing, Wire.Fits m := by simp [ho]
  obtain ⟨b', hs, ht', hm, hc⟩ := h.rest hj ha hq nofun (heard_nil _) hfits
  rw [ht] at ht'
  rw [ho, told_nil] at hc
  refine ⟨b', hs, ht', ?_, hm, hc⟩
  rw [hm, hc]
  exact hf'

/-- A phase in which every tick brings the carriage closer to its end does come to its end. The
measure `μ` says how many ticks are left, at most `n`; the last one takes `k` steps. -/
theorem reaches {μ : Mechanism → Nat} (hF : Steady F) (hμ : ∀ m r, μ (m.latch r) = μ m)
    (hle : ∀ m c t, F m c t → μ m ≤ n)
    (tick : ∀ t b, Timed 5 t b → F b.mechanism b.controller t → Reaches P k b ∨
      ∃ b' t', b.step.value = (.ok .running, b') ∧ Timed 1 t' b' ∧
        F b'.mechanism b'.controller t' ∧ μ b'.mechanism < μ b.mechanism)
    (h : Phase F b) : Reaches P (5 * n + 5 + k) b := by
  obtain ⟨j, t, hj, h, hf⟩ := h
  have hbound := hle _ _ _ hf
  -- the steps left: five for every tick, and those until the next one
  suffices hi : ∀ i, 5 * μ b.mechanism + (5 - j) ≤ i → Reaches P (i + k) b from
    hi (5 * n + 5) (by omega)
  clear hbound
  intro i hi
  induction i generalizing b j t with
  | zero =>
    obtain rfl : j = 5 := by omega
    rcases tick t b h hf with hP | ⟨b', t', -, -, -, hlt⟩
    · exact hP.mono (by omega)
    · omega
  | succ i ih =>
    rw [Nat.succ_add]
    by_cases hj' : j = 5
    · subst hj'
      rcases tick t b h hf with hP | ⟨b', t', hs, ht, hf', hlt⟩
      · exact hP.mono (by omega)
      · exact .step hs (ih _ _ (by decide) ht hf' (by omega))
    · obtain ⟨b', hs, ht, hf', hm, -⟩ := hF.rest h (by omega) hf
      refine .step hs (ih _ _ (by omega) ht hf' ?_)
      rw [hm, hμ]
      omega

end Steady

end KnitBench.Bench
