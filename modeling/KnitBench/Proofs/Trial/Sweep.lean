import KnitBench.Proofs.Mechanism.Counter
import KnitBench.Proofs.Trial.Course

/-! A trial that sends its carriage over the bed, round after round, whatever comes in between from
the controller. Each round moves the carriage by one quarter, and the trial turns it before a rail
holds it. Turns are counted, and only a pass that matches sets the count back, so that the verdict
comes after a bounded number of rounds. -/

namespace KnitBench

namespace Trial

variable {s : Setup} {o : TrialOptions} {t t' : Trial} {m : Mechanism}

/-! ### What bounds a trial -/

/-- The bounds that a trial keeps before its verdict, and the only stall there is. -/
structure Bounded (t : Trial) : Prop where
  reversals_le : t.verdict = none → t.reversals ≤ 6
  passes_le : t.verdict = none → t.passes ≤ 1
  stalled_eq : ∀ n, t.verdict = some (.stalled n) → n = 7

namespace Bounded

theorem congr (h : t.Bounded) (hv : t'.verdict = t.verdict) (hr : t'.reversals = t.reversals)
    (hp : t'.passes = t.passes) : t'.Bounded where
  reversals_le := by rw [hv, hr]; exact h.reversals_le
  passes_le := by rw [hv, hp]; exact h.passes_le
  stalled_eq := by rw [hv]; exact h.stalled_eq

/-- A verdict other than a stall ends all bounds. -/
theorem of_verdict {v : Verdict} (hv : t.verdict = some v) (hn : ∀ n, v ≠ .stalled n) :
    t.Bounded where
  reversals_le h := by rw [hv] at h; cases h
  passes_le h := by rw [hv] at h; cases h
  stalled_eq n h := by
    rw [hv] at h
    exact absurd (Option.some.inj h) (hn n)

theorem turn (h : t.Bounded) (hv : t.verdict = none) (m : Mechanism) :
    (t.turn m).value.2.Bounded := by
  have hr := h.reversals_le hv
  cases hrail : m.atRail t.sweep with
  | false =>
    rw [value_turn_of_not hrail]
    exact h
  | true =>
    by_cases hl : t.reversals + 1 ≤ reversalLimit
    · rw [value_turn_atRail hrail hl]
      exact ⟨fun _ => hl, h.passes_le, h.stalled_eq⟩
    · rw [value_turn_stalled hrail (Nat.lt_of_not_le hl)]
      unfold reversalLimit at hl
      refine ⟨nofun, nofun, fun n hn => ?_⟩
      cases hn
      omega

theorem tick (h : t.Bounded) (hv : t.verdict = none) (m : Mechanism) :
    (t.tick m).value.2.Bounded := by
  cases hs : t.stage with
  | opening =>
    rw [value_tick_opening hv hs]
    exact h.congr rfl rfl rfl
  | awaiting =>
    rw [value_tick_awaiting hv hs]
    exact h
  | knitting =>
    rw [value_tick_knitting hv hs]
    obtain ⟨lines, pending, hd⟩ := t.exists_value_deliver
    have hb : t.deliver.value.Bounded := by
      rw [hd]
      exact h.congr rfl rfl rfl
    exact hb.turn (by rw [hd]; exact hv) m

theorem afterMove (h : t.Bounded) (m : Mechanism) : (t.afterMove m).value.2.Bounded := by
  have hj := t.judged m
  generalize (t.afterMove m).value = r at hj
  cases hj with
  | idle => exact h
  | failed hc mismatch => exact of_verdict rfl nofun
  | matched hc hd hp => exact ⟨fun _ => Nat.zero_le _, fun _ => Nat.le_of_lt_succ hp, h.stalled_eq⟩
  | passed hc hd hp => exact of_verdict rfl nofun

theorem after (h : t.Bounded) (call : Call) : (t.after call).Bounded := by
  cases call with
  | tick m =>
    cases hv : t.verdict with
    | none => exact h.tick hv m
    | some v =>
      rw [Trial.after, value_tick_verdict hv]
      exact h
  | accept message =>
    obtain ⟨stage, nextLine, pending, others, ha, -⟩ := t.exists_after_accept message
    rw [ha]
    exact h.congr rfl rfl rfl
  | takeOutgoing => exact h.congr rfl rfl rfl
  | afterMove m => exact h.afterMove m

theorem play (h : t.Bounded) (calls : List Call) : (t.play calls).Bounded := by
  induction calls generalizing t with
  | nil => exact h
  | cons call calls ih => exact ih (h.after call)

theorem begin (s : Setup) (o : TrialOptions) : (Trial.begin s o).Bounded :=
  ⟨fun _ => Nat.zero_le _, fun _ => Nat.zero_le _, nofun⟩

end Bounded

/-! ### What a tick and a check leave of a trial -/

/-- The turns that a trial will put up with, with those after a pass that still may match. -/
def turnsLeft (t : Trial) : Nat := 6 - t.reversals + 7 * (1 - t.passes)

/-- The rounds that are left, at most: for every turn the whole way from rail to rail, and the way
to the rail ahead. -/
def roundsLeft (t : Trial) (m : Mechanism) : Nat :=
  turnsLeft t * (4 * (m.setup.model.needleCount + 56)) +
    (toRail m.setup t.sweep m.quarters).toNat + 1

theorem roundsLeft_le (t : Trial) (h : m.Aligned) :
    t.roundsLeft m ≤ 14 * (4 * (m.setup.model.needleCount + 56)) := by
  have ht := toRail_lt h t.sweep
  have hl : turnsLeft t ≤ 13 := by
    unfold turnsLeft
    omega
  have hm := Nat.mul_le_mul_right (4 * (m.setup.model.needleCount + 56)) hl
  unfold roundsLeft
  omega

/-- A turn stands for more than any way to a rail. -/
theorem roundsLeft_le_of_turned (h : m.Aligned) (ht : turnsLeft t' + 1 ≤ turnsLeft t) :
    t'.roundsLeft m ≤ t.roundsLeft m := by
  have hway := toRail_lt h t'.sweep
  have hmul := Nat.mul_le_mul_right (4 * (m.setup.model.needleCount + 56)) ht
  rw [Nat.succ_mul] at hmul
  unfold roundsLeft
  omega

theorem roundsLeft_le_of_kept (hs : t'.sweep = t.sweep) (ht : turnsLeft t' ≤ turnsLeft t) :
    t'.roundsLeft m ≤ t.roundsLeft m := by
  have hmul := Nat.mul_le_mul_right (4 * (m.setup.model.needleCount + 56)) ht
  unfold roundsLeft
  rw [hs]
  omega

/-- The trial turns the carriage before a rail holds it, or gives up. -/
theorem value_turn_cases (hb : t.Bounded) (hv : t.verdict = none) (ha : m.Aligned) :
    (∃ t', (t.turn m).value = (none, t') ∧ t'.verdict = some (.stalled 7)) ∨
      ∃ d reversals, (t.turn m).value = (some d, { t with sweep := d, reversals }) ∧
        m.atRail d = false ∧ roundsLeft { t with sweep := d, reversals } m ≤ t.roundsLeft m := by
  cases hrail : m.atRail t.sweep with
  | false => exact Or.inr ⟨t.sweep, t.reversals, value_turn_of_not hrail, hrail, Nat.le_refl _⟩
  | true =>
    by_cases hl : t.reversals + 1 ≤ reversalLimit
    · refine Or.inr ⟨_, _, value_turn_atRail hrail hl, Mechanism.atRail_reversed hrail,
        roundsLeft_le_of_turned ha ?_⟩
      unfold reversalLimit at hl
      unfold turnsLeft
      dsimp only
      omega
    · have he := value_turn_stalled hrail (Nat.lt_of_not_le hl)
      have hb' := hb.turn hv m
      rw [he] at hb'
      refine Or.inl ⟨_, he, ?_⟩
      rw [hb'.stalled_eq _ rfl]

/-- So does a tick of a trial that knits. -/
theorem value_tick_cases (hb : t.Bounded) (hv : t.verdict = none) (hs : t.stage = .knitting)
    (ha : m.Aligned) :
    (∃ t', (t.tick m).value = (none, t') ∧ t'.verdict = some (.stalled 7)) ∨
      ∃ d t', (t.tick m).value = (some d, t') ∧ t'.stage = .knitting ∧ t'.verdict = none ∧
        t'.sweep = d ∧ m.atRail d = false ∧ t'.roundsLeft m ≤ t.roundsLeft m := by
  obtain ⟨lines, pending, hd⟩ := t.exists_value_deliver
  have hv' : t.deliver.value.verdict = none := by rw [hd]; exact hv
  have hs' : t.deliver.value.stage = .knitting := by rw [hd]; exact hs
  have hb' : t.deliver.value.Bounded := by rw [hd]; exact hb.congr rfl rfl rfl
  have hl : t.deliver.value.roundsLeft m = t.roundsLeft m := by rw [hd]; rfl
  rw [value_tick_knitting hv hs, ← hl]
  rcases value_turn_cases hb' hv' ha with hstall | ⟨d, reversals, he, hr, hle⟩
  · exact Or.inl hstall
  · exact Or.inr ⟨d, _, he, hs', hv', rfl, hr, hle⟩

/-- A check brings the verdict, or leaves no more rounds than before. -/
theorem value_afterMove_cases (t : Trial) (m : Mechanism) :
    (t.afterMove m).value.2.verdict ≠ none ∨
      ((t.afterMove m).value.2.stage = t.stage ∧ (t.afterMove m).value.2.verdict = t.verdict ∧
        (t.afterMove m).value.2.roundsLeft m ≤ t.roundsLeft m) := by
  have hj := t.judged m
  generalize (t.afterMove m).value = r at hj ⊢
  cases hj with
  | idle => exact Or.inr ⟨rfl, rfl, Nat.le_refl _⟩
  | failed hc mismatch => exact Or.inl nofun
  | matched hc hd hp =>
    -- The count of turns starts again, which happens only once.
    refine Or.inr ⟨rfl, rfl, roundsLeft_le_of_kept rfl ?_⟩
    unfold turnsLeft
    dsimp only
    omega
  | passed hc hd hp => exact Or.inl nofun

end Trial

/-! ### Rounds -/

/-- A trial and the mechanism that it moves. -/
structure Sweep where
  trial : Trial
  mechanism : Mechanism

/-- What may come between the parts of a round. -/
inductive Aside
  | accept (message : List UInt8)
  | takeOutgoing
  | latch (r : Register)

/-- What comes before the three parts of a round: the tick, the move that it asks for, and the check
after the move. -/
structure Round where
  beforeTick : List Aside := []
  beforeMove : List Aside := []
  beforeCheck : List Aside := []

namespace Sweep

open Trial

variable {x y z : Sweep} {r : Round} {d : Direction} {v : Verdict}

def aside (x : Sweep) : Aside → Sweep
  | .accept message => { x with trial := x.trial.after (.accept message) }
  | .takeOutgoing => { x with trial := x.trial.after .takeOutgoing }
  | .latch r => { x with mechanism := x.mechanism.latch r }

def asides (x : Sweep) (as : List Aside) : Sweep := as.foldl aside x

def tick (x : Sweep) : Sweep := { x with trial := x.trial.after (.tick x.mechanism) }

def move (x : Sweep) (d : Direction) : Sweep := { x with mechanism := x.mechanism.move d }

def check (x : Sweep) : Sweep := { x with trial := x.trial.after (.afterMove x.mechanism) }

/-- The move that the tick of a round asks for. -/
def asked (x : Sweep) (r : Round) : Option Direction :=
  let y := x.asides r.beforeTick
  (y.trial.tick y.mechanism).value.1

/-- The rest of a round whose tick has asked for a move: the move, and the check after it. -/
def carry (x : Sweep) (r : Round) (d : Direction) : Sweep :=
  (((x.asides r.beforeMove).move d).asides r.beforeCheck).check

/-- One round: a tick and, if it asks for a move, the rest. -/
def round (x : Sweep) (r : Round) : Sweep :=
  let y := (x.asides r.beforeTick).tick
  match x.asked r with
  | none => y
  | some d => y.carry r d

def rounds (x : Sweep) (rs : List Round) : Sweep := rs.foldl round x

/-- What asides leave of a sweep: everything but the conversation and the register. -/
structure Undisturbed (x y : Sweep) : Prop where
  course : x.trial.OnCourse y.trial
  verdict_eq : y.trial.verdict = x.trial.verdict
  stage_eq : x.trial.stage = .knitting → y.trial.stage = .knitting
  mechanism_eq : ∃ r, y.mechanism = x.mechanism.latch r

theorem Undisturbed.refl (x : Sweep) : x.Undisturbed x :=
  ⟨⟨rfl, rfl, rfl, rfl⟩, rfl, id, x.mechanism.register, rfl⟩

theorem Undisturbed.trans (h : x.Undisturbed y) (h' : y.Undisturbed z) : x.Undisturbed z := by
  obtain ⟨hc, hv, hs, r, hm⟩ := h
  obtain ⟨hc', hv', hs', r', hm'⟩ := h'
  refine ⟨⟨hc'.1.trans hc.1, hc'.2.trans hc.2, hc'.3.trans hc.3, hc'.4.trans hc.4⟩, hv'.trans hv,
    hs' ∘ hs, r', ?_⟩
  rw [hm', hm]
  rfl

theorem undisturbed_aside (x : Sweep) (a : Aside) : x.Undisturbed (x.aside a) := by
  cases a with
  | accept message =>
    obtain ⟨stage, nextLine, pending, others, ha, -⟩ := x.trial.exists_after_accept message
    refine ⟨?_, ?_, fun hs => stage_after_accept hs message, x.mechanism.register, rfl⟩
    · rw [aside, ha]
      exact ⟨rfl, rfl, rfl, rfl⟩
    · rw [aside, ha]
  | takeOutgoing => exact ⟨⟨rfl, rfl, rfl, rfl⟩, rfl, id, x.mechanism.register, rfl⟩
  | latch r => exact ⟨⟨rfl, rfl, rfl, rfl⟩, rfl, id, r, rfl⟩

theorem undisturbed_asides (x : Sweep) (as : List Aside) : x.Undisturbed (x.asides as) := by
  induction as generalizing x with
  | nil => exact .refl x
  | cons a as ih => exact (x.undisturbed_aside a).trans (ih (x.aside a))

/-- A sweep under way: the trial knits, within its bounds, and has no verdict. -/
structure Live (x : Sweep) : Prop where
  stage_eq : x.trial.stage = .knitting
  verdict_eq : x.trial.verdict = none
  bounded : x.trial.Bounded
  aligned : x.mechanism.Aligned

/-- What does not depend on the register is undisturbed. -/
theorem Undisturbed.congr {α : Type} (h : x.Undisturbed y) (f : Mechanism → α)
    (hf : ∀ (m : Mechanism) (r : Register), f (m.latch r) = f m) :
    f y.mechanism = f x.mechanism := by
  obtain ⟨r, hm⟩ := h.mechanism_eq
  rw [hm, hf]

theorem Undisturbed.quarters_eq (h : x.Undisturbed y) :
    y.mechanism.quarters = x.mechanism.quarters :=
  h.congr Mechanism.quarters fun _ _ => rfl

theorem Undisturbed.atRail_eq (h : x.Undisturbed y) (d : Direction) :
    y.mechanism.atRail d = x.mechanism.atRail d := by
  apply h.congr (Mechanism.atRail · d)
  intro m r
  cases d <;> rfl

theorem Undisturbed.roundsLeft_eq (h : x.Undisturbed y) :
    y.trial.roundsLeft y.mechanism = x.trial.roundsLeft x.mechanism := by
  have hm := h.congr x.trial.roundsLeft fun _ _ => rfl
  rw [← hm]
  unfold roundsLeft turnsLeft
  rw [h.course.sweep_eq, h.course.passes_eq, h.course.reversals_eq]

theorem Undisturbed.live (h : x.Undisturbed y) (hx : x.Live) : y.Live := by
  obtain ⟨hc, hv, hs, r, hm⟩ := h
  refine ⟨hs hx.stage_eq, hv.trans hx.verdict_eq,
    hx.bounded.congr hv hc.reversals_eq hc.passes_eq, ?_⟩
  rw [hm]
  exact Mechanism.aligned_latch hx.aligned r

namespace Live

theorem asides (h : x.Live) (as : List Aside) : (x.asides as).Live :=
  (x.undisturbed_asides as).live h

theorem tick (h : x.Live) :
    ((x.trial.tick x.mechanism).value.1 = none ∧ x.tick.trial.verdict = some (.stalled 7)) ∨
      ∃ d, (x.trial.tick x.mechanism).value.1 = some d ∧ x.mechanism.atRail d = false ∧
        x.tick.trial.sweep = d ∧ x.tick.Live ∧
        x.tick.trial.roundsLeft x.tick.mechanism ≤ x.trial.roundsLeft x.mechanism := by
  have hb : x.tick.trial.Bounded := h.bounded.after (.tick x.mechanism)
  have hx : x.tick = { x with trial := (x.trial.tick x.mechanism).value.2 } := rfl
  rcases value_tick_cases h.bounded h.verdict_eq h.stage_eq h.aligned with
    ⟨t', ht, hv⟩ | ⟨d, t', ht, hst, hv, hs, hr, hle⟩
  · rw [hx, ht]
    exact Or.inl ⟨rfl, hv⟩
  · rw [hx, ht] at hb ⊢
    exact Or.inr ⟨d, rfl, hr, hs, ⟨hst, hv, hb, h.aligned⟩, hle⟩

/-- A move to where the trial sends the carriage brings it on by a quarter. -/
theorem move (h : x.Live) (hs : x.trial.sweep = d) (hr : x.mechanism.atRail d = false) :
    (x.move d).Live ∧
      (x.move d).trial.roundsLeft (x.move d).mechanism + 1 ≤ x.trial.roundsLeft x.mechanism := by
  subst hs
  refine ⟨⟨h.stage_eq, h.verdict_eq, h.bounded, Mechanism.aligned_move h.aligned _⟩, ?_⟩
  have hpos := toRail_pos hr
  have hstep := toRail_step x.mechanism.setup x.trial.sweep x.mechanism.quarters
  rw [← Mechanism.quarters_move_of_not_atRail h.aligned hr] at hstep
  unfold roundsLeft Sweep.move
  dsimp only
  rw [Mechanism.setup_move, hstep]
  omega

theorem check (h : x.Live) :
    x.check.trial.verdict ≠ none ∨ (x.check.Live ∧
      x.check.trial.roundsLeft x.check.mechanism ≤ x.trial.roundsLeft x.mechanism) := by
  rcases x.trial.value_afterMove_cases x.mechanism with hv | ⟨hs, hv, hle⟩
  · exact Or.inl hv
  · exact Or.inr ⟨⟨hs.trans h.stage_eq, hv.trans h.verdict_eq,
      h.bounded.after (.afterMove x.mechanism), h.aligned⟩, hle⟩

/-- The rest of a round brings the carriage on by a quarter and the cam with it, and brings the
verdict or leaves a round less to go. -/
theorem carry (h : x.Live) (hs : x.trial.sweep = d) (hr : x.mechanism.atRail d = false)
    (r : Round) :
    (x.carry r d).mechanism.quarters = x.mechanism.quarters + d.step ∧
      ((x.carry r d).mechanism.phase : Int) = (x.mechanism.phase + d.step) % x.mechanism.span ∧
      ((x.carry r d).trial.verdict ≠ none ∨ ((x.carry r d).Live ∧
        (x.carry r d).trial.roundsLeft (x.carry r d).mechanism + 1 ≤
          x.trial.roundsLeft x.mechanism)) := by
  have u := x.undisturbed_asides r.beforeMove
  have hy := h.asides r.beforeMove
  have hry : (x.asides r.beforeMove).mechanism.atRail d = false := (u.atRail_eq d).trans hr
  obtain ⟨hz, hlt⟩ := hy.move (u.course.sweep_eq.trans hs) hry
  have hq := Mechanism.quarters_move_of_not_atRail hy.aligned hry
  have hp := Mechanism.phase_move_of_not_atRail hy.aligned hry
  have w := ((x.asides r.beforeMove).move d).undisturbed_asides r.beforeCheck
  refine ⟨?_, ?_, ?_⟩
  · calc (x.carry r d).mechanism.quarters
        = ((x.asides r.beforeMove).move d).mechanism.quarters := w.quarters_eq
      _ = (x.asides r.beforeMove).mechanism.quarters + d.step := hq
      _ = x.mechanism.quarters + d.step := by rw [u.quarters_eq]
  · calc ((x.carry r d).mechanism.phase : Int)
        = ((x.asides r.beforeMove).move d).mechanism.phase :=
          congrArg Int.ofNat (w.congr Mechanism.phase fun _ _ => rfl)
      _ = ((x.asides r.beforeMove).mechanism.phase + d.step) %
          (x.asides r.beforeMove).mechanism.span := hp
      _ = (x.mechanism.phase + d.step) % x.mechanism.span := by
        rw [u.congr Mechanism.phase fun _ _ => rfl, u.congr Mechanism.span fun _ _ => rfl]
  · rcases (hz.asides r.beforeCheck).check with hv | ⟨hl, hle⟩
    · exact Or.inl hv
    · refine Or.inr ⟨hl, ?_⟩
      rw [w.roundsLeft_eq] at hle
      rw [u.roundsLeft_eq] at hlt
      exact Nat.le_trans (Nat.succ_le_succ hle) hlt

/-- A round of a sweep under way: the trial stalls, or the carriage comes on by a quarter, and there
is a verdict or a round less to go. -/
theorem round (h : x.Live) (r : Round) :
    (x.asked r = none ∧ (x.round r).trial.verdict = some (.stalled 7)) ∨
      ∃ d, x.asked r = some d ∧ x.mechanism.atRail d = false ∧
        (x.round r).mechanism.quarters = x.mechanism.quarters + d.step ∧
        ((x.round r).mechanism.phase : Int) = (x.mechanism.phase + d.step) % x.mechanism.span ∧
        ((x.round r).trial.verdict ≠ none ∨ ((x.round r).Live ∧
          (x.round r).trial.roundsLeft (x.round r).mechanism + 1 ≤
            x.trial.roundsLeft x.mechanism)) := by
  have u := x.undisturbed_asides r.beforeTick
  rcases (h.asides r.beforeTick).tick with ⟨ha, hv⟩ | ⟨d, ha, hr, hs, hl, hle⟩
  · have he : x.round r = (x.asides r.beforeTick).tick := by
      rw [Sweep.round, asked, ha]
    rw [he]
    exact Or.inl ⟨ha, hv⟩
  · have he : x.round r = (x.asides r.beforeTick).tick.carry r d := by
      rw [Sweep.round, asked, ha]
    obtain ⟨hq, hp, hc⟩ := hl.carry hs hr r
    rw [u.roundsLeft_eq] at hle
    rw [he]
    refine Or.inr ⟨d, ha, (u.atRail_eq d).symm.trans hr, ?_, ?_, ?_⟩
    · rw [hq, ← u.quarters_eq]
      rfl
    · rw [hp, ← u.congr Mechanism.phase fun _ _ => rfl, ← u.congr Mechanism.span fun _ _ => rfl]
      rfl
    · exact hc.imp_right fun ⟨hlive, hlt⟩ => ⟨hlive, Nat.le_trans hlt hle⟩

end Live

/-- A verdict stands through all rounds to come. -/
theorem verdict_round (hv : x.trial.verdict = some v) (r : Round) :
    (x.round r).trial.verdict = some v := by
  have hv₁ := (x.undisturbed_asides r.beforeTick).verdict_eq.trans hv
  have ht := value_tick_verdict hv₁ (x.asides r.beforeTick).mechanism
  rw [Sweep.round, asked, ht]
  exact verdict_after hv₁ (.tick _)

theorem rounds_concat (x : Sweep) (rs : List Round) (r : Round) :
    x.rounds (rs ++ [r]) = (x.rounds rs).round r := List.foldl_append

/-- As long as there is no verdict, the rounds that have been made are no longer to go. -/
theorem Live.rounds (h : x.Live) (rs : List Round) (hv : (x.rounds rs).trial.verdict = none) :
    (x.rounds rs).Live ∧ (x.rounds rs).trial.roundsLeft (x.rounds rs).mechanism + rs.length ≤
      x.trial.roundsLeft x.mechanism := by
  induction rs using List.reverseRecOn with
  | nil => exact ⟨h, Nat.le_refl _⟩
  | append_singleton rs r ih =>
    rw [rounds_concat] at hv ⊢
    cases hv' : (x.rounds rs).trial.verdict with
    | some v =>
      rw [verdict_round hv' r] at hv
      cases hv
    | none =>
      obtain ⟨hl, hle⟩ := ih hv'
      rcases hl.round r with ⟨-, hs⟩ | ⟨d, -, -, -, -, hn | ⟨hl', hlt⟩⟩
      · rw [hs] at hv
        cases hv
      · exact absurd hv hn
      · refine ⟨hl', ?_⟩
        rw [List.length_append, List.length_singleton]
        omega

/-- All that a round does to a trial is among its calls. -/
theorem bounded_round (h : x.trial.Bounded) (r : Round) : (x.round r).trial.Bounded := by
  have asides {y : Sweep} (hy : y.trial.Bounded) (as : List Aside) :
      (y.asides as).trial.Bounded := by
    have u := y.undisturbed_asides as
    exact hy.congr u.verdict_eq u.course.reversals_eq u.course.passes_eq
  have ht : (x.asides r.beforeTick).tick.trial.Bounded := (asides h _).after (.tick _)
  rw [Sweep.round]
  cases x.asked r with
  | none => exact ht
  | some d =>
    have hm : (((x.asides r.beforeTick).tick.asides r.beforeMove).move d).trial.Bounded :=
      asides ht r.beforeMove
    exact (asides hm r.beforeCheck).after (.afterMove _)

theorem bounded_rounds (h : x.trial.Bounded) (rs : List Round) : (x.rounds rs).trial.Bounded := by
  induction rs generalizing x with
  | nil => exact h
  | cons r rs ih => exact ih (bounded_round h r)

/-- From wherever a trial has come to knitting and wherever its carriage has come to, and whatever
messages arrive between the parts of its rounds: there is a verdict after so many rounds. Before it
each round moves the carriage by one quarter and turns the cam along, never against a rail, but for
the one that ends in a stall. And a stall is always told with seven turns. -/
theorem rounds_end (s : Setup) (o : TrialOptions) (calls : List Call)
    (hs : List Mechanism.Handling) (hstage : ((begin s o).play calls).stage = .knitting)
    (hverdict : ((begin s o).play calls).verdict = none) :
    let x : Sweep := ⟨(begin s o).play calls, Mechanism.handled s hs⟩
    (∀ rs : List Round, 14 * 4 * (s.model.needleCount + 56) ≤ rs.length →
      (x.rounds rs).trial.verdict ≠ none) ∧
    (∀ (rs : List Round) (r : Round), (x.rounds rs).trial.verdict = none →
      let y := x.rounds rs
      let z := y.round r
      (y.asked r = none ∧ z.trial.verdict = some (.stalled 7)) ∨
        ∃ d, y.asked r = some d ∧ y.mechanism.atRail d = false ∧
          z.mechanism.quarters = y.mechanism.quarters + d.step ∧
          (z.mechanism.phase : Int) = (y.mechanism.phase + d.step) % y.mechanism.span) ∧
    (∀ rs n, (x.rounds rs).trial.verdict = some (.stalled n) → n = 7) ∧
    ∀ more n, ((begin s o).play more).verdict = some (.stalled n) → n = 7 := by
  intro x
  have hc := Mechanism.Counts.handled s hs
  have hb : ((begin s o).play calls).Bounded := (Bounded.begin s o).play calls
  have hx : x.Live := ⟨hstage, hverdict, hb, hc.aligned⟩
  have hle := x.trial.roundsLeft_le hx.aligned
  rw [show x.mechanism.setup = s from hc.setup_eq] at hle
  refine ⟨fun rs hl hv => ?_, fun rs r hv => ?_,
    fun rs n => (Sweep.bounded_rounds hb rs).stalled_eq n,
    fun more n => ((Bounded.begin s o).play more).stalled_eq n⟩
  · have hpos : 0 < (x.rounds rs).trial.roundsLeft (x.rounds rs).mechanism := Nat.succ_pos _
    have hlast := (hx.rounds rs hv).2
    omega
  · rcases (hx.rounds rs hv).1.round r with hstall | ⟨d, ha, hr, hq, hp, -⟩
    · exact Or.inl hstall
    · exact Or.inr ⟨d, ha, hr, hq, hp⟩

/-- The controller is ready, and the trial has begun to knit. -/
def begunKnitting : List Call :=
  [.tick (Mechanism.initial .standard), .accept (Message.cnfInit 0),
    .accept (StateReport.message ⟨0, StateReport.ready, 1650, 1650, 0xFF, 0, 0xFF⟩)]

/-- The verdict comes even if the controller never asks for a line. -/
theorem rounds_end_unasked :
    ((begin .standard {}).play begunKnitting).stage = .knitting ∧
      ((begin .standard {}).play begunKnitting).verdict = none ∧
      (Sweep.rounds ⟨(begin .standard {}).play begunKnitting, Mechanism.handled .standard []⟩
        (List.replicate (14 * 4 * 256) {})).trial.verdict ≠ none := by
  have hs : ((begin .standard {}).play begunKnitting).stage = .knitting := by decide +kernel
  have hv : ((begin .standard {}).play begunKnitting).verdict = none := by decide +kernel
  refine ⟨hs, hv, (rounds_end .standard {} begunKnitting [] hs hv).1 _ ?_⟩
  rw [List.length_replicate]
  exact Nat.le_refl _

end Sweep

end KnitBench
