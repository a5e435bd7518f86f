import KnitBench.Bench.Run
import KnitBench.Proofs.Bench.Opening
import KnitBench.Proofs.Bench.Return

/-! How a trial ends: with both passes matched, or with the first one at which the pattern is not
what was expected. -/

namespace KnitBench.Bench

open ReferenceController Trial

variable {b : Bench ReferenceController} {s : Setup} {o : TrialOptions}

/-- The bench of a trial before its first step. -/
def opened (s : Setup) (o : TrialOptions) (tracing : Bool) : Bench ReferenceController :=
  ((assemble s (powerOn s.model)).withTrial o).setTracing tracing

/-- In every trial controller and trial agree on what is to be knitted. -/
theorem opened_reaches_agreed (s : Setup) (o : TrialOptions) (tracing : Bool) :
    Reaches (Phase fun m c t => t = agreed s o ∧ Idling s .knitting [] m c) 8
      (opened s o tracing) := by
  refine Steady.reaches (n := 0) (k := 3) (μ := fun _ => 0) (steady_opening s o)
    (fun _ _ => rfl) (fun _ _ _ _ => Nat.le_refl 0) ?_
    ⟨0, .begin s o, by decide, .initial s s.model o tracing, rfl, .initial s⟩
  rintro t b ht ⟨rfl, hi⟩
  exact Or.inl (reaches_agreed ht hi)

/-- Every trial comes to compare its first pass. -/
theorem opened_reaches (s : Setup) (tracing : Bool) (hdelay : o.delay < patience) :
    Reaches (Compared s o s.side.firstDirection 0) 11382 (opened s o tracing) := by
  refine ((opened_reaches_agreed s o tracing).trans fun b hb => ?_ : Reaches _ (8 + 11374) _)
  exact (LeadIn.reaches (leadIn_of_agreed hb hdelay)).trans fun b hb => Crossing.reaches hb hdelay

/-- A trial that goes on after a pass comes to compare the next one. -/
theorem compared_reaches {d : Direction} {p : Nat} (h : Phase (Leaving s o d p) b)
    (hdelay : o.delay < patience) : Reaches (Compared s o d.reversed (p + 1)) 16493 b := by
  refine ((Leaving.reaches h).trans fun b hb => ?_ : Reaches _ (5121 + 11372) b)
  exact (Returning.reaches hb).trans fun b hb => Crossing.reaches hb hdelay

/-- The trial says how its run ended. -/
theorem result_runTrial (s : Setup) (o : TrialOptions) (tracing : Bool) (journal : Journal) :
    (runTrial s o tracing journal).result =
      ((opened s o tracing).run trialLimit journal).result := by
  unfold runTrial opened
  dsimp only
  split <;> rfl

/-- A verdict reached in time is the verdict of the trial. -/
theorem result_runTrial_of_reaches {tracing : Bool} {v : Verdict} {n : Nat}
    (h : Reaches (fun b => b.step.value.1 = .ok (.finished v)) n (opened s o tracing))
    (hn : n < trialLimit) (journal : Journal) :
    (runTrial s o tracing journal).result = .ok (.finished v) := by
  rw [result_runTrial]
  exact h.result_run hn journal

/-- A trial with a delay of no more than ten ticks always comes to its verdict. If the pattern and
the one expected agree over the range, both passes match. Otherwise the first pass does not, and the
report tells the first needle that differs and how many do. -/
theorem result_runTrial_eq (s : Setup) (o : TrialOptions) (tracing : Bool) (journal : Journal)
    (hdelay : o.delay ≤ 10) :
    ((∀ k ≤ s.stop - s.start, o.pattern.needleAt k = o.expected.needleAt k) →
      (runTrial s o tracing journal).result = .ok (.finished (.passed 2))) ∧
    ∀ first ≤ s.stop - s.start, o.pattern.needleAt first ≠ o.expected.needleAt first →
      (∀ k < first, o.pattern.needleAt k = o.expected.needleAt k) →
      (runTrial s o tracing journal).result = .ok (.finished (.mismatched {
        row := 0
        direction := s.side.firstDirection
        start := s.start
        needle := s.start + first
        expected := rangeText s o.expected
        actual := rangeText s o.pattern
        count := (List.range (s.stop - s.start + 1)).countP fun k =>
          o.pattern.needleAt k != o.expected.needleAt k })) := by
  have hpatience : o.delay < patience := Nat.lt_succ_of_le hdelay
  have hopened := opened_reaches (o := o) s tracing hpatience
  constructor
  · intro hagree
    have hfirst : judgement s o 0 s.side.firstDirection = none :=
      judgement_of_agree hagree 0 _
    have hsecond : judgement s o 1 s.side.firstDirection.reversed = some (.passed 2) :=
      judgement_of_agree hagree 1 _
    have hverdict := (hopened.trans fun b hb =>
      compared_reaches ((Compared.of_none hfirst).mp hb) hpatience).imp fun b hb =>
        (Compared.of_some hsecond).mp hb
    exact result_runTrial_of_reaches hverdict (by unfold trialLimit; omega) journal
  · intro first hle hne hfirst
    have hj := judgement_of_differ hle hne hfirst 0 s.side.firstDirection
    rw [differing, ← List.countP_eq_length_filter] at hj
    exact result_runTrial_of_reaches (hopened.imp fun b hb => (Compared.of_some hj).mp hb)
      (by unfold trialLimit; omega) journal

/-- Every third needle. -/
def thirds : Pattern := ⟨#[.selected, .idle, .idle], by decide⟩

theorem result_runTrial_standard :
    ({} : TrialOptions).delay ≤ 10 ∧
      (runTrial .standard {} false ⟨none, #[]⟩).result = .ok (.finished (.passed 2)) ∧
      ∃ mismatch, (runTrial .standard { expected := thirds } false ⟨none, #[]⟩).result =
          .ok (.finished (.mismatched mismatch)) ∧
        mismatch.row = 0 ∧ mismatch.needle = 2 ∧ mismatch.count = 99 := by
  have hpassed := (result_runTrial_eq .standard {} false ⟨none, #[]⟩ (by decide)).1 fun _ _ => rfl
  have hmismatched := (result_runTrial_eq .standard { expected := thirds } false ⟨none, #[]⟩
    (by decide)).2 2 (by decide) (by decide) (by decide)
  exact ⟨by decide, hpassed, _, hmismatched, rfl, rfl, by decide +kernel⟩

end KnitBench.Bench
