import KnitBench.Proofs.Bench.Beyond

/-! A pass of the trial: the pattern's line is knitted while the selector crosses the range, and at
the move that takes the selector out of the range the controller asks for the next line. -/

namespace KnitBench.Bench

open ReferenceController Trial

variable {b : Bench ReferenceController} {s : Setup} {o : TrialOptions} {n p : Nat}
  {fresh : Prop} {m m' : Mechanism} {c c' : ReferenceController} {t : Trial} {d : Direction}

/-- Whether the pattern's line selects a needle. -/
def asked (s : Setup) (o : TrialOptions) (k : Int) : Bool := (patternLine s o).selects k.toNat

/-- The pass in direction `d` after `p` others: the controller holds the line, and what the selector
has left behind is as the line asks. -/
structure Crossing (s : Setup) (o : TrialOptions) (d : Direction) (p : Nat) (m : Mechanism)
    (c : ReferenceController) (t : Trial) : Prop where
  between : Between s o 0 (s.carriage ≠ .garter) m c t
  underway : Underway d m c
  direction_eq : c.tracker.direction = some d
  shaped : m.Shaped d s.start s.stop (asked s o)
  commanded : m.Commanded d s.start s.stop (asked s o)
  bound : Bound d p t

/-- Behind the selector the pattern has been knitted. -/
theorem knitted_of_shaped (h : m.Shaped d s.start s.stop (asked s o))
    (hp : ∀ k : Nat, s.start ≤ k → k ≤ s.stop →
      0 ≤ d.step * (m.setup.selectorAt d m.quarters - k)) : Knitted s o m.needles := by
  intro k hk
  have hle := s.start_le_stop
  have hlt := s.stop_lt_needleCount
  have hn : s.model.needleCount ≤ 8 * LineBitmap.size := by
    cases s.model <;> decide
  rw [h.needle (s.start + k) (by omega) (by omega) (hp _ (by omega) (by omega)), asked,
    Int.toNat_natCast, patternLine, LineBitmap.selects_ofCells _ _ _ (by omega),
    LineBitmap.wants_cells _ (by omega)]
  cases o.pattern.needleAt k <;> rfl

theorem step_mul_of_leftRange (hs : c.start = s.start) (hp : c.stop = s.stop) {selected : Int}
    (hl : c.leftRange selected d = true) {k : Nat} (hk : s.start ≤ k) (hk' : k ≤ s.stop) :
    0 ≤ d.step * (selected - k) := by
  cases d <;> simp only [leftRange, hs, hp, decide_eq_true_iff] at hl <;>
    simp only [Direction.step] <;> omega

namespace Crossing

/-- The pass begins as soon as carriage and line are there, the range still ahead. -/
theorem of_known (h : Between s o n (s.carriage ≠ .garter) m c t) (hk : Known m c)
    (hd : c.tracker.direction = some d) (hr : c.line.ready = true) (hw : c.line.worked = none)
    (hreach : ∀ k : Int, (s.start : Int) ≤ k → k ≤ s.stop → s.reach d m.quarters k ≤ 0)
    (hb : Bound d p t) : Crossing s o d p m c t := by
  obtain ⟨hbits, hpe, hou⟩ := h.serving.holding hr
  have hse := h.setup_eq
  refine ⟨{ h with serving := { h.serving with supply := .holding hr hbits hpe hou } },
    ⟨hk, h.serving.mode_eq, hr, ?_, Or.inl ⟨hw, ?_⟩⟩, hd, Mechanism.shaped_of_reach_le ?_, ?_, hb⟩
  · rw [h.serving.start_eq, h.serving.stop_eq]
    exact s.start_le_stop
  · rw [hse]
    exact ahead_of_reach h.serving.start_eq h.serving.stop_eq hreach (by omega)
  · intro k hk₀ hk₁
    have hle := hreach k hk₀ hk₁
    rw [hse]
    omega
  · intro k hk₀ hk₁ h₁ _
    have hle := hreach k hk₀ hk₁
    rw [hse] at h₁
    omega

theorem not_past (h : Crossing s o d p m c t) :
    c.leftRange (s.selectorAt d m.quarters) d = false := by
  rw [← h.between.setup_eq]
  rcases h.underway.entered with ⟨-, ha⟩ | ⟨-, hl⟩
  · exact leftRange_of_ahead h.underway.start_le ha
  · exact hl

theorem stop_lt (h : Crossing s o d p m c t) : c.stop < m.setup.model.needleCount := by
  rw [h.between.setup_eq, h.between.serving.stop_eq]
  exact s.stop_lt_needleCount

theorem atRail_eq (h : Crossing s o d p m c t) : m.atRail d = false := by
  refine Mechanism.atRail_of_not_past (c := c) ?_ h.stop_lt
  rw [h.between.setup_eq]
  exact h.not_past

theorem onward (h : Crossing s o d p m c t) : Onward d m (m.move d) c :=
  .move h.between.wired.aligned h.atRail_eq

theorem quarters_move (h : Crossing s o d p m c t) :
    (m.move d).quarters = m.quarters + d.step :=
  Mechanism.quarters_move_of_not_atRail h.between.wired.aligned h.atRail_eq

theorem shaped_move (h : Crossing s o d p m c t) :
    (m.move d).Shaped d s.start s.stop (asked s o) := by
  refine Mechanism.shaped_move h.shaped h.commanded h.between.wired.aligned h.quarters_move ?_
  rw [h.between.setup_eq]
  exact s.stop_lt_needleCount

/-- A slice of time within the pass. -/
theorem slice (h : Crossing s o d p m c t) (ho : Onward d m m' c)
    (hs : m'.Shaped d s.start s.stop (asked s o))
    (hl : c.leftRange (s.selectorAt d m'.quarters) d = false) :
    (c.seeing m'.levels).worked.Queues [] ∧
      Crossing s o d p (m'.latch (c.seeing m'.levels).worked.wantedRegister)
        ((c.seeing m'.levels).sliced m'.hall) t := by
  have hbet := h.between
  have hse := ho.setup_eq.trans hbet.setup_eq
  obtain ⟨hu, hheld, hd, hcom, hq⟩ := h.underway.slice hbet.wired ho hbet.empty
    (by rw [hse]; exact hl)
  rw [hbet.serving.start_eq, hbet.serving.stop_eq,
    (hbet.serving.holding h.underway.ready_eq).1] at hcom
  refine ⟨hq, ⟨(ho.attached hbet.wired.toAttached).slice, queues_sliced .., hse, ?_,
    hbet.outgoing_eq⟩, hu, hd, Mechanism.shaped_latch hs _, hcom, h.bound⟩
  have hempty : (c.seeing m'.levels).Queues [] := hbet.empty
  exact hbet.serving.congr_controller (model_sliced hempty _) hheld.mode_eq hheld.start_eq
    hheld.stop_eq hheld.line_eq

theorem rest (h : Crossing s o d p m c t) :
    t.outgoing = [] ∧ Attached m c ∧ c.worked.Queues [] ∧
      Crossing s o d p (m.latch c.worked.wantedRegister) (c.sliced m.hall) t := by
  have ho : Onward d m m c := .still h.between.wired.aligned h.direction_eq
  have hs := h.slice ho h.shaped h.not_past
  rw [h.between.wired.seeing_self] at hs
  exact ⟨h.between.outgoing_eq, h.between.wired.toAttached, hs⟩

/-- While the controller holds its line, a tick of the trial is a move. -/
theorem value_tick (h : Crossing s o d p m c t) : (t.tick m).value = (some d, t) := by
  have hserv := h.between.serving
  have hpe := (hserv.holding h.underway.ready_eq).2.1
  have ht : { t with pending := [] } = t := by rw [← hpe]
  rw [value_tick_knitting hserv.verdict_eq hserv.stage_eq, value_deliver_nil hpe, ht,
    value_turn_of_not (by rw [h.bound.sweep_eq]; exact h.atRail_eq), h.bound.sweep_eq]

/-- A tick within the pass. -/
theorem tick_within (h : Crossing s o d p b.mechanism b.controller t) (hb : Timed 5 t b)
    (hl : b.controller.leftRange (s.selectorAt d (b.mechanism.quarters + d.step)) d = false) :
    ∃ b' t', b.step.value = (.ok .running, b') ∧ Timed 1 t' b' ∧
      Crossing s o d p b'.mechanism b'.controller t' ∧
      b'.mechanism.quarters = b.mechanism.quarters + d.step := by
  have hbet := h.between
  have hserv := hbet.serving
  have hq := h.quarters_move
  have hs := h.shaped_move
  rw [← hq] at hl
  have hm := hserv.value_afterMove hbet.setup_eq h.bound.passDirection_eq hl
  have hqueues := (h.slice h.onward hs hl).1
  have hfits : ∀ m ∈ t.outgoing, Wire.Fits m := by simp [hbet.outgoing_eq]
  have hout : { t with outgoing := [] } = t := by rw [← hbet.outgoing_eq]
  obtain ⟨stale, b', hstep, htime, hm', hc'⟩ := hb.tick_move h.value_tick hm
    hbet.wired.toAttached hqueues nofun (heard_nil _) hfits
  rw [hout] at htime
  rw [hbet.outgoing_eq, told_nil] at hc'
  refine ⟨b', t, hstep, htime, ?_, ?_⟩
  · rw [hm', hc']
    exact (h.slice (h.onward.shown stale) ⟨hs.1, hs.2⟩ hl).2
  · rw [hm', ← hq]
    rfl

/-- When the selector leaves the range, the controller asks for its next line. -/
theorem finish (h : Crossing s o d p m c t) (ho : Onward d m m' c)
    (hl : c.leftRange (s.selectorAt d m'.quarters) d = true) :
    let c' := (c.seeing m'.levels).sliced m'.hall
    (c.seeing m'.levels).worked.Queues [Message.reqLine (c.line.index + 1)] ∧
      (∀ n fresh t', o.delay < n → Serving s o (o.delay + 1) fresh t' c' → t'.outgoing = [] →
        t'.sweep = d → Beyond s o d n fresh
          (m'.latch (c.seeing m'.levels).worked.wantedRegister) c' t') ∧
      ∀ t₂, t.Agrees t₂ → ∃ t', heard (some t₂) [Message.reqLine (c.line.index + 1)] =
          .ok (some t') ∧ t'.outgoing = [] ∧
        (t₂.verdict = none → (∀ fresh, Serving s o (o.delay + 1) fresh t' c') ∧
          t' = { t₂ with nextLine := t'.nextLine, pending := t'.pending }) := by
  intro c'
  have hbet := h.between
  have hse := ho.setup_eq.trans hbet.setup_eq
  obtain ⟨hk, hd, hmode, hstart, hstop, hline, hq⟩ := h.underway.finish hbet.wired ho hbet.empty
    (by rw [hse]; exact hl) hbet.serving.last_eq
  refine ⟨hq, ?_, ?_⟩
  · intro n fresh t' hn hserv hout hsweep
    have hwired := (ho.attached hbet.wired.toAttached).slice
    have hleft : c'.leftRange (s.selectorAt d m'.quarters) d = true := by
      unfold leftRange at hl ⊢
      rw [hstart, hstop]
      exact hl
    exact ⟨⟨hwired, queues_sliced .., hse, hserv.mono hn, hout⟩, hk, hd, by rw [hline], hleft,
      hsweep⟩
  · intro t₂ ha
    have hempty : (c.seeing m'.levels).Queues [] := hbet.empty
    have hmod : c'.model = c.model := model_sliced hempty _
    obtain ⟨t', hh, hout, hrest⟩ := hbet.serving.request h.underway.ready_eq ha hmod
      (hmode.trans hbet.serving.mode_eq.symm) hstart hstop hline
    exact ⟨t', hh, hout, hrest⟩

/-- The tick that takes the selector out of the range, when it brings a verdict. -/
theorem tick_verdict (h : Crossing s o d p b.mechanism b.controller t) (hb : Timed 5 t b)
    (hl : b.controller.leftRange (s.selectorAt d (b.mechanism.quarters + d.step)) d = true)
    {v : Verdict} {t₂ : Trial} (hm : (t.afterMove (b.mechanism.move d)).value = (some v, t₂)) :
    b.step.value.1 = .ok (.finished v) := by
  rw [← h.quarters_move] at hl
  obtain ⟨hqueues, -, hheard⟩ := h.finish h.onward hl
  have hagree := t.agrees_afterMove (b.mechanism.move d)
  rw [hm] at hagree
  obtain ⟨t', hh, hout, -⟩ := hheard t₂ hagree
  exact hb.tick_verdict h.value_tick hm h.between.wired.toAttached hqueues
    (by simpa using Message.fits_reqLine _) hh (by simp [hout])

/-- The tick that takes the selector out of the range, when it brings no verdict. -/
theorem tick_out (h : Crossing s o d p b.mechanism b.controller t) (hb : Timed 5 t b)
    (hl : b.controller.leftRange (s.selectorAt d (b.mechanism.quarters + d.step)) d = true)
    {t₂ : Trial} (hm : (t.afterMove (b.mechanism.move d)).value = (none, t₂))
    (hv : t₂.verdict = none) (hsweep : t₂.sweep = d) :
    ∃ stale register nextLine pending b', b.step.value = (.ok .running, b') ∧
      Timed 1 { t₂ with nextLine, pending } b' ∧
      b'.mechanism = { b.mechanism.move d with stale, register } ∧
      ∀ n fresh, o.delay < n →
        Beyond s o d n fresh b'.mechanism b'.controller { t₂ with nextLine, pending } := by
  rw [← h.quarters_move] at hl
  obtain ⟨hqueues, -, hheard⟩ := h.finish h.onward hl
  have hagree := t.agrees_afterMove (b.mechanism.move d)
  rw [hm] at hagree
  obtain ⟨t', hh, hout, hrest⟩ := hheard t₂ hagree
  obtain ⟨hserv, ht'⟩ := hrest hv
  obtain ⟨stale, b', hstep, htime, hm', hc'⟩ := hb.tick_move h.value_tick hm
    h.between.wired.toAttached hqueues (by simpa using Message.fits_reqLine _) hh (by simp [hout])
  have hcleared : { t' with outgoing := [] } = t' := by rw [← hout]
  rw [hcleared] at htime
  rw [hout, told_nil] at hc'
  refine ⟨stale, _, t'.nextLine, t'.pending, b', hstep, ?_, hm', fun n fresh hn => ?_⟩
  · rw [← ht']
    exact htime
  · rw [← ht', hm', hc']
    exact (h.finish (h.onward.shown stale) hl).2.1 n fresh t' hn (hserv fresh) hout
      (by rw [ht']; exact hsweep)

/-- The selector leaves the range with the pattern knitted. -/
theorem knitted (h : Crossing s o d p m c t)
    (hl : c.leftRange (s.selectorAt d (m.quarters + d.step)) d = true) :
    Knitted s o (m.move d).needles := by
  have hbet := h.between
  refine knitted_of_shaped h.shaped_move fun k hk hk' => ?_
  rw [Mechanism.setup_move, hbet.setup_eq, h.quarters_move]
  exact step_mul_of_leftRange hbet.serving.start_eq hbet.serving.stop_eq hl hk hk'

/-- With most carriages the pass is compared as soon as the selector leaves the range. -/
theorem tick_compare (h : Crossing s o d p b.mechanism b.controller t) (hb : Timed 5 t b)
    (hl : b.controller.leftRange (s.selectorAt d (b.mechanism.quarters + d.step)) d = true)
    (hg : s.carriage ≠ .garter) (hdelay : o.delay < patience) :
    Reaches (Compared s o d p) 1 b := by
  have hserv := h.between.serving
  have hq := h.quarters_move
  have hpd := h.bound.passDirection_eq
  have hpast : t.pastRange (b.mechanism.move d).selected = true := by
    have hc : t.clearance = 0 := by
      unfold clearance
      rw [hserv.setup_eq, if_neg hg]
    rw [selected_move_eq, hq, h.between.setup_eq]
    unfold pastRange
    rw [hc, hserv.setup_eq, hpd]
    cases d <;> simp only [leftRange, hserv.start_eq, hserv.stop_eq, decide_eq_true_iff] at hl ⊢ <;>
      omega
  have hdel := hserv.delivered hg (Or.inl h.underway.ready_eq)
  obtain ⟨hfst, hsnd⟩ := value_afterMove hserv.setup_eq hserv.options_eq (h.knitted hl)
    hserv.verdict_eq hserv.stage_eq hdel hpd.symm hpast
  rw [h.bound.passes_eq, hpd] at hfst hsnd
  generalize hv : (t.afterMove (b.mechanism.move d)).value = after at hfst hsnd
  obtain ⟨v?, t₂⟩ := after
  cases hj : judgement s o p d with
  | some v =>
    rw [hj] at hfst
    subst hfst
    exact .now ((Compared.of_some hj).mpr (h.tick_verdict hb hl hv)) 1
  | none =>
    rw [hj] at hfst
    subst hfst
    obtain rfl := hsnd hj
    obtain ⟨stale, register, nextLine, pending, b', hstep, htime, -, hbey⟩ :=
      h.tick_out hb hl hv hserv.verdict_eq h.bound.sweep_eq
    exact .step hstep ((Compared.of_none hj).mpr
      ⟨1, _, by decide, htime, hbey patience _ hdelay, rfl, rfl, rfl⟩)

/-- A garter carriage goes on. -/
theorem tick_clearing (h : Crossing s o d p b.mechanism b.controller t) (hb : Timed 5 t b)
    (hl : b.controller.leftRange (s.selectorAt d (b.mechanism.quarters + d.step)) d = true)
    (hg : s.carriage = .garter) (hdelay : o.delay < patience) :
    Reaches (Phase (Clearing s o d p)) 1 b := by
  have hserv := h.between.serving
  have hq := h.quarters_move
  have hpd := h.bound.passDirection_eq
  -- the selector is at the first needle beyond the range
  have hway : patience ≤ clearingWay s d (b.mechanism.quarters + d.step) := by
    have hnp := h.not_past
    have hst := s.selectorAt_step d b.mechanism.quarters
    have hsel (x : Int) : s.selectorAt d x = x / 4 := by
      unfold Setup.selectorAt Carriage.selectOffset
      rw [hg]
      cases d <;> simp only [Carriage.homePosition, Direction.step] <;> omega
    simp only [hsel] at hl hnp hst
    unfold clearingWay garterClearance patience
    cases d <;>
      simp only [leftRange, hserv.start_eq, hserv.stop_eq, decide_eq_true_iff,
        decide_eq_false_iff_not] at hl hnp <;>
      simp only [Direction.step] at hl hst ⊢ <;> omega
  have hm : (t.afterMove (b.mechanism.move d)).value = (none, t) := by
    refine value_afterMove_of_not fun hpast => ?_
    have hpr := pastRange_garter hserv.setup_eq hg hpd (b.mechanism.quarters + d.step)
    rw [← hq, ← h.between.setup_eq, ← selected_move_eq, hpast.2, h.between.setup_eq, hq] at hpr
    have hle := of_decide_eq_true hpr.symm
    unfold patience at hway
    omega
  obtain ⟨stale, register, nextLine, pending, b', hstep, htime, hm', hbey⟩ :=
    h.tick_out hb hl hm hserv.verdict_eq h.bound.sweep_eq
  have hq' : b'.mechanism.quarters = b.mechanism.quarters + d.step := by
    rw [hm', ← hq]
    rfl
  refine .step hstep ⟨1, _, by decide, htime, hbey _ True ?_, hg, ?_, hpd, h.bound.passes_eq, ?_⟩
  · rw [hq']
    omega
  · rw [hq']
    unfold patience at hway
    omega
  · rw [hm']
    exact h.knitted hl

/-- However wide the range, the pass comes to be compared. -/
theorem reaches (h : Phase (Crossing s o d p) b) (hdelay : o.delay < patience) :
    Reaches (Compared s o d p) 5367 b := by
  have hout : Reaches (fun b => Compared s o d p b ∨ Phase (Clearing s o d p) b) 5121 b := by
    refine Steady.reaches (n := 1023) (k := 1) (μ := fun m => (toRail s d m.quarters).toNat)
      (fun _ _ _ hc => hc.rest) (fun _ _ => rfl) ?_ ?_ h
    · intro m c t hc
      have hle := toRail_le hc.between.wired.aligned d
      rw [hc.between.setup_eq] at hle
      omega
    intro t b ht hc
    cases hl : b.controller.leftRange (s.selectorAt d (b.mechanism.quarters + d.step)) d with
    | true =>
      left
      by_cases hg : s.carriage = .garter
      · exact (hc.tick_clearing ht hl hg hdelay).imp fun _ => Or.inr
      · exact (hc.tick_compare ht hl hg hdelay).imp fun _ => Or.inl
    | false =>
      right
      obtain ⟨b', t', hs, ht', hc', hq⟩ := hc.tick_within ht hl
      have hstep := toRail_step s d b.mechanism.quarters
      have hpos := toRail_pos hc.atRail_eq
      rw [hc.between.setup_eq] at hpos
      refine ⟨b', t', hs, ht', hc', ?_⟩
      rw [hq]
      omega
  refine Reaches.trans (k := 246) hout fun b hb => ?_
  rcases hb with hb | hb
  · exact .now hb _
  · exact Clearing.reaches hb

end Crossing

end KnitBench.Bench
