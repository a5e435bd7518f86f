import KnitBench.Proofs.Bench.Crossing

/-! The opening of a trial: before the carriage makes its first move, controller and trial have
agreed on what is to be knitted. Then the carriage comes in to the first pass. -/

namespace KnitBench.Bench

open ReferenceController Trial

variable {b : Bench ReferenceController} {s : Setup} {o : TrialOptions} {n : Nat} {m : Mechanism}
  {c c' : ReferenceController} {t : Trial} {mode mode' : Mode} {ms ms' : List (List UInt8)}

/-- Mechanism and controller before the first move. The messages `ms` wait at the controller. -/
structure Idling (s : Setup) (mode : Mode) (ms : List (List UInt8)) (m : Mechanism)
    (c : ReferenceController) : Prop where
  wired : Wired m c
  coming : Coming s m c
  quarters_eq : m.quarters = 4 * s.initialPosition
  queues : c.Queues ms
  mode_eq : c.mode = mode
  line_eq : c.line = {}
  range_eq : mode = .knitting → c.start = s.start ∧ c.stop = s.stop

namespace Idling

theorem initial (s : Setup) :
    Idling s .idle [] (.initial s)
      (Controller.raiseLevels (Mechanism.initial s).levels (powerOn s.model)) := by
  have hw := Wired.initial s s.model
  have hc := Coming.initial s
  rw [raiseLevels_eq] at hw hc ⊢
  exact ⟨hw, hc, by simp [Mechanism.quarters, Mechanism.initial], Carries.nil, rfl, rfl, nofun⟩

theorem worked (h : Idling s mode ms m c) : c.worked = c.tracked := by
  refine worked_eq_tracked (by rw [h.line_eq]) fun hr => ?_
  rw [h.line_eq] at hr
  cases hr

theorem queues_worked (h : Idling s mode ms m c) : c.worked.Queues ms := by
  rw [h.worked]
  exact h.queues

/-- A slice of time sends what waits, and changes nothing else. -/
theorem slice (h : Idling s mode ms m c) :
    Idling s mode [] (m.latch c.worked.wantedRegister) (c.sliced m.hall) := by
  have hs : c.sliced m.hall = { c.tracked with
      register := some c.worked.wantedRegister, outbox := #[], hall := m.hall } := by
    rw [sliced, h.worked]
  refine ⟨h.wired.toAttached.slice, ?_, h.quarters_eq, queues_sliced .., ?_, ?_, ?_⟩
  · refine h.coming.slice h.wired h.wired.aligned h.coming.setup_eq (Or.inl rfl)
      h.coming.short h.coming.setup_eq rfl ?_ rfl ?_ <;> rw [hs]
    · rfl
    · rw [h.wired.seeing_self]
  all_goals rw [hs]
  · exact h.mode_eq
  · exact h.line_eq
  · exact h.range_eq

theorem shown (h : Idling s mode ms m c) (stale : Bool) : Idling s mode ms { m with stale } c :=
  ⟨h.wired.shown stale, ⟨h.coming.1, h.coming.2, h.coming.3, h.coming.4, h.coming.5, h.coming.6⟩,
    h.quarters_eq, h.queues, h.mode_eq, h.line_eq, h.range_eq⟩

/-- The controller is told its machine. -/
theorem told_reqInit (h : Idling s .idle [] m c) :
    ∃ report : StateReport, report.error = 0 ∧
      Idling s .ready [Message.cnfInit 0, report.message] m (c.told [Message.reqInit s.model]) := by
  obtain ⟨report, lamp0, outbox, hr, hv, hq⟩ := exists_value_reqInit h.queues s.model
  have ha := answers_onMessage c (Message.reqInit s.model)
  rw [told_cons, told_nil]
  refine ⟨report, hr, h.wired.answers ha, h.coming.answers ha ?_, h.quarters_eq, hq, ?_, ?_, nofun⟩
  all_goals rw [hv]

/-- The controller is asked to knit. -/
theorem told_reqStart (h : Idling s .ready [] m c) :
    Idling s .knitting [Message.cnfStart 0, Message.reqLine 0] m
      (c.told [Message.reqStart (UInt8.ofNat s.start) (UInt8.ofNat s.stop) 0]) := by
  obtain ⟨lamp0, outbox, hv, hq⟩ := exists_value_reqStart_range h.queues h.mode_eq
    h.coming.model_eq
  have ha := answers_onMessage c
    (Message.reqStart (UInt8.ofNat s.start) (UInt8.ofNat s.stop) 0)
  rw [told_cons, told_nil]
  refine ⟨h.wired.answers ha, h.coming.answers ha ?_, h.quarters_eq, hq, ?_, ?_, fun _ => ?_⟩
  all_goals rw [hv]
  · exact h.coming.model_eq
  · exact ⟨rfl, rfl⟩

/-- The first line is asked for well before the carriage comes to the range. -/
theorem leadIn (h : Idling s .knitting [] m c) (hn : n ≤ 17) (hs : t.setup = s)
    (ho : t.options = o) (hst : t.stage = .knitting) (hv : t.verdict = none) (hl : t.nextLine = 1)
    {w : Nat} (hp : t.pending = [(w, 0)]) (hw : w < n) (hout : t.outgoing = [])
    (hb : Bound s.side.firstDirection 0 t) :
    LeadIn s o m c t ∧ 0 < s.shortOf m.quarters s.entry := by
  have hshort := s.shortOf_entry_initial
  rw [← h.quarters_eq] at hshort
  have hi : c.line.index = 0 := by rw [h.line_eq]
  have hr : c.line.ready = false := by rw [h.line_eq]
  have hserv : Serving s o n (s.carriage ≠ .garter) t c := by
    refine ⟨h.coming.model_eq, h.mode_eq, (h.range_eq rfl).1, (h.range_eq rfl).2,
      by rw [h.line_eq], hs, ho, hst, hv, by rw [hl, hi]; rfl,
      .waiting w hw hr (by rw [hp, hi]) hout, fun _ hsent => ?_⟩
    rcases hsent with hsent | hsent
    · exact nomatch hr.symm.trans hsent
    · exact absurd hout hsent
  exact ⟨⟨⟨h.wired, h.queues, h.coming.setup_eq, hserv.mono (by omega), hout⟩, h.coming,
    by rw [h.line_eq], hb⟩, by omega⟩

end Idling

/-- Before its first tick a trial waits. -/
theorem steady_opening (s : Setup) (o : TrialOptions) :
    Steady fun m c t => t = .begin s o ∧ Idling s .idle [] m c := by
  rintro m c t ⟨rfl, h⟩
  exact ⟨rfl, h.wired.toAttached, h.queues_worked, rfl, h.slice⟩

/-- The trial when controller and trial have agreed: the first line has been asked for. -/
def agreed (s : Setup) (o : TrialOptions) : Trial :=
  { Trial.begin s o with stage := .knitting, nextLine := 1, pending := [(o.delay, 0)] }

/-- With the first tick the trial tells the controller its machine; then it asks the controller to
knit, and the controller asks for the first line. -/
theorem reaches_agreed (hb : Timed 5 (.begin s o) b)
    (h : Idling s .idle [] b.mechanism b.controller) :
    Reaches (Phase fun m c t => t = agreed s o ∧ Idling s .knitting [] m c) 3 b := by
  obtain ⟨stale, b₁, hs₁, ht₁, hm₁, hc₁⟩ := hb.tick_rest
    (value_tick_opening rfl rfl b.mechanism) h.wired.toAttached h.queues_worked nofun (heard_nil _)
    (by simpa [Trial.begin] using Message.fits_reqInit s.model)
  obtain ⟨report, hr, hi₁⟩ := h.slice.told_reqInit
  replace hi₁ := hi₁.shown stale
  change b₁.controller = told _ [Message.reqInit s.model] at hc₁
  rw [← hc₁] at hi₁
  change Idling s .ready _ { b.mechanism with
    stale, register := b.controller.worked.wantedRegister } b₁.controller at hi₁
  rw [← hm₁] at hi₁
  obtain ⟨b₂, hs₂, ht₂, hm₂, hc₂⟩ := ht₁.rest (by decide) hi₁.wired.toAttached hi₁.queues_worked
    (by simpa using And.intro (Message.fits_cnfInit 0) (Message.fits_report report))
    (heard_report rfl hr) (by simpa using Message.fits_reqStart _ _ _)
  have hi₂ := hi₁.slice.told_reqStart
  rw [← hm₂] at hi₂
  change b₂.controller = told (b₁.controller.sliced b₁.mechanism.hall)
    [Message.reqStart (UInt8.ofNat s.start) (UInt8.ofNat s.stop) 0] at hc₂
  rw [← hc₂] at hi₂
  obtain ⟨b₃, hs₃, ht₃, hm₃, hc₃⟩ := ht₂.rest (by decide) hi₂.wired.toAttached hi₂.queues_worked
    (by simpa using And.intro (Message.fits_cnfStart 0) (Message.fits_reqLine 0))
    ((heard_cnfStart rfl _).trans (heard_reqLine rfl rfl)) nofun
  have hi₃ := hi₂.slice
  rw [← hm₃] at hi₃
  change b₃.controller = sliced _ _ at hc₃
  rw [← hc₃] at hi₃
  exact .step hs₁ (.step hs₂ (.step hs₃ ⟨3, agreed s o, by decide, ht₃, rfl, hi₃⟩))

/-- The carriage has not set out when controller and trial agree. -/
theorem leadIn_of_agreed (h : Phase (fun m c t => t = agreed s o ∧ Idling s .knitting [] m c) b)
    (hdelay : o.delay < patience) :
    Phase (fun m c t => LeadIn s o m c t ∧ 0 < s.shortOf m.quarters s.entry) b := by
  obtain ⟨j, t, hj, ht, rfl, hi⟩ := h
  exact ⟨j, _, hj, ht,
    hi.leadIn (by decide) rfl rfl rfl rfl rfl rfl hdelay rfl ⟨rfl, rfl, rfl⟩⟩

namespace LeadIn

/-- At the entry the line is there, and a slice of time later the pass has begun. -/
theorem crossing (h : LeadIn s o m c t) (hx : s.shortOf m.quarters s.entry = 0) :
    Crossing s o s.side.firstDirection 0 (m.latch c.worked.wantedRegister) (c.sliced m.hall) t := by
  obtain ⟨-, -, -, hs⟩ := h.rest
  have hbet : Between s o 0 (s.carriage ≠ .garter) (m.latch c.worked.wantedRegister)
      (c.sliced m.hall) t := by
    have hb := hs.between
    have hz : s.shortOf (m.latch c.worked.wantedRegister).quarters s.entry = 0 := hx
    rwa [hz] at hb
  obtain ⟨hk, hd⟩ := h.coming.known h.between.wired (Setup.eq_of_shortOf hx)
  refine Crossing.of_known hbet ?_ ?_ (hbet.serving.ready hbet.outgoing_eq) hs.worked_eq
    (fun k => Setup.reach_of_shortOf (k := k) (Int.le_of_eq hx.symm)) h.bound
  all_goals rw [sliced, h.worked]
  · exact ⟨hk.1, hk.2, hk.3, hk.4⟩
  · exact hd

theorem shortOf_le (h : LeadIn s o m c t) : s.shortOf m.quarters s.entry ≤ 1200 := by
  have hb := h.between.wired.aligned.position_bounds
  have hp := m.position_eq
  have hn := s.model.needleCount_le
  rw [h.between.setup_eq] at hb
  unfold Setup.shortOf Setup.entry Setup.arrival Setup.tellingMagnet Setup.firstMagnet
  cases s.side <;> cases s.carriage <;> simp only [Side.firstDirection, Direction.step] <;> omega

/-- From wherever it starts, the carriage comes to the first pass. -/
theorem reaches
    (h : Phase (fun m c t => LeadIn s o m c t ∧ 0 < s.shortOf m.quarters s.entry) b) :
    Reaches (Phase (Crossing s o s.side.firstDirection 0)) 6007 b := by
  refine Steady.reaches (n := 1200) (k := 2) (μ := fun m => (s.shortOf m.quarters s.entry).toNat)
    ?_ (fun _ _ => rfl) ?_ ?_ h
  · rintro m c t ⟨hc, hpos⟩
    obtain ⟨ho, ha, hq, hs⟩ := hc.rest
    exact ⟨ho, ha, hq, hs, hpos⟩
  · rintro m c t ⟨hc, -⟩
    have hle := hc.shortOf_le
    omega
  · rintro t b ht ⟨hc, hpos⟩
    obtain ⟨b₁, t₁, hs₁, ht₁, hc₁, hq₁⟩ := hc.tick ht hpos
    by_cases hx : s.shortOf b₁.mechanism.quarters s.entry = 0
    · left
      obtain ⟨b₂, hs₂, ht₂, -, hm₂, hk₂⟩ :=
        Steady.rest (F := LeadIn s o) (fun _ _ _ hc => hc.rest) ht₁ (by decide) hc₁
      refine .step hs₁ (.step hs₂ ⟨2, t₁, by decide, ht₂, ?_⟩)
      rw [hm₂, hk₂]
      exact hc₁.crossing hx
    · right
      exact ⟨b₁, t₁, hs₁, ht₁, ⟨hc₁, by omega⟩, by omega⟩

end LeadIn

end KnitBench.Bench
