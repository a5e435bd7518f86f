import KnitBench.Proofs.Trial.Acceptance
import KnitBench.Proofs.Trial.Judgement

/-! The course of a trial, whatever is asked of it and in whatever order: the lines that it has made
ready, and the passes that it has compared. No trial passes without two passes of matching needles,
one in each direction, and each with a line delivered before it. -/

namespace KnitBench.Trial

/-- What may be asked of a trial. -/
inductive Call
  | tick (m : Mechanism)
  | accept (message : List UInt8)
  | takeOutgoing
  | afterMove (m : Mechanism)

variable {s : Setup} {o : TrialOptions} {t t' : Trial} {m : Mechanism} {call : Call} {v : Verdict}
  {es : List (List UInt8)} {message : List UInt8} {d : Direction}

/-- The trial after a call. -/
def after (t : Trial) : Call → Trial
  | .tick m => (t.tick m).value.2
  | .accept message => (t.hear message).value.2
  | .takeOutgoing => t.takeOutgoing.2
  | .afterMove m => (t.afterMove m).value.2

/-- The trial after several calls. -/
def play (t : Trial) (calls : List Call) : Trial := calls.foldl after t

theorem play_append (t : Trial) (calls more : List Call) :
    t.play (calls ++ more) = (t.play calls).play more :=
  List.foldl_append

/-! ### What one call does -/

theorem Takes.after_eq (h : t.Takes message t') : t.after (.accept message) = t' := by
  rw [after, h.hear_eq]

/-- A message is taken, or it changes nothing. -/
theorem takes_after_accept (t : Trial) (message : List UInt8) :
    t.Takes message (t.after (.accept message)) ∨ t.after (.accept message) = t := by
  rcases t.takes_or_refuses message with ⟨t', ht⟩ | ⟨fault, hr⟩
  · rw [ht.after_eq]
    exact Or.inl ht
  · rw [after, hr]
    exact Or.inr rfl

/-- Of the requests in a queue, those at its front whose time has come are answered. -/
theorem value_answerDue (q : List (Nat × UInt8)) (t : Trial) :
    (answerDue q t).value = { t with
      pending := q.dropWhile (·.1 == 0)
      outgoing := t.outgoing ++ (q.takeWhile (·.1 == 0)).map fun r => t.answer r.2
      lineDelivered := t.lineDelivered || !(q.takeWhile (·.1 == 0)).isEmpty } := by
  induction q generalizing t with
  | nil => simp [answerDue]
  | cons request rest ih =>
    obtain ⟨delay, line⟩ := request
    cases delay with
    | zero =>
      change (answerDue rest _).value = _
      rw [ih]
      simp only [beq_self_eq_true, List.dropWhile_cons_of_pos, List.takeWhile_cons_of_pos,
        List.map_cons, List.append_assoc, List.singleton_append, List.isEmpty_cons, Bool.not_false,
        Bool.or_true, Bool.true_or]
      rfl
    | succ delay => simp [answerDue]

/-- Answering due requests makes a line ready for each of them. -/
theorem exists_value_answerDue (q : List (Nat × UInt8)) (t : Trial) :
    ∃ (lines : List UInt8) (pending : List (Nat × UInt8)), (answerDue q t).value = { t with
      pending
      outgoing := t.outgoing ++ lines.map t.answer
      lineDelivered := t.lineDelivered || !lines.isEmpty } := by
  refine ⟨(q.takeWhile (·.1 == 0)).map Prod.snd, q.dropWhile (·.1 == 0), ?_⟩
  rw [value_answerDue, List.map_map, List.isEmpty_map]
  rfl

theorem exists_value_deliver (t : Trial) :
    ∃ (lines : List UInt8) (pending : List (Nat × UInt8)), t.deliver.value = { t with
      pending
      outgoing := t.outgoing ++ lines.map t.answer
      lineDelivered := t.lineDelivered || !lines.isEmpty } :=
  exists_value_answerDue _ t

/-- Turning brings a move, or the end of the trial. -/
theorem exists_value_turn (t : Trial) (m : Mechanism) :
    (∃ sweep reversals, (t.turn m).value = (some sweep, { t with sweep, reversals })) ∨
      ∃ sweep reversals, (t.turn m).value =
        (none, { t with sweep, reversals, verdict := some (.stalled reversals) }) := by
  cases hr : m.atRail t.sweep with
  | false => exact Or.inl ⟨t.sweep, t.reversals, value_turn_of_not hr⟩
  | true =>
    by_cases hl : t.reversals + 1 ≤ reversalLimit
    · exact Or.inl ⟨_, _, value_turn_atRail hr hl⟩
    · exact Or.inr ⟨_, _, value_turn_stalled hr (Nat.lt_of_not_le hl)⟩

/-- What a tick may leave behind: the answer of the tick, and the trial after it. `lines` are the
messages with lines that it has made ready. -/
inductive Ticked (t : Trial) : List (List UInt8) → Option Direction × Trial → Prop
  /-- Before the carriage sweeps, only a message of another kind may be made ready. -/
  | waiting (stage : Stage) (others : List (List UInt8))
      (ho : ∀ m ∈ others, m.head? ≠ some Message.Code.cnfLine.byte) :
      Ticked t [] (none, { t with stage, outgoing := t.outgoing ++ others })
  | moving (lines : List UInt8) (pending : List (Nat × UInt8)) (sweep : Direction)
      (reversals : Nat) :
      Ticked t (lines.map t.answer) (some sweep, { t with
        pending, sweep, reversals
        outgoing := t.outgoing ++ lines.map t.answer
        lineDelivered := t.lineDelivered || !lines.isEmpty })
  | stalling (lines : List UInt8) (pending : List (Nat × UInt8)) (sweep : Direction)
      (reversals : Nat) :
      Ticked t (lines.map t.answer) (none, { t with
        pending, sweep, reversals
        outgoing := t.outgoing ++ lines.map t.answer
        lineDelivered := t.lineDelivered || !lines.isEmpty
        verdict := some (.stalled reversals) })

theorem ticked (hv : t.verdict = none) (m : Mechanism) :
    ∃ lines, Ticked t lines (t.tick m).value := by
  cases hs : t.stage with
  | opening =>
    rw [value_tick_opening hv hs]
    exact ⟨[], .waiting .awaiting [Message.reqInit t.setup.model]
      fun m hm => by rw [List.mem_singleton.mp hm]; exact nofun⟩
  | awaiting =>
    rw [value_tick_awaiting hv hs]
    have ht := Ticked.waiting (t := t) t.stage [] nofun
    rw [List.append_nil] at ht
    exact ⟨[], ht⟩
  | knitting =>
    rw [value_tick_knitting hv hs]
    obtain ⟨lines, pending, hd⟩ := t.exists_value_deliver
    refine ⟨lines.map t.answer, ?_⟩
    rcases t.deliver.value.exists_value_turn m with ⟨sweep, reversals, ht⟩ | ⟨sweep, reversals, ht⟩
    · rw [ht, hd]
      exact .moving lines pending sweep reversals
    · rw [ht, hd]
      exact .stalling lines pending sweep reversals

/-- A message may bring the conversation on; what it makes ready delivers no line. -/
theorem exists_after_accept (t : Trial) (message : List UInt8) :
    ∃ stage nextLine pending others, t.after (.accept message) = { t with
        stage, nextLine, pending, outgoing := t.outgoing ++ others } ∧
      ∀ m ∈ others, m.head? ≠ some Message.Code.cnfLine.byte := by
  have same : ∃ stage nextLine pending others, t = { t with
      stage, nextLine, pending, outgoing := t.outgoing ++ others } ∧
        ∀ m ∈ others, m.head? ≠ some Message.Code.cnfLine.byte :=
    ⟨t.stage, t.nextLine, t.pending, [], by rw [List.append_nil], nofun⟩
  have h := t.takes_after_accept message
  generalize t.after (.accept message) = t' at h ⊢
  rcases h with ht | rfl
  · cases ht with
    | remark | initialised | healthy | started => exact same
    | ready =>
      refine ⟨.knitting, t.nextLine, t.pending, _, rfl, fun m hm => ?_⟩
      rw [List.mem_singleton.mp hm]
      exact nofun
    | requested => exact ⟨t.stage, _, _, [], by rw [List.append_nil], nofun⟩
  · exact same

/-- Once a trial has come to knitting, no message takes it back. -/
theorem stage_after_accept (hs : t.stage = .knitting) (message : List UInt8) :
    (t.after (.accept message)).stage = .knitting := by
  have h := t.takes_after_accept message
  generalize t.after (.accept message) = t' at h ⊢
  rcases h with ht | rfl
  · cases ht with
    | ready => rfl
    | remark | initialised | healthy | started | requested => exact hs
  · exact hs

/-- A move has completed a pass of a trial under way, so that its needles are compared. -/
structure Completes (t : Trial) (m : Mechanism) : Prop where
  verdict_eq : t.verdict = none
  delivered : t.lineDelivered = true
  direction_eq : m.direction = t.passDirection
  past : t.pastRange m.selected = true

/-- What may come of a move: the verdict, if it is reached now, and the trial after it. -/
inductive Judged (t : Trial) (m : Mechanism) : Option Verdict × Trial → Prop
  | idle : Judged t m (none, t)
  | failed (hc : t.Completes m) (mismatch : Mismatch) :
      Judged t m (some (.mismatched mismatch), { t with
        lineDelivered := false, passDirection := t.passDirection.reversed, reversals := 0
        verdict := some (.mismatched mismatch) })
  | matched (hc : t.Completes m) (hd : t.differences m.needles = []) (hp : t.passes + 1 < 2) :
      Judged t m (none, { t with
        passes := t.passes + 1
        lineDelivered := false, passDirection := t.passDirection.reversed, reversals := 0 })
  | passed (hc : t.Completes m) (hd : t.differences m.needles = []) (hp : 2 ≤ t.passes + 1) :
      Judged t m (some (.passed (t.passes + 1)), { t with
        passes := t.passes + 1
        lineDelivered := false, passDirection := t.passDirection.reversed, reversals := 0
        verdict := some (.passed (t.passes + 1)) })

theorem judged (t : Trial) (m : Mechanism) : Judged t m (t.afterMove m).value := by
  unfold afterMove
  split
  · rename_i h
    obtain ⟨hv, -, hl, hd, hp⟩ := h
    have hc : t.Completes m := ⟨Option.isNone_iff_eq_none.mp hv, hl, hd, hp⟩
    rw [Logged.value_bind, checkPass]
    cases hm : t.mismatch? m.needles with
    | some mismatch => exact .failed hc mismatch
    | none =>
      have hn : t.differences m.needles = [] := by
        unfold mismatch? at hm
        split at hm
        · assumption
        · cases hm
      simp only [Logged.value_bind, Logged.value_pure]
      by_cases hw : passesWanted ≤ t.passes + 1
      · rw [if_pos hw]
        exact .passed hc hn hw
      · rw [if_neg hw]
        exact .matched hc hn (Nat.lt_of_not_le hw)
  · exact .idle

/-- A verdict stands, and nothing is done any more. -/
theorem value_afterMove_verdict (hv : t.verdict = some v) (m : Mechanism) :
    (t.afterMove m).value = (none, t) := by
  have hj := t.judged m
  generalize (t.afterMove m).value = r at hj
  cases hj with
  | idle => rfl
  | failed hc | matched hc | passed hc =>
    rw [hc.verdict_eq] at hv
    cases hv

/-- Without a line there is nothing to compare. -/
theorem value_afterMove_of_undelivered (hl : t.lineDelivered = false) (m : Mechanism) :
    (t.afterMove m).value = (none, t) := by
  have hj := t.judged m
  generalize (t.afterMove m).value = r at hj
  cases hj with
  | idle => rfl
  | failed hc | matched hc | passed hc =>
    have hd := hc.delivered
    rw [hl] at hd
    cases hd

theorem verdict_after (hv : t.verdict = some v) (call : Call) :
    (t.after call).verdict = some v := by
  cases call with
  | tick m =>
    rw [after, value_tick_verdict hv]
    exact hv
  | accept message =>
    obtain ⟨stage, nextLine, pending, others, ha, -⟩ := t.exists_after_accept message
    rw [ha]
    exact hv
  | takeOutgoing => exact hv
  | afterMove m =>
    rw [after, value_afterMove_verdict hv]
    exact hv

theorem verdict_play (hv : t.verdict = some v) (calls : List Call) :
    (t.play calls).verdict = some v := by
  induction calls generalizing t with
  | nil => exact hv
  | cons call calls ih => exact ih (verdict_after hv call)

/-! ### The course -/

/-- What can be seen of a trial in its course. -/
inductive Event
  /-- A message that delivers a line has been made ready. -/
  | delivered (message : List UInt8)
  /-- The needles of a mechanism have been compared. -/
  | compared (m : Mechanism)

/-- Whether a message delivers a line. -/
def deliversLine (message : List UInt8) : Bool :=
  message.head? == some Message.Code.cnfLine.byte

/-- The messages that a call makes ready. -/
def readied (t : Trial) (call : Call) : List (List UInt8) :=
  (t.after call).outgoing.drop t.outgoing.length

/-- Whether a move has the needles compared: the pass then counts, or brings the verdict. -/
def compares (t : Trial) (m : Mechanism) : Bool :=
  (t.afterMove m).value.2.passes != t.passes || (t.afterMove m).value.1.isSome

/-- What is compared in a call. -/
def comparedIn (t : Trial) : Call → List Event
  | .afterMove m => if t.compares m then [.compared m] else []
  | .tick _ | .accept _ | .takeOutgoing => []

/-- What happens in a call. -/
def events (t : Trial) (call : Call) : List Event :=
  ((t.readied call).filter deliversLine).map .delivered ++ t.comparedIn call

/-- What happens in several calls, oldest first. -/
def course (t : Trial) : List Call → List Event
  | [] => []
  | call :: calls => t.events call ++ (t.after call).course calls

theorem deliversLine_answer (t : Trial) (line : UInt8) : deliversLine (t.answer line) = true := rfl

theorem filter_deliversLine_answers (t : Trial) (lines : List UInt8) :
    (lines.map t.answer).filter deliversLine = lines.map t.answer := by
  refine List.filter_eq_self.mpr fun m hm => ?_
  obtain ⟨line, -, rfl⟩ := List.mem_map.mp hm
  exact t.deliversLine_answer line

theorem filter_deliversLine_others (h : ∀ m ∈ es, m.head? ≠ some Message.Code.cnfLine.byte) :
    es.filter deliversLine = [] := by
  refine List.filter_eq_nil_iff.mpr fun m hm => ?_
  rw [deliversLine, beq_iff_eq]
  exact h m hm

theorem readied_of_outgoing_eq (call : Call) (h : (t.after call).outgoing = t.outgoing ++ es) :
    t.readied call = es := by
  rw [readied, h, List.drop_left]

theorem events_accept (t : Trial) (message : List UInt8) : t.events (.accept message) = [] := by
  obtain ⟨stage, nextLine, pending, others, ha, ho⟩ := t.exists_after_accept message
  have hr : t.readied (.accept message) = others := readied_of_outgoing_eq _ (by rw [ha])
  rw [events, hr, filter_deliversLine_others ho]
  rfl

theorem events_takeOutgoing (t : Trial) : t.events .takeOutgoing = [] := by
  have hr : t.readied .takeOutgoing = [] := List.drop_nil
  rw [events, hr]
  rfl

theorem readied_afterMove (t : Trial) (m : Mechanism) : t.readied (.afterMove m) = [] := by
  apply readied_of_outgoing_eq
  rw [List.append_nil]
  exact (t.agrees_afterMove m).outgoing_eq

theorem events_afterMove (t : Trial) (m : Mechanism) :
    t.events (.afterMove m) = t.comparedIn (.afterMove m) := by
  rw [events, readied_afterMove]
  rfl

/-- After the verdict nothing happens. -/
theorem events_verdict (hv : t.verdict = some v) (call : Call) : t.events call = [] := by
  cases call with
  | tick m =>
    have hr : t.readied (.tick m) = [] := by
      apply readied_of_outgoing_eq
      rw [after, value_tick_verdict hv, List.append_nil]
    rw [events, hr]
    rfl
  | accept message => exact t.events_accept message
  | takeOutgoing => exact t.events_takeOutgoing
  | afterMove m =>
    rw [events_afterMove, comparedIn, compares, value_afterMove_verdict hv]
    simp

/-- The selector has left the range on the far side of direction `d`, by the clearance that the
carriage needs. -/
def Beyond (s : Setup) (d : Direction) (selected : Int) : Prop :=
  let clearance : Nat := if s.carriage = .garter then garterClearance else 0
  match d with
  | .right => (s.stop : Int) + clearance < selected
  | .left => selected < (s.start : Int) - clearance

theorem beyond_of_pastRange {selected : Int} (h : t.pastRange selected = true) :
    Beyond t.setup t.passDirection selected := by
  unfold pastRange at h
  unfold Beyond
  cases hd : t.passDirection <;> rw [hd] at h <;> exact of_decide_eq_true h

/-- The carriage has passed over the range in direction `d`, and every needle of the range is as it
is expected, the mechanism having as many needles as its model. -/
structure Matching (s : Setup) (o : TrialOptions) (d : Direction) (m : Mechanism) : Prop where
  direction_eq : m.direction = d
  beyond : Beyond s d m.selected
  needles_eq : m.needles.size = s.model.needleCount → ∀ k, s.start ≤ k → k ≤ s.stop →
    m.needles[k]? = some (o.expected.needleAt (k - s.start))

theorem Completes.matching (h : t.Completes m) (hn : t.differences m.needles = []) :
    Matching t.setup t.options t.passDirection m := by
  refine ⟨h.direction_eq, beyond_of_pastRange h.past, ?_⟩
  intro hm k hk hk'
  have hlt := t.setup.stop_lt_needleCount
  have told (o : Nat) (ho : o ≤ t.setup.stop - t.setup.start) :
      m.needles[t.setup.start + o]? = some (m.needles[t.setup.start + o]?.getD .idle) := by
    rw [Array.getElem?_eq_getElem (by omega)]
    rfl
  rw [differences_eq told] at hn
  have ho : k - t.setup.start ≤ t.setup.stop - t.setup.start := by omega
  have he := List.filter_eq_nil_iff.mp hn _ (List.mem_range.mpr (Nat.lt_succ_of_le ho))
  have hneedle := told _ ho
  rw [Nat.add_sub_cancel' hk] at he hneedle
  rw [bne_iff_ne, ne_eq, not_not] at he
  rw [hneedle, he]

/-- How far a trial has come with its passes, and what has happened until then. -/
inductive Progress (s : Setup) (o : TrialOptions) (t : Trial) : List Event → Prop
  | first (lines : List (List UInt8)) (hv : t.verdict = none) (hp : t.passes = 0)
      (hd : t.passDirection = s.side.firstDirection)
      (hl : t.lineDelivered = true → lines ≠ []) : Progress s o t (lines.map .delivered)
  | second (lines lines' : List (List UInt8)) (m : Mechanism) (hne : lines ≠ [])
      (hm : Matching s o s.side.firstDirection m) (hv : t.verdict = none) (hp : t.passes = 1)
      (hd : t.passDirection = s.side.firstDirection.reversed)
      (hl : t.lineDelivered = true → lines' ≠ []) :
      Progress s o t (lines.map .delivered ++ .compared m :: lines'.map .delivered)
  | passed (lines lines' : List (List UInt8)) (m m' : Mechanism) (hne : lines ≠ [])
      (hne' : lines' ≠ []) (hm : Matching s o s.side.firstDirection m)
      (hm' : Matching s o s.side.firstDirection.reversed m') (hv : t.verdict = some (.passed 2)) :
      Progress s o t
        (lines.map .delivered ++ .compared m :: (lines'.map .delivered ++ [.compared m']))
  | failed (events : List Event) (v : Verdict) (hv : t.verdict = some v)
      (hn : ∀ rows, v ≠ .passed rows) : Progress s o t events

namespace Progress

variable {events : List Event}

/-- Only the passes and the verdict matter, and whether a line has been delivered. -/
theorem congr (h : Progress s o t events) (hv : t'.verdict = t.verdict)
    (hp : t'.passes = t.passes) (hd : t'.passDirection = t.passDirection)
    (hl : t'.lineDelivered = t.lineDelivered) : Progress s o t' events := by
  cases h with
  | first lines hv₀ hp₀ hd₀ hl₀ =>
    exact .first lines (hv.trans hv₀) (hp.trans hp₀) (hd.trans hd₀) (hl ▸ hl₀)
  | second lines lines' m hne hm hv₀ hp₀ hd₀ hl₀ =>
    exact .second lines lines' m hne hm (hv.trans hv₀) (hp.trans hp₀) (hd.trans hd₀) (hl ▸ hl₀)
  | passed lines lines' m m' hne hne' hm hm' hv₀ =>
    exact .passed lines lines' m m' hne hne' hm hm' (hv.trans hv₀)
  | failed _ v hv₀ hn => exact .failed _ v (hv.trans hv₀) hn

/-- Lines are made ready for the pass under way. -/
theorem deliver (h : Progress s o t events) (hv : t.verdict = none) (hv' : t'.verdict = none)
    (hp : t'.passes = t.passes) (hd : t'.passDirection = t.passDirection)
    (hl : t'.lineDelivered = true → t.lineDelivered = true ∨ es ≠ []) :
    Progress s o t' (events ++ es.map .delivered) := by
  cases h with
  | first lines _ hp₀ hd₀ hl₀ =>
    rw [← List.map_append]
    refine .first _ hv' (hp.trans hp₀) (hd.trans hd₀) fun hl' => ?_
    rcases hl hl' with hl' | hne
    · exact List.append_ne_nil_of_left_ne_nil (hl₀ hl') es
    · exact List.append_ne_nil_of_right_ne_nil lines hne
  | second lines lines' m hne hm _ hp₀ hd₀ hl₀ =>
    rw [List.append_assoc, List.cons_append, ← List.map_append]
    refine .second lines _ m hne hm hv' (hp.trans hp₀) (hd.trans hd₀) fun hl' => ?_
    rcases hl hl' with hl' | hne'
    · exact List.append_ne_nil_of_left_ne_nil (hl₀ hl') es
    · exact List.append_ne_nil_of_right_ne_nil lines' hne'
  | passed _ _ _ _ _ _ _ _ hn | failed _ _ hn =>
    rw [hv] at hn
    cases hn

end Progress

/-- A trial that has come some way under its setup and options. -/
structure Follows (s : Setup) (o : TrialOptions) (t : Trial) (events : List Event) : Prop where
  setup_eq : t.setup = s
  options_eq : t.options = o
  progress : Progress s o t events

theorem events_tick {lines : List (List UInt8)} (h : Ticked t lines (t.tick m).value) :
    t.events (.tick m) = lines.map .delivered := by
  have put {others : List (List UInt8)} (ho : (t.tick m).value.2.outgoing = t.outgoing ++ others) :
      t.events (.tick m) = (others.filter deliversLine).map .delivered := by
    rw [events, readied_of_outgoing_eq (.tick m) ho]
    exact List.append_nil _
  generalize (t.tick m).value = r at h put
  cases h with
  | waiting stage others ho => rw [put rfl, filter_deliversLine_others ho]
  | moving lines => rw [put rfl, filter_deliversLine_answers]
  | stalling lines => rw [put rfl, filter_deliversLine_answers]

theorem events_afterMove_of {r : Option Verdict × Trial} (hr : (t.afterMove m).value = r) :
    t.events (.afterMove m) =
      if r.2.passes != t.passes || r.1.isSome then [.compared m] else [] := by
  rw [events_afterMove, comparedIn, compares, hr]

namespace Follows

variable {events : List Event}

theorem initial (s : Setup) (o : TrialOptions) : Follows s o (.begin s o) [] :=
  ⟨rfl, rfl, .first [] rfl rfl rfl nofun⟩

/-- A call that neither delivers a line nor compares a pass. -/
theorem still (h : Follows s o t events) (hs : t'.setup = t.setup) (ho : t'.options = t.options)
    (hv : t'.verdict = t.verdict) (hp : t'.passes = t.passes)
    (hd : t'.passDirection = t.passDirection) (hl : t'.lineDelivered = t.lineDelivered)
    (he : t.events call = []) : Follows s o t' (events ++ t.events call) := by
  rw [he, List.append_nil]
  exact ⟨hs.trans h.setup_eq, ho.trans h.options_eq, h.progress.congr hv hp hd hl⟩

theorem tick (h : Follows s o t events) (hv : t.verdict = none) (m : Mechanism) :
    Follows s o (t.after (.tick m)) (events ++ t.events (.tick m)) := by
  obtain ⟨lines, ht⟩ := ticked hv m
  have he := events_tick ht
  rw [after]
  generalize (t.tick m).value = r at ht
  cases ht with
  | waiting stage others => exact h.still rfl rfl rfl rfl rfl rfl he
  | moving lines =>
    rw [he]
    refine ⟨h.setup_eq, h.options_eq, h.progress.deliver hv hv rfl rfl fun hl => ?_⟩
    rcases (Bool.or_eq_true _ _).mp hl with hl | hl
    · exact Or.inl hl
    · refine Or.inr fun hnil => ?_
      rw [List.map_eq_nil_iff.mp hnil] at hl
      cases hl
  | stalling lines pending sweep reversals =>
    exact ⟨h.setup_eq, h.options_eq, .failed _ (.stalled reversals) rfl nofun⟩

/-- A comparison is the next event, and either fails the trial or counts. -/
theorem afterMove (h : Follows s o t events) (m : Mechanism) :
    Follows s o (t.after (.afterMove m)) (events ++ t.events (.afterMove m)) := by
  have hj := t.judged m
  have he := events_afterMove_of (t := t) (m := m) rfl
  rw [he, after]
  generalize (t.afterMove m).value = r at hj
  cases hj with
  | idle =>
    rw [show (t.passes != t.passes || (none : Option Verdict).isSome) = false by simp]
    refine ⟨h.setup_eq, h.options_eq, ?_⟩
    rw [if_neg Bool.false_ne_true, List.append_nil]
    exact h.progress
  | failed hc mismatch =>
    exact ⟨h.setup_eq, h.options_eq, .failed _ (.mismatched mismatch) rfl nofun⟩
  | matched hc hd hp =>
    have hm := hc.matching hd
    rw [h.setup_eq, h.options_eq] at hm
    rw [show (t.passes + 1 != t.passes || (none : Option Verdict).isSome) = true by simp]
    refine ⟨h.setup_eq, h.options_eq, ?_⟩
    rw [if_pos rfl]
    cases h.progress with
    | first lines hv hp₀ hd₀ hl =>
      rw [hd₀] at hm
      exact .second lines [] m (hl hc.delivered) hm hv (by rw [hp₀]) (by rw [hd₀]) nofun
    | second lines lines' m₀ hne hm₀ hv hp₀ => omega
    | passed _ _ _ _ _ _ _ _ hn | failed _ _ hn =>
      rw [hc.verdict_eq] at hn
      cases hn
  | passed hc hd hp =>
    have hm := hc.matching hd
    rw [h.setup_eq, h.options_eq] at hm
    rw [show (t.passes + 1 != t.passes || (some (Verdict.passed (t.passes + 1))).isSome) = true by
      simp]
    refine ⟨h.setup_eq, h.options_eq, ?_⟩
    rw [if_pos rfl]
    cases h.progress with
    | first lines hv hp₀ => omega
    | second lines lines' m₀ hne hm₀ hv hp₀ hd₀ hl =>
      rw [hd₀] at hm
      rw [List.append_assoc, List.cons_append]
      exact .passed lines lines' m₀ m hne (hl hc.delivered) hm₀ hm (by rw [hp₀])
    | passed _ _ _ _ _ _ _ _ hn | failed _ _ hn =>
      rw [hc.verdict_eq] at hn
      cases hn

theorem after (h : Follows s o t events) (call : Call) :
    Follows s o (t.after call) (events ++ t.events call) := by
  cases call with
  | tick m =>
    cases hv : t.verdict with
    | none => exact h.tick hv m
    | some v =>
      rw [Trial.after, value_tick_verdict hv]
      exact h.still rfl rfl rfl rfl rfl rfl (events_verdict hv _)
  | accept message =>
    obtain ⟨stage, nextLine, pending, others, ha, -⟩ := t.exists_after_accept message
    rw [ha]
    exact h.still rfl rfl rfl rfl rfl rfl (t.events_accept message)
  | takeOutgoing => exact h.still rfl rfl rfl rfl rfl rfl t.events_takeOutgoing
  | afterMove m => exact h.afterMove m

theorem play (h : Follows s o t events) (calls : List Call) :
    Follows s o (t.play calls) (events ++ t.course calls) := by
  induction calls generalizing t events with
  | nil =>
    rw [course, List.append_nil]
    exact h
  | cons call calls ih =>
    rw [course, ← List.append_assoc]
    exact ih (h.after call)

end Follows

/-- Whatever is asked of a trial, and in whatever order: it passes only when exactly two passes have
been compared, the first one in the direction away from the start side and the second one back, when
either has left every needle of the range of a full bed as it is expected, and when a line has been
delivered before the first comparison and another between the two. And a verdict stands: no tick
moves the carriage any more, and no move brings another verdict. -/
theorem course_of_verdict (s : Setup) (o : TrialOptions) (calls : List Call) :
    (∀ rows, ((begin s o).play calls).verdict = some (.passed rows) →
      rows = 2 ∧ ∃ (lines lines' : List (List UInt8)) (m m' : Mechanism),
        (begin s o).course calls =
          lines.map .delivered ++ .compared m :: (lines'.map .delivered ++ [.compared m']) ∧
        lines ≠ [] ∧ lines' ≠ [] ∧ Matching s o s.side.firstDirection m ∧
          Matching s o s.side.firstDirection.reversed m') ∧
    ∀ v, ((begin s o).play calls).verdict = some v → ∀ (more : List Call) (m : Mechanism),
      let t := (begin s o).play (calls ++ more)
      t.verdict = some v ∧ (t.tick m).value.1 = none ∧ (t.afterMove m).value.1 = none := by
  constructor
  · intro rows hrows
    have hf := ((Follows.initial s o).play calls).progress
    rw [List.nil_append] at hf
    generalize (begin s o).course calls = events at hf
    cases hf with
    | first _ hv | second _ _ _ _ _ hv =>
      rw [hrows] at hv
      cases hv
    | passed lines lines' m m' hne hne' hm hm' hv =>
      rw [hrows] at hv
      cases hv
      exact ⟨rfl, lines, lines', m, m', rfl, hne, hne', hm, hm'⟩
    | failed _ v hv hn =>
      rw [hrows] at hv
      exact absurd (Option.some.inj hv).symm (hn rows)
  · intro v hv more m t
    have ht : t.verdict = some v := by
      have hp := verdict_play hv more
      rw [← play_append] at hp
      exact hp
    refine ⟨ht, ?_, ?_⟩
    · rw [value_tick_verdict ht]
    · rw [value_afterMove_verdict ht]

/-- A mechanism with every other needle selected, its selector at needle `selected`. -/
def alternated (d : Direction) (selected : Int) : Mechanism :=
  { Mechanism.initial .standard with
    direction := d
    selected
    needles := (Array.range 200).map fun k => if k % 2 = 0 then .selected else .idle }

/-- Two passes over the whole bed, each with its line. -/
def twoPasses : List Call :=
  let start := Mechanism.initial .standard
  [.tick start, .accept (Message.cnfInit 0),
    .accept (StateReport.message ⟨0, StateReport.ready, 1650, 1650, 0xFF, 0, 0xFF⟩), .takeOutgoing,
    .accept (Message.reqLine 0), .tick start, .afterMove (alternated .right 200),
    .accept (Message.reqLine 1), .tick start, .afterMove (alternated .left (-1))]

theorem course_of_verdict_twoPasses :
    ((begin .standard { delay := 1 }).play twoPasses).verdict = some (.passed 2) ∧
      ∃ (lines lines' : List (List UInt8)) (m m' : Mechanism),
        (begin .standard { delay := 1 }).course twoPasses =
          lines.map .delivered ++ .compared m :: (lines'.map .delivered ++ [.compared m']) ∧
        lines ≠ [] ∧ lines' ≠ [] ∧ Matching .standard { delay := 1 } .right m ∧
          Matching .standard { delay := 1 } .left m' := by
  have hv : ((begin .standard { delay := 1 }).play twoPasses).verdict = some (.passed 2) := by
    decide +kernel
  exact ⟨hv, ((course_of_verdict .standard { delay := 1 } twoPasses).1 2 hv).2⟩

end KnitBench.Trial
