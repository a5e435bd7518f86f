import KnitBench.Proofs.Bench.Clock

/-! Replays of an operator's cues without a trial. A producer pushes the cues into the queue, trying
again when there is no room, while the bench steps. However the two take turns, the bench shows what
a mechanism by itself shows after the cues that have been obeyed. -/

namespace KnitBench

/-- A cue as far as the mechanism is concerned: a reset and a switch of tracing are none. -/
def Mechanism.obey (m : Mechanism) (cue : Cue) : Mechanism :=
  match cue.action with
  | .moveLeft => m.move .left
  | .moveRight => m.move .right
  | .reset | .toggleTrace => m

/-- A mechanism by itself after cues, no solenoid ever powered. -/
def Mechanism.moved (s : Setup) (cues : List Cue) : Mechanism :=
  cues.foldl obey ((initial s).latch s.model.idleRegister)

/-- Whether messages are reported after cues. -/
def Cue.switched (tracing : Bool) (cues : List Cue) : Bool :=
  cues.foldl (fun tracing cue => tracing ^^ decide (cue.action = .toggleTrace)) tracing

variable {past : List Cue} {cue : Cue}

namespace Mechanism

theorem moved_concat (s : Setup) (past : List Cue) (cue : Cue) :
    moved s (past ++ [cue]) = (moved s past).obey cue := by
  rw [moved, List.foldl_append]
  rfl

theorem register_moved (s : Setup) (cues : List Cue) :
    (moved s cues).register = s.model.idleRegister := by
  suffices h : ∀ m : Mechanism, (cues.foldl obey m).register = m.register from h _
  induction cues with
  | nil => exact fun _ => rfl
  | cons cue cues ih =>
    intro m
    rw [List.foldl_cons, ih, obey]
    cases cue.action <;> rfl

end Mechanism

theorem Cue.switched_concat (tracing : Bool) (past : List Cue) (cue : Cue) :
    switched tracing (past ++ [cue]) =
      (switched tracing past ^^ decide (cue.action = .toggleTrace)) := by
  rw [switched, List.foldl_append]
  rfl

theorem CueQueue.exists_push {q : CueQueue} (h : q.isFull = false) (cue : Cue) :
    ∃ q', q.push cue = .ok q' ∧ q'.cues = q.cues ++ [cue] := by
  have hlt : q.cues.length < capacity :=
    Nat.lt_of_le_of_ne q.length_le (of_decide_eq_false h)
  exact ⟨_, dif_pos hlt, rfl⟩

theorem CueQueue.push_of_isFull {q : CueQueue} (h : q.isFull = true) (cue : Cue) :
    q.push cue = .error ⟨cue⟩ := by
  have he : q.cues.length = capacity := of_decide_eq_true h
  exact dif_neg (by omega)

namespace Bench

open ReferenceController

variable {b b₁ : Bench ReferenceController} {c : ReferenceController} {s : Setup} {tracing : Bool}
  {j : Nat}

/-- What the operator sees of a mechanism when no message has passed and no indicator changed. -/
def quietDisplay (m : Mechanism) : String :=
  m.statusLine ++ "\n" ++ Panel.powerOn.text ++ "\n" ++ Traffic.blank.text ++ "\n" ++ m.bedDisplay

/-- The bench shows what cues do to a mechanism by itself. What the controller has last put out and
whether the display is up to date do not show. -/
structure Shows (s : Setup) (tracing : Bool) (cues : List Cue) (b : Bench ReferenceController) :
    Prop where
  mechanism_eq : ∃ register stale, b.mechanism = { Mechanism.moved s cues with register, stale }
  display_eq : b.display = quietDisplay (Mechanism.moved s cues)
  tracing_eq : b.tracing = Cue.switched tracing cues

/-- There is no trial, no message has passed and no indicator has changed. -/
structure Quiet (b : Bench ReferenceController) : Prop where
  panel_eq : b.panel = .powerOn
  traffic_eq : b.traffic = .blank
  trial_eq : b.trial = none
  verdict_eq : b.verdict = none

/-- A bench without a trial, `j` slices of time after its last tick, the cues in `past` obeyed. The
controller keeps the solenoids without power, except that before its first slice it has not put
anything on them yet. -/
structure Replaying (s : Setup) (tracing : Bool) (past : List Cue) (j : Nat)
    (b : Bench ReferenceController) : Prop extends Quiet b where
  mechanism_eq : ∃ register stale, b.mechanism = { Mechanism.moved s past with register, stale }
  tracing_eq : b.tracing = Cue.switched tracing past
  waits : Waits s.model b.controller
  attached : Attached b.mechanism b.controller
  register_eq : 0 < j → b.mechanism.register = s.model.idleRegister
  cycle_eq : b.controller.cycle = cyclesAt b.lastTick j

theorem Replaying.shows (h : Replaying s tracing past j b) : Shows s tracing past b := by
  refine ⟨h.mechanism_eq, ?_, h.tracing_eq⟩
  obtain ⟨register, stale, hm⟩ := h.mechanism_eq
  rw [display, hm, h.panel_eq, h.traffic_eq]
  rfl

/-- The steps until the queue is empty: five for every cue, and those until the next tick. -/
def stepsLeft (j : Nat) (b : Bench ReferenceController) : Nat := 5 * b.queue.cues.length + (5 - j)

theorem stepsLeft_le (b : Bench ReferenceController) (j : Nat) :
    stepsLeft j b ≤ replayPatience := by
  have hq : b.queue.cues.length ≤ 16 := b.queue.length_le
  change 5 * b.queue.cues.length + (5 - j) ≤ 96
  omega

namespace Replaying

theorem initial (s : Setup) (tracing : Bool) :
    Replaying s tracing [] 0 ((assemble s (powerOn s.model)).setTracing tracing) := by
  have ha : Attached (Mechanism.initial s)
      (Controller.raiseLevels (Mechanism.initial s).levels (powerOn s.model)) :=
    (Wired.initial s s.model).toAttached
  have hc : ((assemble s (powerOn s.model)).setTracing tracing).controller =
      (powerOn s.model).seeing (Mechanism.initial s).levels := controller_assemble ..
  refine ⟨⟨rfl, rfl, rfl, rfl⟩, ⟨_, _, rfl⟩, rfl, ?_, ha, nofun, ?_⟩
  · rw [hc]
    exact ⟨rfl, rfl, rfl⟩
  · rw [hc]
    rfl

/-- Cues that wait change nothing yet. -/
theorem queue (h : Replaying s tracing past j b) (queue : CueQueue) :
    Replaying s tracing past j { b with queue } :=
  ⟨⟨h.1.1, h.1.2, h.1.3, h.1.4⟩, h.2, h.3, h.4, h.5, h.6, h.7⟩

/-- The rest of a step, after the tick. -/
theorem exchange (h : Replaying s tracing past j b₁) (hb : b.tickIfDue.value = b₁)
    (hv : b.verdict = none) :
    ∃ b', b.step.value = (.ok .running, b') ∧ Replaying s tracing past (j + 1) b' ∧
      b'.queue = b₁.queue := by
  have hcol := h.waits.value_collect h.attached
  have hs := value_step hv hb hcol (value_sendOutgoing_none h.trial_eq)
  dsimp only at hs
  rw [h.verdict_eq] at hs
  refine ⟨_, hs, ?_, rfl⟩
  obtain ⟨ms, hq⟩ := h.attached.queues
  obtain ⟨register, stale, hm⟩ := h.mechanism_eq
  have hlatch : b₁.mechanism.latch b₁.controller.worked.wantedRegister =
      { Mechanism.moved s past with
        register := b₁.controller.worked.wantedRegister, stale } := by
    rw [hm]
    rfl
  have hcyc := cycle_sliced hq b₁.mechanism.hall
  rw [h.cycle_eq, cyclesAt_add] at hcyc
  exact {
    panel_eq := h.panel_eq
    traffic_eq := h.traffic_eq
    trial_eq := h.trial_eq
    verdict_eq := rfl
    mechanism_eq := ⟨_, stale, hlatch⟩
    tracing_eq := h.tracing_eq
    waits := h.waits.sliced _
    attached := h.attached.slice.toAttached
    register_eq := fun _ => h.waits.wantedRegister_eq
    cycle_eq := hcyc }

/-- A move, the solenoids being without power. -/
theorem move (h : Replaying s tracing past j b)
    (hr : b.mechanism.register = s.model.idleRegister) {d : Direction}
    (hd : (Mechanism.moved s past).obey cue = (Mechanism.moved s past).move d)
    (ht : cue.action ≠ .toggleTrace) :
    Replaying s tracing (past ++ [cue]) j (b.move d) := by
  obtain ⟨register, stale, hm⟩ := h.mechanism_eq
  obtain rfl : register = (Mechanism.moved s past).register := by
    rw [Mechanism.register_moved, ← hr, hm]
  have hmove : b.mechanism.move d = (Mechanism.moved s (past ++ [cue])) := by
    rw [Mechanism.moved_concat, hd, hm]
    rfl
  have htr : b.tracing = Cue.switched tracing (past ++ [cue]) := by
    rw [Cue.switched_concat, decide_eq_false ht, Bool.xor_false, h.tracing_eq]
  rw [Bench.move, raiseLevels_eq]
  exact ⟨⟨h.panel_eq, h.traffic_eq, h.trial_eq, h.verdict_eq⟩, ⟨_, _, hmove⟩, htr,
    ⟨h.waits.1, h.waits.2, h.waits.3⟩, h.attached.move d, fun _ => hr, h.cycle_eq⟩

/-- Every cue is obeyed as by a mechanism by itself. -/
theorem obey (h : Replaying s tracing past j b)
    (hr : b.mechanism.register = s.model.idleRegister) (cue : Cue) :
    Replaying s tracing (past ++ [cue]) j (b.obey cue).value ∧
      (b.obey cue).value.queue = b.queue := by
  have hm := Mechanism.moved_concat s past cue
  have ht := Cue.switched_concat tracing past cue
  rw [Mechanism.obey] at hm
  unfold Bench.obey
  cases ha : cue.action with
  | moveLeft => exact ⟨h.move hr (by rw [Mechanism.obey, ha]) (by rw [ha]; decide), rfl⟩
  | moveRight => exact ⟨h.move hr (by rw [Mechanism.obey, ha]) (by rw [ha]; decide), rfl⟩
  | reset =>
    rw [ha] at hm ht
    refine ⟨⟨⟨h.panel_eq, h.traffic_eq, h.trial_eq, h.verdict_eq⟩, ?_, ?_, h.waits.reset,
      h.attached.reset, fun _ => hr, h.cycle_eq⟩, rfl⟩
    · rw [hm]
      exact h.mechanism_eq
    · rw [ht, ← h.tracing_eq]
      exact (Bool.xor_false _).symm
  | toggleTrace =>
    rw [ha] at hm ht
    refine ⟨⟨⟨h.panel_eq, h.traffic_eq, h.trial_eq, h.verdict_eq⟩, ?_, ?_, h.waits,
      h.attached, fun _ => hr, h.cycle_eq⟩, rfl⟩
    · rw [hm]
      exact h.mechanism_eq
    · rw [ht, ← h.tracing_eq]
      exact (Bool.xor_true _).symm

/-- The beeper is not silent at power-on, so that its history does not scroll. -/
theorem refreshed_powerOn : Panel.powerOn.refreshed = Panel.powerOn := by decide

theorem refresh (h : Replaying s tracing past j b) :
    Replaying s tracing past j b.refresh.value ∧ b.refresh.value.queue = b.queue := by
  unfold Bench.refresh
  split
  · refine ⟨?_, rfl⟩
    obtain ⟨register, stale, hm⟩ := h.mechanism_eq
    have hrefreshed : b.mechanism.refreshed =
        { Mechanism.moved s past with register, stale := false } := by
      rw [hm]
      rfl
    have hpanel : b.panel.refreshed = Panel.powerOn := by
      rw [h.panel_eq, refreshed_powerOn]
    exact ⟨⟨hpanel, h.traffic_eq, h.trial_eq, h.verdict_eq⟩, ⟨_, _, hrefreshed⟩, h.tracing_eq,
      h.waits, h.attached.refreshed, h.register_eq, h.cycle_eq⟩
  · exact ⟨h, rfl⟩

theorem obeyNext (h : Replaying s tracing past j b)
    (hr : b.mechanism.register = s.model.idleRegister) :
    Replaying s tracing (past ++ b.queue.cues.take 1) j b.obeyNext.value ∧
      b.obeyNext.value.queue.cues = b.queue.cues.drop 1 := by
  unfold Bench.obeyNext
  cases hp : b.queue.pop with
  | none =>
    have hq := CueQueue.pop_none hp
    rw [hq]
    refine ⟨?_, hq⟩
    rw [List.take_nil, List.append_nil]
    exact h
  | some popped =>
    obtain ⟨cue, queue⟩ := popped
    obtain ⟨ho, hqueue⟩ := (h.queue queue).obey hr cue
    rw [CueQueue.pop_some hp]
    exact ⟨ho, congrArg CueQueue.cues hqueue⟩

/-- A tick obeys the oldest cue. -/
theorem tick (h : Replaying s tracing past 5 b) :
    Replaying s tracing (past ++ b.queue.cues.take 1) 0 b.tickIfDue.value ∧
      b.tickIfDue.value.queue.cues = b.queue.cues.drop 1 := by
  have hr := h.register_eq (by decide)
  have hcyc := h.cycle_eq
  have hb := value_tickIfDue_due hcyc
  rw [cyclesAt_tick, ← now_eq_of_cycle_eq h.cycle_eq] at hcyc
  generalize b.now = now at hb hcyc
  have h₀ : Replaying s tracing past 0 { b with lastTick := now, ticks := b.ticks + 1 } :=
    ⟨⟨h.1.1, h.1.2, h.1.3, h.1.4⟩, h.2, h.3, h.4, h.5, fun _ => hr, hcyc⟩
  obtain ⟨ho, hq⟩ := h₀.obeyNext hr
  rw [hb, value_tick, value_tickTrial_none ho.trial_eq]
  exact ⟨ho.refresh.1, (congrArg CueQueue.cues ho.refresh.2).trans hq⟩

/-- A step loses no cue and repeats none. -/
theorem step (h : Replaying s tracing past j b) (hj : j ≤ 5) :
    ∃ past' j' b', b.step.value = (.ok .running, b') ∧ Replaying s tracing past' j' b' ∧ j' ≤ 5 ∧
      past' ++ b'.queue.cues = past ++ b.queue.cues ∧
      b'.queue.cues.length ≤ b.queue.cues.length ∧
      (b.queue.cues ≠ [] → stepsLeft j' b' + 1 = stepsLeft j b) := by
  rcases Nat.lt_or_eq_of_le hj with hj | rfl
  · obtain ⟨b', hs, h', hq⟩ := h.exchange (value_tickIfDue_early h.cycle_eq hj) h.verdict_eq
    refine ⟨past, j + 1, b', hs, h', hj, by rw [hq],
      Nat.le_of_eq (congrArg (fun q => q.cues.length) hq), fun _ => ?_⟩
    rw [stepsLeft, stepsLeft, hq]
    omega
  · obtain ⟨h₁, hq₁⟩ := h.tick
    obtain ⟨b', hs, h', hq⟩ := h₁.exchange rfl h.verdict_eq
    rw [← hq] at hq₁
    refine ⟨_, 1, b', hs, h', by decide, ?_, ?_, fun hne => ?_⟩
    · rw [hq₁, List.append_assoc, List.take_append_drop]
    · rw [hq₁, List.length_drop]
      omega
    · have hpos := List.length_pos_iff.mpr hne
      rw [stepsLeft, stepsLeft, hq₁, List.length_drop]
      omega

/-- Stepping while the bench is busy with its queue, for long enough, leaves it not busy. -/
theorem exists_stepWhile (h : Replaying s tracing past j b) (hj : j ≤ 5)
    {p : Bench ReferenceController → Bool} (hbusy : ∀ b, p b = true → b.queue.cues ≠ [])
    {limit : Nat} (hl : stepsLeft j b ≤ limit) (journal : Journal) :
    ∃ past' j' b' journal', stepWhile p limit b journal = ⟨.ok .running, b', journal'⟩ ∧
      Replaying s tracing past' j' b' ∧ j' ≤ 5 ∧
      past' ++ b'.queue.cues = past ++ b.queue.cues ∧ p b' = false := by
  induction limit generalizing past j b journal with
  | zero =>
    refine ⟨past, j, b, journal, rfl, h, hj, rfl, Bool.eq_false_iff.mpr fun hb => ?_⟩
    have hpos := List.length_pos_iff.mpr (hbusy b hb)
    rw [stepsLeft] at hl
    omega
  | succ limit ih =>
    cases hb : p b with
    | false =>
      refine ⟨past, j, b, journal, ?_, h, hj, rfl, hb⟩
      rw [stepWhile, hb]
      rfl
    | true =>
      obtain ⟨past', j', b', hs, h', hj', hp, -, hless⟩ := h.step hj
      have hl' := hless (hbusy b hb)
      obtain ⟨past'', j'', b'', journal'', hw, h'', hj'', hp', hb''⟩ :=
        ih h' hj' (by omega) (journal.add b.step.notices)
      refine ⟨past'', j'', b'', journal'', ?_, h'', hj'', hp'.trans hp, hb''⟩
      rw [← hw, stepWhile, if_pos hb]
      generalize b.step = r at hs
      obtain ⟨value, notices⟩ := r
      subst hs
      rfl

/-- Feeding cues one after another has all of them obeyed. -/
theorem exists_feed (h : Replaying s tracing past j b) (hj : j ≤ 5) (cues : List Cue)
    (journal : Journal) :
    ∃ j' b' journal',
      Run.feed replayPatience cues ⟨.ok .running, b, journal⟩ = ⟨.ok .running, b', journal'⟩ ∧
      Replaying s tracing (past ++ b.queue.cues ++ cues) j' b' ∧ b'.queue.cues = [] := by
  induction cues generalizing past j b journal with
  | nil =>
    obtain ⟨past', j', b', journal', hw, h', -, hp, hb⟩ :=
      h.exists_stepWhile (p := fun b => !b.queue.isEmpty) hj
        (by simp [CueQueue.isEmpty]) (stepsLeft_le b j) journal
    have hq : b'.queue.cues = [] := by simpa [CueQueue.isEmpty] using hb
    rw [hq, List.append_nil] at hp
    refine ⟨j', b', journal', hw, ?_, hq⟩
    rw [List.append_nil, ← hp]
    exact h'
  | cons cue cues ih =>
    obtain ⟨past', j', b', journal', hw, h', hj', hp, hb⟩ :=
      h.exists_stepWhile (p := fun b => b.queue.isFull) hj
        (fun b hb hq => by simp [CueQueue.isFull, hq, CueQueue.capacity] at hb)
        (stepsLeft_le b j) journal
    obtain ⟨queue, hpush, hq⟩ := CueQueue.exists_push hb cue
    obtain ⟨j'', b'', journal'', hf, h'', hb''⟩ := ih (h'.queue queue) hj' journal'
    refine ⟨j'', b'', journal'', ?_, ?_, hb''⟩
    · have hc : (⟨.ok .running, b, journal⟩ : Run ReferenceController).continueWhile
          (fun b => b.queue.isFull) replayPatience = ⟨.ok .running, b', journal'⟩ := hw
      have hb' : b'.push cue = .ok { b' with queue } := by
        rw [Bench.push, hpush]
        rfl
      rw [← hf, Run.feed, hc]
      dsimp only
      rw [hb']
      rfl
    · dsimp only at h''
      rw [hq, ← List.append_assoc, hp, List.append_assoc _ [cue], List.singleton_append] at h''
      exact h''

end Replaying

end Bench

open Bench

/-- A replay under way: the bench, and the cues that the producer has still to push. -/
structure Replay where
  bench : Bench ReferenceController
  left : List Cue

namespace Replay

/-- Who comes next. The bench looks at the queue at one moment of a step only, so that a push in the
middle of a step is as good as one before or behind it. -/
inductive Turn
  | producer
  | bench
  deriving DecidableEq

variable {r : Replay} {s : Setup} {tracing : Bool} {past cues : List Cue} {j n : Nat}

/-- A replay that begins. -/
def start (s : Setup) (tracing : Bool) (cues : List Cue) : Replay where
  bench := (assemble s (.powerOn s.model)).setTracing tracing
  left := cues

/-- The replay after a turn. A cue that is refused comes back to the producer. -/
def after (r : Replay) : Turn → Replay
  | .producer =>
    match r.left with
    | [] => r
    | cue :: rest =>
      match r.bench.push cue with
      | .ok bench => ⟨bench, rest⟩
      | .error refused => { r with left := refused.cue :: rest }
  | .bench => { r with bench := r.bench.step.value.2 }

/-- The replay after several turns. -/
def play (r : Replay) (turns : List Turn) : Replay := turns.foldl after r

/-- Every cue has been pushed, and none waits any more. -/
def Done (r : Replay) : Prop := r.left = [] ∧ r.bench.queue.cues = []

instance (r : Replay) : Decidable r.Done :=
  inferInstanceAs (Decidable (r.left = [] ∧ r.bench.queue.cues = []))

/-- Turns without end in which either side comes up again and again. -/
structure Schedule where
  turn : Nat → Turn
  fair : ∀ t n, ∃ m, n ≤ m ∧ turn m = t

/-- The cues that have been obeyed, those that wait and those still to be pushed are the cues of the
replay, in order. -/
structure Keeps (s : Setup) (tracing : Bool) (cues past : List Cue) (j : Nat) (r : Replay) :
    Prop where
  replaying : Replaying s tracing past j r.bench
  phase_le : j ≤ 5
  cues_eq : past ++ r.bench.queue.cues ++ r.left = cues

/-- Whose turn brings the end closer: the producer's, as long as there is something to push and room
for it. -/
def wanted (r : Replay) : Turn := if r.left = [] ∨ r.bench.queue.isFull then .bench else .producer

/-- What is left to do: a full queue may have to be emptied for every cue that is still to be
pushed. -/
def toDo (j : Nat) (r : Replay) : Nat :=
  100 * r.left.length + if r.wanted = .bench then stepsLeft j r.bench else 0

theorem toDo_bench (h : r.wanted = .bench) :
    toDo j r = 100 * r.left.length + stepsLeft j r.bench := by
  rw [toDo, if_pos h]

theorem toDo_producer (h : r.wanted = .producer) : toDo j r = 100 * r.left.length := by
  rw [toDo, h]
  rfl

theorem toDo_le (j : Nat) (r : Replay) : toDo j r ≤ 100 * r.left.length + stepsLeft j r.bench := by
  cases h : r.wanted with
  | producer =>
    rw [toDo_producer h]
    exact Nat.le_add_right _ _
  | bench => exact Nat.le_of_eq (toDo_bench h)

namespace Keeps

theorem start (s : Setup) (tracing : Bool) (cues : List Cue) :
    (start s tracing cues).Keeps s tracing cues [] 0 :=
  ⟨.initial s tracing, by decide, rfl⟩

/-- A turn of the producer: a cue is pushed, or nothing happens. -/
theorem after_producer (h : r.Keeps s tracing cues past j) :
    (r.after .producer).Keeps s tracing cues past j ∧
      (r.wanted = .producer ∧ toDo j (r.after .producer) < toDo j r ∨
        r.wanted = .bench ∧ r.after .producer = r) := by
  obtain ⟨bench, left⟩ := r
  cases left with
  | nil => exact ⟨h, Or.inr ⟨if_pos (Or.inl rfl), rfl⟩⟩
  | cons cue rest =>
    cases hf : bench.queue.isFull with
    | true =>
      have ha : after ⟨bench, cue :: rest⟩ .producer = ⟨bench, cue :: rest⟩ := by
        simp only [after, Bench.push, CueQueue.push_of_isFull hf]
        rfl
      rw [ha]
      exact ⟨h, Or.inr ⟨if_pos (Or.inr hf), rfl⟩⟩
    | false =>
      obtain ⟨queue, hp, hq⟩ := CueQueue.exists_push hf cue
      have ha : after ⟨bench, cue :: rest⟩ .producer = ⟨{ bench with queue }, rest⟩ := by
        simp only [after, Bench.push, hp]
        rfl
      have hw : wanted ⟨bench, cue :: rest⟩ = .producer := if_neg (by simp [hf])
      rw [ha]
      refine ⟨⟨h.replaying.queue queue, h.phase_le, ?_⟩, Or.inl ⟨hw, ?_⟩⟩
      · rw [← h.cues_eq]
        simp [hq]
      · have hle := toDo_le j ⟨{ bench with queue }, rest⟩
        have hpat : stepsLeft j { bench with queue } ≤ 96 := stepsLeft_le _ j
        rw [toDo_producer hw, List.length_cons]
        dsimp only at hle
        omega

/-- A turn of the bench, before the replay has come to its end. -/
theorem after_bench (h : r.Keeps s tracing cues past j) :
    ∃ past' j', (r.after .bench).Keeps s tracing cues past' j' ∧
      (r.Done ∨ r.wanted = .bench ∧ toDo j' (r.after .bench) < toDo j r ∨
        r.wanted = .producer ∧ (r.after .bench).wanted = .producer ∧
          toDo j' (r.after .bench) = toDo j r) := by
  obtain ⟨past', j', b', hs, h', hj', hp, hlen, hless⟩ := h.replaying.step h.phase_le
  have ha : r.after .bench = ⟨b', r.left⟩ := by
    rw [after, hs]
  rw [ha]
  refine ⟨past', j', ⟨h', hj', ?_⟩, ?_⟩
  · rw [← h.cues_eq, ← hp]
  by_cases hw : r.left = [] ∨ r.bench.queue.isFull
  · have hb : r.wanted = .bench := if_pos hw
    by_cases hq : r.bench.queue.cues = []
    · rcases hw with hl | hf
      · exact Or.inl ⟨hl, hq⟩
      · simp [CueQueue.isFull, hq, CueQueue.capacity] at hf
    · refine Or.inr (Or.inl ⟨hb, ?_⟩)
      have hl := hless hq
      have hle := toDo_le j' ⟨b', r.left⟩
      rw [toDo_bench hb]
      dsimp only at hle
      omega
  · have hb : r.wanted = .producer := if_neg hw
    have hf : ¬ (r.left = [] ∨ b'.queue.isFull) := by
      rintro (hl | hf)
      · exact hw (Or.inl hl)
      · have hle := r.bench.queue.length_le
        have he : b'.queue.cues.length = CueQueue.capacity := of_decide_eq_true hf
        exact hw (Or.inr (decide_eq_true (by omega)))
    have hb' : wanted ⟨b', r.left⟩ = .producer := if_neg hf
    exact Or.inr (Or.inr ⟨hb, hb', (toDo_producer hb').trans (toDo_producer hb).symm⟩)

/-- Any turn. One that is not wanted leaves it at that: the same turn is wanted still, and there is
no more to do. -/
theorem after (h : r.Keeps s tracing cues past j) (t : Turn) :
    ∃ past' j', (r.after t).Keeps s tracing cues past' j' ∧
      (r.Done ∨ toDo j' (r.after t) < toDo j r ∨
        t ≠ r.wanted ∧ (r.after t).wanted = r.wanted ∧ toDo j' (r.after t) = toDo j r) := by
  cases t with
  | producer =>
    obtain ⟨h', ⟨hw, hlt⟩ | ⟨hw, he⟩⟩ := h.after_producer
    · exact ⟨past, j, h', Or.inr (Or.inl hlt)⟩
    · refine ⟨past, j, h', Or.inr (Or.inr ⟨?_, by rw [he], by rw [he]⟩)⟩
      rw [hw]
      decide
  | bench =>
    obtain ⟨past', j', h', hd | ⟨hw, hlt⟩ | ⟨hw, hw', he⟩⟩ := h.after_bench
    · exact ⟨past', j', h', Or.inl hd⟩
    · exact ⟨past', j', h', Or.inr (Or.inl hlt)⟩
    · refine ⟨past', j', h', Or.inr (Or.inr ⟨?_, hw'.trans hw.symm, he⟩)⟩
      rw [hw]
      decide

theorem play (h : r.Keeps s tracing cues past j) (turns : List Turn) :
    ∃ past' j', (r.play turns).Keeps s tracing cues past' j' := by
  induction turns generalizing r past j with
  | nil => exact ⟨past, j, h⟩
  | cons t turns ih =>
    obtain ⟨past', j', h', -⟩ := h.after t
    exact ih h'

variable {schedule : Schedule}

end Keeps

/-- Producer and bench in turn. -/
def alternating : Schedule where
  turn n := if n % 2 = 0 then .producer else .bench
  fair t n := by
    cases t with
    | producer => exact ⟨2 * n, by omega, if_pos (by omega)⟩
    | bench => exact ⟨2 * n + 1, by omega, if_neg (by omega)⟩

end Replay

end KnitBench
