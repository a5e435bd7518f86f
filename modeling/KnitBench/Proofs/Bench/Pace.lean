import KnitBench.Controller.Idle
import KnitBench.Proofs.Bench.Encoder
import KnitBench.Proofs.Controller.Safety

/-! The pace of a bench without a trial. Its clock is that of the controller, whichever it is, and
every fifth slice of time the mechanism ticks: it takes one cue if one waits, and moves if the cue
asks for a move. Resets do not disturb the pace. It is kept as long as the clock, and what the time
is reckoned from, have room in their word. -/

namespace KnitBench

/-- A controller whose clock goes on by two and a half milliseconds with every slice of time, and
with nothing else that a bench without a trial does to it. -/
class RegularClock (σ : Type) [Controller σ] where
  /-- To tell the time, cycles are multiplied with so much before they are divided. -/
  scale : Nat
  scale_pos : 0 < scale
  microseconds_eq (c : σ) (cycles : Nat) :
    Controller.microseconds c cycles = cycles * scale / (16 * scale)
  cycle_step (c : σ) : Controller.cycle (Controller.step c).value.2 = Controller.cycle c + 40000
  cycle_raise (line : Line) (value : UInt16) (c : σ) :
    Controller.cycle (Controller.raise line value c) = Controller.cycle c
  cycle_takeOutputs (c : σ) :
    Controller.cycle (Controller.takeOutputs c).2 = Controller.cycle c
  cycle_reset (c : σ) : Controller.cycle (Controller.reset c).value = Controller.cycle c

instance : RegularClock ReferenceController where
  scale := 1000000
  scale_pos := by decide
  microseconds_eq _ _ := rfl
  cycle_step c := c.cycle_step
  cycle_raise line value c := by cases line <;> rfl
  cycle_takeOutputs _ := rfl
  cycle_reset _ := rfl

instance : RegularClock IdleController where
  scale := 1
  scale_pos := by decide
  microseconds_eq _ cycles := by
    rw [Nat.mul_one]
    rfl
  cycle_step _ := rfl
  cycle_raise _ _ _ := rfl
  cycle_takeOutputs _ := rfl
  cycle_reset _ := rfl

theorem microseconds_slices {σ : Type} [Controller σ] [RegularClock σ] (c : σ) (n : Nat) :
    Controller.microseconds c (40000 * n) = 2500 * n := by
  rw [RegularClock.microseconds_eq, Nat.mul_div_mul_right _ _ RegularClock.scale_pos]
  omega

theorem cycle_raiseLevels {σ : Type} [Controller σ] [RegularClock σ] (l : Levels) (c : σ) :
    Controller.cycle (Controller.raiseLevels l c) = Controller.cycle c := by
  simp only [Controller.raiseLevels, RegularClock.cycle_raise]

/-- Nothing is done to a mechanism but to its solenoids and its display. -/
def Mechanism.Stays (m m' : Mechanism) : Prop :=
  ∃ register stale, m' = { m with register, stale }

theorem Mechanism.Stays.trans {m m' m'' : Mechanism} (h : m.Stays m') (h' : m'.Stays m'') :
    m.Stays m'' := by
  obtain ⟨r, s, rfl⟩ := h
  obtain ⟨r', s', rfl⟩ := h'
  exact ⟨r', s', rfl⟩

namespace Bench

variable {σ : Type} [Controller σ] {b b' b'' : Bench σ} {n : Nat}

/-- The bench after an input, whatever its controller. -/
def given (b : Bench σ) : Input → Bench σ
  | .cue c => (b.push c).toOption.getD b
  | .step => b.step.value.2

/-- The bench after several inputs, whatever its controller. -/
def giveAll (b : Bench σ) (inputs : List Input) : Bench σ := inputs.foldl given b

theorem giveAll_cons (b : Bench σ) (i : Input) (inputs : List Input) :
    b.giveAll (i :: inputs) = (b.given i).giveAll inputs := rfl

theorem giveAll_concat (b : Bench σ) (inputs : List Input) (i : Input) :
    b.giveAll (inputs ++ [i]) = (b.giveAll inputs).given i := List.foldl_append

def Input.isStep : Input → Bool
  | .cue _ => false
  | .step => true

/-- The number of steps among the inputs. -/
def steps (inputs : List Input) : Nat := inputs.countP Input.isStep

@[simp] theorem steps_nil : steps [] = 0 := rfl

@[simp] theorem steps_cons_step (inputs : List Input) :
    steps (.step :: inputs) = steps inputs + 1 := List.countP_cons_of_pos rfl

@[simp] theorem steps_append (inputs inputs' : List Input) :
    steps (inputs ++ inputs') = steps inputs + steps inputs' := List.countP_append

/-- The move that the oldest cue asks for, whatever the controller. -/
def wished (b : Bench σ) : Option Direction :=
  b.queue.cues.head?.bind fun cue => cue.action.direction?

/-! ### Between two ticks -/

/-- A bench goes on while its clock, its queue and its carriage stand still. -/
structure StandsStill (b b' : Bench σ) : Prop where
  stays : b.mechanism.Stays b'.mechanism
  cycle_eq : Controller.cycle b'.controller = Controller.cycle b.controller
  queue_eq : b'.queue = b.queue
  lastTick_eq : b'.lastTick = b.lastTick
  ticks_eq : b'.ticks = b.ticks
  trial_eq : b'.trial = b.trial
  verdict_eq : b'.verdict = b.verdict

namespace StandsStill

theorem refl (b : Bench σ) : b.StandsStill b := ⟨⟨_, _, rfl⟩, rfl, rfl, rfl, rfl, rfl, rfl⟩

theorem trans (h : b.StandsStill b') (h' : b'.StandsStill b'') : b.StandsStill b'' where
  stays := h.stays.trans h'.stays
  cycle_eq := h'.cycle_eq.trans h.cycle_eq
  queue_eq := h'.queue_eq.trans h.queue_eq
  lastTick_eq := h'.lastTick_eq.trans h.lastTick_eq
  ticks_eq := h'.ticks_eq.trans h.ticks_eq
  trial_eq := h'.trial_eq.trans h.trial_eq
  verdict_eq := h'.verdict_eq.trans h.verdict_eq

theorem controller {c : σ} (h : Controller.cycle c = Controller.cycle b.controller) :
    b.StandsStill { b with controller := c } := ⟨⟨_, _, rfl⟩, h, rfl, rfl, rfl, rfl, rfl⟩

theorem record (b : Bench σ) (heading : Heading) (message : List UInt8) :
    b.StandsStill (b.record heading message).value := by
  unfold Bench.record
  split <;> exact ⟨⟨_, _, rfl⟩, rfl, rfl, rfl, rfl, rfl, rfl⟩

theorem refresh (b : Bench σ) : b.StandsStill b.refresh.value := by
  unfold Bench.refresh
  split
  · exact ⟨⟨_, _, rfl⟩, rfl, rfl, rfl, rfl, rfl, rfl⟩
  · exact refl b

/-- Without a trial nobody finds fault with what the controller has put out. -/
theorem passOn [RegularClock σ] (ht : b.trial = none) (o : Output) :
    (b.passOn o).value.1 = none ∧ b.StandsStill (b.passOn o).value.2 := by
  cases o with
  | solenoids r => exact ⟨rfl, ⟨_, _, rfl⟩, rfl, rfl, rfl, rfl, rfl, rfl⟩
  | convert channel =>
    unfold Bench.passOn
    dsimp only
    split
    · exact ⟨rfl, controller (RegularClock.cycle_raise _ _ _)⟩
    · split
      · exact ⟨rfl, controller (RegularClock.cycle_raise _ _ _)⟩
      · exact ⟨rfl, refl b⟩
  | serial byte =>
    unfold Bench.passOn
    dsimp only
    cases b.receiver.push byte with
    | mk message? receiver =>
      have hb : b.StandsStill { b with receiver } := ⟨⟨_, _, rfl⟩, rfl, rfl, rfl, rfl, rfl, rfl⟩
      cases message? with
      | none => exact ⟨rfl, hb⟩
      | some message =>
        have hr := record { b with receiver } .fromDevice message
        have htr := hr.trial_eq.trans ht
        dsimp only
        rw [Logged.value_bind, consult, htr]
        exact ⟨rfl, hb.trans hr⟩
  | beeper duty => exact ⟨rfl, ⟨_, _, rfl⟩, rfl, rfl, rfl, rfl, rfl, rfl⟩
  | lamp index on => exact ⟨rfl, ⟨_, _, rfl⟩, rfl, rfl, rfl, rfl, rfl, rfl⟩

theorem passAllOn [RegularClock σ] (ht : b.trial = none) (os : List Output) :
    (passAllOn os b).value.1 = none ∧ b.StandsStill (passAllOn os b).value.2 := by
  induction os generalizing b with
  | nil => exact ⟨rfl, refl b⟩
  | cons o os ih =>
    obtain ⟨hf, hs⟩ := passOn ht o
    rw [Bench.passAllOn, Logged.value_bind]
    generalize (b.passOn o).value = r at hf hs ⊢
    obtain ⟨fault?, b'⟩ := r
    obtain rfl : fault? = none := hf
    obtain ⟨hf', hs'⟩ := ih (hs.trial_eq.trans ht)
    exact ⟨hf', hs.trans hs'⟩

theorem collect [RegularClock σ] (ht : b.trial = none) :
    b.collect.value.1 = none ∧ b.StandsStill b.collect.value.2 := by
  obtain ⟨hf, hs⟩ := passAllOn
    (b := { b with controller := (Controller.takeOutputs b.controller).2 }) ht
    (Controller.takeOutputs b.controller).1
  exact ⟨hf, (controller (RegularClock.cycle_takeOutputs _)).trans hs⟩

end StandsStill

/-- After the tick, if there is one, a step is a slice of the controller's time. -/
theorem standsStill_step [RegularClock σ] (hv : b.verdict = none)
    (ht : b.tickIfDue.value.trial = none) (hv' : b.tickIfDue.value.verdict = none) :
    StandsStill { b.tickIfDue.value with
      controller := (Controller.step b.tickIfDue.value.controller).value.2 } (b.given .step) := by
  generalize hb : b.tickIfDue.value = b₁ at ht hv'
  obtain ⟨hf, hs⟩ := StandsStill.collect
    (b := { b₁ with controller := (Controller.step b₁.controller).value.2 }) ht
  rw [given, step, hv, Logged.value_bind, hb, Logged.value_bind]
  generalize (Controller.step b₁.controller).value = sliced at hf hs ⊢
  obtain ⟨activity, c⟩ := sliced
  dsimp only at hf hs ⊢
  rw [Logged.value_bind]
  generalize ({ b₁ with controller := c } : Bench σ).collect.value = r at hf hs ⊢
  obtain ⟨fault?, b₂⟩ := r
  obtain rfl : fault? = none := hf
  have hsend : b₂.sendOutgoing.value = b₂ := by
    rw [sendOutgoing, hs.trial_eq.trans ht]
    rfl
  have hv₂ : b₂.verdict = none := hs.verdict_eq.trans hv'
  dsimp only
  rw [Logged.value_bind, hsend, hv₂]
  dsimp only
  split <;> exact hs

/-! ### The tick -/

/-- A bench has ticked: a cue that waited has been taken, and the move made that it asked for. -/
structure TicksOnce (b b' : Bench σ) : Prop where
  stays : (b.mechanism.moveIf b.wished).Stays b'.mechanism
  cycle_eq : Controller.cycle b'.controller = Controller.cycle b.controller
  cues_eq : b'.queue.cues = b.queue.cues.tail
  lastTick_eq : b'.lastTick = b.lastTick
  ticks_eq : b'.ticks = b.ticks + 1
  trial_eq : b'.trial = b.trial
  verdict_eq : b'.verdict = b.verdict

theorem ticksOnce_obeyNext [RegularClock σ] (b : Bench σ) :
    TicksOnce b ({ b with ticks := b.ticks + 1 } : Bench σ).obeyNext.value := by
  unfold obeyNext
  dsimp only
  cases hp : b.queue.pop with
  | none =>
    have hq := CueQueue.pop_none hp
    have ha : b.wished = none := by rw [wished, hq]; rfl
    exact ⟨⟨_, _, by rw [ha]; rfl⟩, rfl, by rw [hq]; exact hq, rfl, rfl, rfl, rfl⟩
  | some popped =>
    obtain ⟨⟨action, value⟩, queue⟩ := popped
    have hq := CueQueue.pop_some hp
    have ha : b.wished = action.direction? := by rw [wished, hq]; rfl
    have hcues : queue.cues = b.queue.cues.tail := by rw [hq]; rfl
    cases action with
    | moveLeft =>
      exact ⟨⟨_, _, by rw [ha]; rfl⟩, cycle_raiseLevels _ _, hcues, rfl, rfl, rfl, rfl⟩
    | moveRight =>
      exact ⟨⟨_, _, by rw [ha]; rfl⟩, cycle_raiseLevels _ _, hcues, rfl, rfl, rfl, rfl⟩
    | reset =>
      exact ⟨⟨_, _, by rw [ha]; rfl⟩, RegularClock.cycle_reset _, hcues, rfl, rfl, rfl, rfl⟩
    | toggleTrace => exact ⟨⟨_, _, by rw [ha]; rfl⟩, rfl, hcues, rfl, rfl, rfl, rfl⟩

theorem TicksOnce.standsStill (h : b.TicksOnce b') (h' : b'.StandsStill b'') : b.TicksOnce b'' where
  stays := h.stays.trans h'.stays
  cycle_eq := h'.cycle_eq.trans h.cycle_eq
  cues_eq := (congrArg CueQueue.cues h'.queue_eq).trans h.cues_eq
  lastTick_eq := h'.lastTick_eq.trans h.lastTick_eq
  ticks_eq := h'.ticks_eq.trans h.ticks_eq
  trial_eq := h'.trial_eq.trans h.trial_eq
  verdict_eq := h'.verdict_eq.trans h.verdict_eq

theorem ticksOnce_tick [RegularClock σ] (ht : b.trial = none) : b.TicksOnce b.tick.value := by
  have h := ticksOnce_obeyNext b
  have hv : b.tick.value =
    ({ b with ticks := b.ticks + 1 } : Bench σ).obeyNext.value.tickTrial.value.refresh.value := rfl
  rw [hv]
  generalize ({ b with ticks := b.ticks + 1 } : Bench σ).obeyNext.value = b₁ at h ⊢
  have htrial : b₁.tickTrial.value = b₁ := by
    rw [tickTrial, h.trial_eq.trans ht]
    rfl
  rw [htrial]
  exact h.standsStill (StandsStill.refresh b₁)

/-! ### The clock -/

/-- A bench without a trial after so many steps. -/
structure Paced (n : Nat) (b : Bench σ) : Prop where
  trial_eq : b.trial = none
  verdict_eq : b.verdict = none
  cycle_eq : Controller.cycle b.controller = 40000 * n
  ticks_eq : b.ticks = (n - 1) / 5
  lastTick_eq : b.lastTick = 12500 * ((n - 1) / 5)

/-- Whether the step that comes after so many others ticks. -/
def Due (n : Nat) : Prop := 0 < n ∧ 5 ∣ n

instance (n : Nat) : Decidable (Due n) := inferInstanceAs (Decidable (_ ∧ _))

namespace Paced

theorem now_eq [RegularClock σ] (h : Paced n b) : b.now = 2500 * n := by
  rw [now, Controller.now, h.cycle_eq, microseconds_slices]

/-- The fifth step after a tick finds more than ten milliseconds gone by, and no step before it. -/
theorem due_iff [RegularClock σ] (h : Paced n b) :
    tickInterval < b.now - min b.lastTick b.now ↔ Due n := by
  rw [h.now_eq, h.lastTick_eq, tickInterval, Due]
  omega

/-- A step that is due ticks, and the wait for the next tick starts anew. -/
theorem step_due [RegularClock σ] (h : Paced n b) (hn : Due n) :
    Paced (n + 1) (b.given .step) ∧ (b.given .step).ticks = b.ticks + 1 ∧
      (b.given .step).queue.cues = b.queue.cues.tail ∧
      (b.mechanism.moveIf b.wished).Stays (b.given .step).mechanism := by
  have hb : b.tickIfDue.value = ({ b with lastTick := b.now } : Bench σ).tick.value := by
    rw [tickIfDue, if_pos (h.due_iff.mpr hn)]
  have ht : TicksOnce { b with lastTick := b.now } b.tickIfDue.value := by
    rw [hb]
    exact ticksOnce_tick h.trial_eq
  have hs := standsStill_step h.verdict_eq (ht.trial_eq.trans h.trial_eq)
    (ht.verdict_eq.trans h.verdict_eq)
  have hcycle : Controller.cycle b.tickIfDue.value.controller = 40000 * n :=
    ht.cycle_eq.trans h.cycle_eq
  have hticks : (b.given .step).ticks = b.ticks + 1 := hs.ticks_eq.trans ht.ticks_eq
  have hlast : (b.given .step).lastTick = 2500 * n :=
    (hs.lastTick_eq.trans ht.lastTick_eq).trans h.now_eq
  have hold := h.ticks_eq
  obtain ⟨hpos, hdvd⟩ := hn
  refine ⟨⟨hs.trial_eq.trans (ht.trial_eq.trans h.trial_eq),
    hs.verdict_eq.trans (ht.verdict_eq.trans h.verdict_eq), ?_, by omega, by omega⟩, hticks,
    (congrArg CueQueue.cues hs.queue_eq).trans ht.cues_eq, ht.stays.trans hs.stays⟩
  rw [hs.cycle_eq, RegularClock.cycle_step, hcycle]
  omega

theorem step_not_due [RegularClock σ] (h : Paced n b) (hn : ¬ Due n) :
    Paced (n + 1) (b.given .step) ∧ (b.given .step).ticks = b.ticks ∧
      (b.given .step).queue = b.queue ∧ b.mechanism.Stays (b.given .step).mechanism := by
  have hb : b.tickIfDue.value = { b with lastTick := min b.lastTick b.now } := by
    rw [tickIfDue, if_neg (mt h.due_iff.mp hn)]
    rfl
  have hs := standsStill_step (b := b) h.verdict_eq (by rw [hb]; exact h.trial_eq)
    (by rw [hb]; exact h.verdict_eq)
  rw [hb] at hs
  have hlast : (b.given .step).lastTick = min b.lastTick b.now := hs.lastTick_eq
  have hticks : (b.given .step).ticks = b.ticks := hs.ticks_eq
  have hnow := h.now_eq
  have hold := h.ticks_eq
  have hlast' := h.lastTick_eq
  rw [Due] at hn
  refine ⟨⟨hs.trial_eq.trans h.trial_eq, hs.verdict_eq.trans h.verdict_eq, ?_, by omega, by omega⟩,
    hticks, hs.queue_eq, hs.stays⟩
  rw [hs.cycle_eq]
  dsimp only
  rw [RegularClock.cycle_step, h.cycle_eq]
  omega

theorem step [RegularClock σ] (h : Paced n b) : Paced (n + 1) (b.given .step) := by
  by_cases hn : Due n
  · exact (h.step_due hn).1
  · exact (h.step_not_due hn).1

end Paced

/-! ### Runs -/

theorem paced_giveAll [RegularClock σ] {b₀ : Bench σ} (h : Paced 0 b₀) (inputs : List Input) :
    Paced (steps inputs) (b₀.giveAll inputs) := by
  induction inputs using List.reverseRecOn with
  | nil => exact h
  | append_singleton inputs i ih =>
    rw [giveAll_concat, steps_append]
    cases i with
    | cue c =>
      have hb : (b₀.giveAll inputs).given (.cue c) =
          ((b₀.giveAll inputs).push c).toOption.getD (b₀.giveAll inputs) := rfl
      rw [hb, push]
      cases (b₀.giveAll inputs).queue.push c with
      | error => exact ih
      | ok queue => exact ⟨ih.1, ih.2, ih.3, ih.4, ih.5⟩
    | step => exact ih.step

/-- The bench after an input, its clock reckoned in machine words. A step tells the time at its
start and lets the clock go on. -/
def givenInWords [RegularClock σ] (b : Bench σ) : Input → Except Word (Bench σ)
  | .cue c => return b.given (.cue c)
  | .step => do
    let _ ← Word.clock.hold (Controller.cycle b.controller * RegularClock.scale σ : Nat)
    let b := b.given .step
    let _ ← Word.clock.hold (Controller.cycle b.controller : Nat)
    return b

/-- The bench after several inputs, its clock reckoned in machine words. -/
def giveAllInWords [RegularClock σ] (b : Bench σ) (inputs : List Input) :
    Except Word (Bench σ) := inputs.foldlM givenInWords b

theorem hold_clock (k : Nat) :
    Word.clock.hold (k : Nat) = if k < 2 ^ 64 then .ok (k : Int) else .error .clock := by
  have hk : Word.clock.Holds (k : Nat) ↔ k < 2 ^ 64 := by
    change 0 ≤ (k : Int) ∧ (k : Int) < 2 ^ 64 ↔ _
    omega
  rw [Word.hold]
  exact if_congr hk rfl rfl

theorem Paced.givenInWords_step [RegularClock σ] (h : Paced n b) :
    b.givenInWords .step =
      if 40000 * n * RegularClock.scale σ < 2 ^ 64 ∧ 40000 * (n + 1) < 2 ^ 64 then
        .ok (b.given .step)
      else .error .clock := by
  rw [givenInWords]
  dsimp only
  rw [h.cycle_eq, h.step.cycle_eq, hold_clock, hold_clock]
  by_cases htime : 40000 * n * RegularClock.scale σ < 2 ^ 64
  · rw [if_pos htime, if_congr (and_iff_right htime) rfl rfl]
    by_cases hnext : 40000 * (n + 1) < 2 ^ 64
    · rw [if_pos hnext, if_pos hnext]
      rfl
    · rw [if_neg hnext, if_neg hnext]
      rfl
  · have hfull : ¬(40000 * n * RegularClock.scale σ < 2 ^ 64 ∧ 40000 * (n + 1) < 2 ^ 64) :=
      fun hr => htime hr.1
    rw [if_neg htime, if_neg hfull]
    rfl

/-- There is room in the word of the clock for so many steps, and for no more. -/
def Lasts (σ : Type) [Controller σ] [RegularClock σ] (room : Nat) : Prop :=
  ∀ n, n < room ↔ 40000 * n * RegularClock.scale σ < 2 ^ 64 ∧ 40000 * (n + 1) < 2 ^ 64

/-- With room for its steps, a run in words comes to what it comes to without. -/
theorem giveAllInWords_eq [RegularClock σ] {b₀ : Bench σ} {room : Nat} (h : Paced 0 b₀)
    (hroom : Lasts σ room) (inputs : List Input) :
    b₀.giveAllInWords inputs =
      if steps inputs ≤ room then .ok (b₀.giveAll inputs) else .error .clock := by
  induction inputs using List.reverseRecOn with
  | nil =>
    rw [steps_nil, if_pos (Nat.zero_le room)]
    rfl
  | append_singleton inputs i ih =>
    have hfold : b₀.giveAllInWords (inputs ++ [i]) =
        b₀.giveAllInWords inputs >>= (givenInWords · i) := by
      rw [giveAllInWords, List.foldlM_append]
      exact congrArg _ (funext fun b => bind_pure _)
    rw [hfold, ih, giveAll_concat, steps_append]
    cases i with
    | cue c =>
      rw [show steps [.cue c] = 0 from rfl, Nat.add_zero]
      split <;> rfl
    | step =>
      rw [steps_cons_step, steps_nil, Nat.zero_add]
      by_cases hn : steps inputs ≤ room
      · rw [if_pos hn, Word.ok_bind, (paced_giveAll h inputs).givenInWords_step]
        exact if_congr ((hroom _).symm.trans Nat.lt_iff_add_one_le) rfl rfl
      · rw [if_neg hn, if_neg (by omega)]
        rfl

/-- Whether the step that comes after some inputs ticks. -/
def TicksNext (b₀ : Bench σ) (inputs : List Input) : Prop :=
  (b₀.giveAll (inputs ++ [.step])).ticks = (b₀.giveAll inputs).ticks + 1

/-- The pace of a bench from its start on, for as many steps as its clock has room for. -/
structure KeepsPace [RegularClock σ] (b₀ : Bench σ) (room : Nat) : Prop where
  /-- In machine words, too, the bench does what it does, and the first step beyond fails. -/
  words_eq (inputs : List Input) : b₀.giveAllInWords inputs =
    if steps inputs ≤ room then .ok (b₀.giveAll inputs) else .error .clock
  /-- Each step is one slice of the controller's time, and its clock counts all of them. -/
  cycle_eq (inputs : List Input) (h : steps inputs ≤ room) :
    Controller.cycle (b₀.giveAll inputs).controller = 40000 * steps inputs
  ticks_eq (inputs : List Input) (h : steps inputs ≤ room) :
    (b₀.giveAll inputs).ticks = (steps inputs - 1) / 5
  /-- A tick takes the oldest cue, if one waits, and makes the move that it asks for. -/
  tick (inputs : List Input) (h : steps inputs < room) (ht : b₀.TicksNext inputs) :
    let b := b₀.giveAll inputs
    let b' := b₀.giveAll (inputs ++ [.step])
    b'.queue.cues = b.queue.cues.tail ∧ (b.mechanism.moveIf b.wished).Stays b'.mechanism
  /-- A step without a tick takes no cue and moves nothing. -/
  rest (inputs : List Input) (h : steps inputs < room) (ht : ¬ b₀.TicksNext inputs) :
    let b := b₀.giveAll inputs
    let b' := b₀.giveAll (inputs ++ [.step])
    b'.ticks = b.ticks ∧ b'.queue = b.queue ∧ b.mechanism.Stays b'.mechanism
  /-- From one tick to the next the controller has five slices of time. -/
  slices (earlier between : List Input) (h : steps (earlier ++ .step :: between) < room)
    (ht : b₀.TicksNext earlier)
    (hb : (b₀.giveAll (earlier ++ .step :: between)).ticks = (b₀.giveAll earlier).ticks + 1)
    (ht' : b₀.TicksNext (earlier ++ .step :: between)) : steps (.step :: between) = 5

theorem ticksNext_iff [RegularClock σ] {b₀ : Bench σ} (h : Paced 0 b₀) (inputs : List Input) :
    b₀.TicksNext inputs ↔ Due (steps inputs) := by
  rw [TicksNext, (paced_giveAll h _).ticks_eq, (paced_giveAll h _).ticks_eq, steps_append,
    steps_cons_step, steps_nil, Due]
  omega

theorem keepsPace [RegularClock σ] {b₀ : Bench σ} {room : Nat} (h : Paced 0 b₀)
    (hroom : Lasts σ room) : b₀.KeepsPace room where
  words_eq inputs := giveAllInWords_eq h hroom inputs
  cycle_eq inputs _ := (paced_giveAll h inputs).cycle_eq
  ticks_eq inputs _ := (paced_giveAll h inputs).ticks_eq
  tick inputs _ hn := by
    rw [giveAll_concat]
    exact ((paced_giveAll h inputs).step_due ((ticksNext_iff h inputs).mp hn)).2.2
  rest inputs _ hn := by
    rw [giveAll_concat]
    exact ((paced_giveAll h inputs).step_not_due (mt (ticksNext_iff h inputs).mpr hn)).2
  slices earlier between _ hn hb hn' := by
    obtain ⟨hpos, hdvd⟩ := (ticksNext_iff h _).mp hn
    obtain ⟨-, hdvd'⟩ := (ticksNext_iff h _).mp hn'
    rw [(paced_giveAll h _).ticks_eq, (paced_giveAll h _).ticks_eq] at hb
    rw [steps_append, steps_cons_step] at hb hdvd'
    rw [steps_cons_step]
    omega

/-- An assembled bench without a trial, whether it traces or not. -/
theorem paced_assembled [RegularClock σ] (s : Setup) (c : σ) (tracing : Bool)
    (h : Controller.cycle c = 0) : Paced 0 ((assemble s c).setTracing tracing) :=
  ⟨rfl, rfl, (cycle_raiseLevels _ _).trans h, rfl, rfl⟩

theorem lasts_reference : Lasts ReferenceController 461168602 := by
  intro n
  change n < 461168602 ↔ 40000 * n * 1000000 < 2 ^ 64 ∧ 40000 * (n + 1) < 2 ^ 64
  omega

theorem lasts_idle : Lasts IdleController 461168601842738 := by
  intro n
  change n < 461168601842738 ↔ 40000 * n * 1 < 2 ^ 64 ∧ 40000 * (n + 1) < 2 ^ 64
  omega

/-- Without a trial the bench keeps its pace, with the reference controller or one that only lets
time pass, and whatever is queued at whatever moment, resets included: after `n` steps it has ticked
`(n - 1) / 5` times, each time taking one cue if one waits, and from the move of one tick to that of
the next the controller has five slices of time. That goes on until the word of the clock is full,
which the reference controller fills sooner, as it reckons its time from a multiple of its cycles:
after more than thirteen days. -/
theorem keepsPace_assembled (s : Setup) (model : Model) (tracing : Bool) :
    ((assemble s (ReferenceController.powerOn model)).setTracing tracing).KeepsPace 461168602 ∧
      ((assemble s ({} : IdleController)).setTracing tracing).KeepsPace 461168601842738 :=
  ⟨keepsPace (paced_assembled s _ tracing rfl) lasts_reference,
    keepsPace (paced_assembled s _ tracing rfl) lasts_idle⟩

/-- One step more, and the time can no longer be told. -/
theorem outgrown_assembled :
    (assemble .standard (ReferenceController.powerOn .kh910)).giveAllInWords
      (List.replicate 461168603 .step) = .error .clock := by
  have hp : Paced 0 (assemble .standard (ReferenceController.powerOn .kh910)) :=
    paced_assembled .standard _ false rfl
  have hn : steps (List.replicate 461168603 .step) = 461168603 := by
    rw [steps, List.countP_replicate]
    rfl
  rw [giveAllInWords_eq hp lasts_reference, hn]
  exact if_neg (by decide)

end Bench

end KnitBench
