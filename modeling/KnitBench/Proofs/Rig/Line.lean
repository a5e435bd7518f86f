import KnitBench.Proofs.Rig.Exchange

/-! A line on a rig: when the carriage sweeps over the range with a line that the controller holds,
it leaves every needle of the range as the line says, and the controller is done with the line at
the very step at which the selector leaves the range. -/

namespace KnitBench.Rig

open ReferenceController

variable {r : Rig} {d : Direction} {c : ReferenceController} {m' : Mechanism}

/-- What may happen to a rig. -/
inductive Act
  /-- The carriage moves by one encoder step, and the controller works for one slice of time and
  some more. -/
  | move (d : Direction) (more : Nat)
  | work
  | receive (bytes : List UInt8)
  | reset

/-- The rig after an act. -/
def act (r : Rig) : Act → Rig
  | .move d more => (r.move d (more + 1)).value.2
  | .work => r.step.value.2
  | .receive bytes => (r.receive bytes).value.2
  | .reset => r.reset.value

/-- The rig after several acts. -/
def play (r : Rig) (acts : List Act) : Rig := acts.foldl act r

/-- The rig after moves in one direction, each followed by one slice of time and some more. -/
def sweep (d : Direction) (more : List Nat) (r : Rig) : Rig := r.play (more.map (.move d))

/-- The needle at the selector of a carriage that moves in direction `d`. -/
def selector (r : Rig) (d : Direction) : Int :=
  r.mechanism.position + r.mechanism.setup.carriage.selectOffset d

theorem selector_eq (r : Rig) (d : Direction) :
    r.selector d = r.mechanism.setup.selectorAt d r.mechanism.quarters := by
  unfold selector Setup.selectorAt
  rw [r.mechanism.position_eq]

theorem Settled.act (h : r.Settled) (a : Act) : (r.act a).Settled := by
  cases a with
  | move d more => exact h.move d more
  | work => exact .of_step h.wired.toAttached h.receiver_eq
  | receive bytes => exact h.receive bytes
  | reset => exact h.reset

theorem Settled.play (h : r.Settled) (acts : List Act) : (r.play acts).Settled := by
  induction acts generalizing r with
  | nil => exact h
  | cons a acts ih => exact ih (h.act a)

/-- A slice of time does no more to the mechanism than put a register on its solenoids. -/
theorem exists_mechanism_step (ha : Attached r.mechanism r.controller) (hr : r.receiver = .empty) :
    ∃ v, r.step.value.2.mechanism = r.mechanism.latch v := by
  rw [step_snd ha hr]
  exact ⟨_, rfl⟩

theorem exists_mechanism_steps (h : r.Settled) (n : Nat) :
    ∃ v, (steps n r).value.2.mechanism = r.mechanism.latch v := by
  induction n generalizing r with
  | zero => exact ⟨r.mechanism.register, rfl⟩
  | succ n ih =>
    obtain ⟨v, hv⟩ := exists_mechanism_step h.wired.toAttached h.receiver_eq
    obtain ⟨w, hw⟩ := ih (.of_step h.wired.toAttached h.receiver_eq)
    exact ⟨w, by rw [value_steps_succ, hw, hv]; rfl⟩

theorem exists_mechanism_move (h : r.Settled) (d : Direction) (n : Nat) :
    ∃ v, (r.move d (n + 1)).value.2.mechanism = (r.mechanism.move d).latch v := by
  have ha : Attached (r.facing (r.mechanism.move d)).mechanism
      (r.facing (r.mechanism.move d)).controller := h.wired.toAttached.move d
  have hr : (r.facing (r.mechanism.move d)).receiver = .empty := h.receiver_eq
  obtain ⟨v, hv⟩ := exists_mechanism_step (r := r.facing (r.mechanism.move d)) ha hr
  obtain ⟨w, hw⟩ := exists_mechanism_steps (.of_step ha hr) n
  refine ⟨w, ?_⟩
  rw [move_eq, value_steps_succ, hw, hv]
  rfl

/-- The needle that the line of a controller asks for. -/
def asked (c : ReferenceController) (k : Nat) : Needle :=
  if c.line.bitmap.selects k then .selected else .idle

/-- The line of `c` is being knitted. -/
structure Sweeping (d : Direction) (c : ReferenceController) (r : Rig) : Prop where
  settled : r.Settled
  underway : Underway d r.mechanism r.controller
  held : Held c r.controller
  shaped : r.mechanism.Shaped d c.start c.stop fun k => c.line.bitmap.selects k.toNat
  commanded : r.mechanism.Commanded d c.start c.stop fun k => c.line.bitmap.selects k.toNat
  stop_lt : c.stop < r.mechanism.setup.model.needleCount

/-- The line of `c` has been knitted. -/
structure Swept (d : Direction) (c : ReferenceController) (r : Rig) : Prop where
  settled : r.Settled
  past : c.leftRange (r.selector d) d = true
  needle : ∀ k, c.start ≤ k → k ≤ c.stop → r.mechanism.needles[k]? = some (asked c k)

/-- The messages that a controller sends when it is done with its line. -/
def requests (c : ReferenceController) : List (List UInt8) :=
  if c.line.last then [] else [Message.reqLine (c.line.index + 1)]

/-- The controller is done with the line of `c`. -/
structure Finished (c c' : ReferenceController) : Prop where
  mode_eq : c'.mode = if c.line.last then .ready else .knitting
  line_eq : ∃ index, c'.line = { c.line with ready := false, worked := none, index } ∧
    index = if c.line.last then c.line.index else c.line.index + 1

theorem leftRange_congr {c c' : ReferenceController} (h : Held c c') (p : Int) :
    c'.leftRange p d = c.leftRange p d := by
  unfold leftRange
  rw [h.start_eq, h.stop_eq]

theorem Sweeping.not_past (h : Sweeping d c r) : c.leftRange (r.selector d) d = false := by
  rw [selector_eq, ← leftRange_congr h.held]
  rcases h.underway.entered with ⟨-, ha⟩ | ⟨-, hl⟩
  · exact leftRange_of_ahead h.underway.start_le ha
  · exact hl

/-- What a slice makes of a sweep: it goes on, or it has just come to its end. -/
theorem Sweeping.slice (h : Sweeping d c r) (ho : Onward d r.mechanism m' r.controller)
    (hs : m'.Shaped d c.start c.stop fun k => c.line.bitmap.selects k.toNat) :
    let r' := r.facing m'
    (c.leftRange (r'.selector d) d = false ∧ Sweeping d c r'.step.value.2 ∧
      r'.step.value.2.controller.tracker.direction = some d ∧ messages r'.step.value.1 = []) ∨
    (c.leftRange (r'.selector d) d = true ∧ Swept d c r'.step.value.2 ∧
      Finished c r'.step.value.2.controller ∧ messages r'.step.value.1 = requests c) := by
  intro r'
  have ha : Attached r'.mechanism r'.controller := ho.attached h.settled.wired.toAttached
  have hr : r'.receiver = .empty := h.settled.receiver_eq
  have hset := Settled.of_step ha hr
  have hstop : c.stop < m'.setup.model.needleCount := by
    rw [ho.setup_eq]
    exact h.stop_lt
  have hlr := leftRange_congr (d := d) h.held
  rw [selector_eq]
  change (c.leftRange (m'.setup.selectorAt d m'.quarters) d = false ∧ _) ∨
    (c.leftRange (m'.setup.selectorAt d m'.quarters) d = true ∧ _)
  cases hl : c.leftRange (m'.setup.selectorAt d m'.quarters) d with
  | false =>
    left
    obtain ⟨hu, hh, hd, hcom, hq⟩ := h.underway.slice h.settled.wired ho h.settled.queues
      ((hlr _).trans hl)
    obtain ⟨w, hw⟩ := h.held.line_eq
    rw [h.held.start_eq, h.held.stop_eq, hw] at hcom
    have hm := messages_step (r := r') hq (by simp) hr
    refine ⟨rfl, ?_, ?_, hm⟩
    · have hsn := step_snd ha hr
      refine ⟨hset, ?_, ?_, ?_, ?_, ?_⟩ <;> rw [hsn]
      · exact hu
      · exact h.held.trans hh
      · exact Mechanism.shaped_latch hs _
      · exact hcom
      · exact hstop
    · rw [step_snd ha hr]
      exact hd
  | true =>
    right
    obtain ⟨w, hw⟩ := h.held.line_eq
    have hswept : Swept d c r'.step.value.2 := by
      refine ⟨hset, ?_, ?_⟩
      · rw [selector_eq, step_snd ha hr]
        exact hl
      · intro k hk hk'
        rw [step_snd ha hr]
        have hn := hs.needle k hk hk' (by
          cases d <;> simp only [leftRange, decide_eq_true_iff] at hl <;>
            simp only [Direction.step] <;> omega)
        refine hn.trans (congrArg some ?_)
        rw [Int.toNat_natCast, asked]
        cases c.line.bitmap.selects k <;> rfl
    refine ⟨rfl, hswept, ?_⟩
    cases hlast : c.line.last with
    | false =>
      obtain ⟨hk, hd, hmode, -, -, hline, hq⟩ := h.underway.finish h.settled.wired ho
        h.settled.queues ((hlr _).trans hl) (by rw [hw]; exact hlast)
      refine ⟨⟨?_, ?_⟩, ?_⟩
      · rw [step_snd ha hr, hlast]
        exact hmode
      · rw [step_snd ha hr]
        exact ⟨c.line.index + 1, hline.trans (by rw [hw]), by rw [hlast]; rfl⟩
      · rw [messages_step (r := r') hq _ hr, requests, hlast, hw]
        · rfl
        · simpa using Message.fits_reqLine _
    | true =>
      obtain ⟨hk, hmode, hline, hq⟩ := h.underway.finish_last h.settled.wired ho
        h.settled.queues ((hlr _).trans hl) (by rw [hw]; exact hlast)
      refine ⟨⟨?_, ?_⟩, ?_⟩
      · rw [step_snd ha hr, hlast]
        exact hmode
      · rw [step_snd ha hr]
        exact ⟨c.line.index, hline.trans (by rw [hw]), by rw [hlast]; rfl⟩
      · rw [messages_step (r := r') hq (by simp) hr, requests, hlast]
        rfl

/-- While the carriage rests after a move in direction `d`, the sweep does not end. -/
theorem Sweeping.steps (h : Sweeping d c r) (hd : r.controller.tracker.direction = some d)
    (n : Nat) :
    Sweeping d c (steps n r).value.2 ∧ messages (steps n r).value.1 = [] := by
  induction n generalizing r with
  | zero => exact ⟨h, rfl⟩
  | succ n ih =>
    have ho : Onward d r.mechanism r.mechanism r.controller := .still h.settled.wired.aligned hd
    have hself : r.facing r.mechanism = r := by
      rw [facing, ← h.settled.wired.levels_eq]
      rfl
    have hs := h.slice ho h.shaped
    rw [hself] at hs
    rcases hs with ⟨-, hs, hd', hm⟩ | ⟨hp, -⟩
    · obtain ⟨hi, hmi⟩ := ih hs hd'
      rw [value_steps_succ]
      exact ⟨hi, by rw [messages_append, hm, hmi]; rfl⟩
    · exact absurd (h.not_past.symm.trans hp) Bool.false_ne_true

/-- A controller without a line says nothing. -/
theorem Finished.steps {c : ReferenceController} (h : Finished c r.controller) (hr : r.Settled)
    (n : Nat) :
    Finished c (steps n r).value.2.controller ∧ messages (steps n r).value.1 = [] := by
  induction n generalizing r with
  | zero => exact ⟨h, rfl⟩
  | succ n ih =>
    obtain ⟨index, hline, hindex⟩ := h.line_eq
    have hready : r.controller.tracked.line.ready = false := by
      change r.controller.line.ready = false
      rw [hline]
    have hwork : r.controller.worked = r.controller.tracked := by
      rw [worked, workLine, if_neg fun hk => by rw [hready] at hk; exact Bool.false_ne_true hk.2]
      rfl
    have hq : r.controller.worked.Queues [] := by
      rw [hwork]
      exact hr.queues
    have hf : Finished c r.step.value.2.controller := by
      rw [step_snd hr.wired.toAttached hr.receiver_eq, sliced, hwork]
      exact ⟨h.mode_eq, h.line_eq⟩
    obtain ⟨hi, hmi⟩ := ih hf (.of_step hr.wired.toAttached hr.receiver_eq)
    rw [value_steps_succ]
    refine ⟨hi, ?_⟩
    rw [messages_append, messages_step hq (by simp) hr.receiver_eq, hmi]
    rfl

theorem Swept.steps (h : Swept d c r) (n : Nat) : Swept d c (steps n r).value.2 := by
  obtain ⟨v, hv⟩ := exists_mechanism_steps h.settled n
  refine ⟨h.settled.steps n, ?_, ?_⟩
  · rw [selector, hv]
    exact h.past
  · rw [hv]
    exact h.needle

/-- What a move makes of a sweep: it goes on without a word, or the selector has just left the
range, and the controller is done with the line. -/
theorem Sweeping.move (h : Sweeping d c r) (more : Nat) :
    let next := (r.move d (more + 1)).value
    (c.leftRange (next.2.selector d) d = false ∧ Sweeping d c next.2 ∧ messages next.1 = []) ∨
    (c.leftRange (next.2.selector d) d = true ∧ Swept d c next.2 ∧ Finished c next.2.controller ∧
      messages next.1 = requests c) := by
  intro next
  obtain ⟨v, hv⟩ := exists_mechanism_move h.settled d more
  have hsel : next.2.selector d = (r.facing (r.mechanism.move d)).selector d := by
    rw [selector, hv]
    rfl
  have hrail := Mechanism.atRail_of_not_past (selector_eq r d ▸ h.not_past) h.stop_lt
  have hqm := Mechanism.quarters_move_of_not_atRail h.settled.wired.aligned hrail
  have ho : Onward d r.mechanism (r.mechanism.move d) r.controller :=
    .move h.settled.wired.aligned hrail
  have hs := Mechanism.shaped_move h.shaped h.commanded h.settled.wired.aligned hqm h.stop_lt
  have hnext : next = ((r.facing (r.mechanism.move d)).step.value.1 ++
        (Rig.steps more (r.facing (r.mechanism.move d)).step.value.2).value.1,
      (Rig.steps more (r.facing (r.mechanism.move d)).step.value.2).value.2) := by
    rw [← value_steps_succ, ← move_eq]
  rw [hsel]
  rcases h.slice ho hs with ⟨hp, hs, hd, hm⟩ | ⟨hp, hs, hf, hm⟩
  · left
    obtain ⟨hi, hmi⟩ := hs.steps hd more
    rw [hnext]
    exact ⟨hp, hi, (messages_append ..).trans (by rw [hmi, List.append_nil]; exact hm)⟩
  · right
    obtain ⟨hi, hmi⟩ := hf.steps hs.settled more
    rw [hnext]
    exact ⟨hp, hs.steps more, hi,
      (messages_append ..).trans (by rw [hmi, List.append_nil]; exact hm)⟩

/-- Farther on, the needles of the range stay as they are. -/
theorem Swept.move (h : Swept d c r) (more : Nat) : Swept d c (r.move d (more + 1)).value.2 := by
  obtain ⟨v, hv⟩ := exists_mechanism_move h.settled d more
  have hq := Mechanism.quarters_move h.settled.wired.aligned d
  have hadv := Mechanism.advanced_mem h.settled.wired.aligned d
  have hp := h.past
  rw [selector_eq] at hp
  have hp' : c.leftRange
      (r.mechanism.setup.selectorAt d (r.mechanism.move d).quarters) d = true := by
    rw [hq]
    unfold Setup.selectorAt at hp ⊢
    cases d <;> simp only [leftRange, decide_eq_true_iff] at hp ⊢ <;>
      simp only [Direction.step] at hadv <;> omega
  refine ⟨h.settled.move d more, ?_, ?_⟩
  · rw [selector_eq, hv]
    exact hp'
  · intro k hk hk'
    rw [hv]
    refine Eq.trans (Mechanism.needles_move_of_ne ?_) (h.needle k hk hk')
    rw [Mechanism.selected_move, Mechanism.position_eq]
    unfold Setup.selectorAt at hp'
    cases d <;> simp only [leftRange, decide_eq_true_iff] at hp' <;> omega

/-- However far the carriage goes on, the line is being knitted or has been knitted. -/
theorem Sweeping.sweep (h : Sweeping d c r) (more : List Nat) :
    (c.leftRange ((sweep d more r).selector d) d = false ∧ Sweeping d c (sweep d more r)) ∨
      Swept d c (sweep d more r) := by
  have swept {r : Rig} (hs : Swept d c r) (more : List Nat) : Swept d c (Rig.sweep d more r) := by
    induction more generalizing r with
    | nil => exact hs
    | cons n more ih => exact ih (hs.move n)
  induction more generalizing r with
  | nil => exact Or.inl ⟨h.not_past, h⟩
  | cons n more ih =>
    rcases h.move n with ⟨-, hs, -⟩ | ⟨-, hs, -⟩
    · exact ih hs
    · exact Or.inr (swept hs more)

theorem ranged_sliced {hall : HallReading} (hc : c.Ranged) : (c.sliced hall).Ranged :=
  (reranges_worked c).ranged hc

theorem ranged_step (h : r.Settled) (hc : r.controller.Ranged) :
    r.step.value.2.controller.Ranged := by
  rw [step_snd h.wired.toAttached h.receiver_eq]
  exact ranged_sliced hc

theorem ranged_steps (h : r.Settled) (hc : r.controller.Ranged) (n : Nat) :
    (steps n r).value.2.controller.Ranged := by
  induction n generalizing r with
  | zero => exact hc
  | succ n ih =>
    exact ih (.of_step h.wired.toAttached h.receiver_eq) (ranged_step h hc)

theorem ranged_receiveAll (hc : c.Ranged) (bytes : List UInt8) :
    (Controller.receiveAll bytes c).value.Ranged :=
  kept_receiveAll (fun _ _ h => h) (fun c m h => (reranges_onMessage c m).ranged h) hc bytes

/-- No act takes the mechanism to another setup, or the range off the bed. -/
theorem setup_act (h : r.Settled) (hc : r.controller.Ranged) (a : Act) :
    (r.act a).mechanism.setup = r.mechanism.setup ∧ (r.act a).controller.Ranged := by
  cases a with
  | move d more =>
    obtain ⟨v, hv⟩ := exists_mechanism_move h d more
    refine ⟨by rw [act, hv]; rfl, ?_⟩
    have ha : Attached (r.facing (r.mechanism.move d)).mechanism
        (r.facing (r.mechanism.move d)).controller := h.wired.toAttached.move d
    have hr : (r.facing (r.mechanism.move d)).receiver = .empty := h.receiver_eq
    rw [act, move_eq, value_steps_succ]
    refine ranged_steps (.of_step ha hr) ?_ more
    rw [step_snd ha hr]
    exact ranged_sliced (c := r.controller.seeing _) hc
  | work =>
    obtain ⟨v, hv⟩ := exists_mechanism_step h.wired.toAttached h.receiver_eq
    exact ⟨by rw [act, hv]; rfl, ranged_step h hc⟩
  | receive bytes =>
    obtain ⟨ms, hq⟩ := (Settled.wired_receiveAll bytes h.wired).queues
    have hp := pump_snd (r := { r with
      controller := (Controller.receiveAll bytes r.controller).value }) hq h.receiver_eq
    change (pump _).2.mechanism.setup = _ ∧ (pump _).2.controller.Ranged
    rw [hp]
    exact ⟨rfl, ranged_receiveAll hc bytes⟩
  | reset => exact ⟨rfl, ranged_of_mode_ne nofun⟩

theorem setup_play (h : r.Settled) (hc : r.controller.Ranged) (acts : List Act) :
    (r.play acts).mechanism.setup = r.mechanism.setup ∧ (r.play acts).controller.Ranged := by
  induction acts generalizing r with
  | nil => exact ⟨rfl, hc⟩
  | cons a acts ih =>
    obtain ⟨hs, hc'⟩ := setup_act h hc a
    obtain ⟨hs', hc''⟩ := ih (h.act a) hc'
    exact ⟨hs'.trans hs, hc''⟩

/-- The selector is at least one cycle of the cam away from the range, on the side from which the
carriage comes. -/
def Clear (r : Rig) : Direction → Prop
  | .right => r.selector .right + r.mechanism.setup.model.solenoidCount ≤ r.controller.start
  | .left => (r.controller.stop : Int) + r.mechanism.setup.model.solenoidCount ≤ r.selector .left

instance (r : Rig) (d : Direction) : Decidable (r.Clear d) :=
  match d with
  | .right => inferInstanceAs (Decidable (_ ≤ _))
  | .left => inferInstanceAs (Decidable (_ ≤ _))

/-- The controller holds a line that it has not begun, it knows the carriage, its place and how the
belt is coupled, and the carriage is clear of the range. -/
structure Poised (s : Setup) (d : Direction) (r : Rig) : Prop where
  model_eq : r.controller.model = s.model
  mode_eq : r.controller.mode = .knitting
  ready_eq : r.controller.line.ready = true
  worked_eq : r.controller.line.worked = none
  carriage_eq : r.controller.tracker.carriage = some s.carriage
  position_eq : r.controller.tracker.position = r.mechanism.position
  belt_eq : s.model ≠ .kh270 → r.controller.tracker.belt = some s.belt
  clear : r.Clear d

theorem Poised.sweeping {s : Setup} (h : r.Poised s d) (hr : r.Settled)
    (hs : r.mechanism.setup = s) (hc : r.controller.Ranged) : Sweeping d r.controller r := by
  obtain ⟨hle, hlt⟩ := hc h.mode_eq
  have hreach (k : Int) (hk : (r.controller.start : Int) ≤ k) (hk' : k ≤ r.controller.stop) :
      r.mechanism.setup.reach d r.mechanism.quarters k ≤ 0 := by
    have hb := r.mechanism.setup.reach_bounds d r.mechanism.quarters k
    have hl := r.mechanism.setup.lead_bounds d
    have hcl := h.clear
    rw [← selector_eq] at hb
    cases d <;> simp only [Clear] at hcl <;>
      simp only [Direction.step, reduceCtorEq, if_true, if_false] at hb <;> omega
  refine ⟨hr, ⟨⟨?_, ?_, h.position_eq, ?_⟩, h.mode_eq, h.ready_eq, hle, Or.inl ⟨h.worked_eq, ?_⟩⟩,
    ⟨rfl, rfl, rfl, _, rfl⟩, Mechanism.shaped_of_reach_le ?_, ?_, ?_⟩
  · rw [hs, h.model_eq]
  · rw [hs, h.carriage_eq]
  · rw [hs]
    exact h.belt_eq
  · have hcl := h.clear
    have hn := r.mechanism.setup.model.solenoidCount_pos
    rw [← selector_eq]
    cases d <;> simp only [Clear, ahead] at hcl ⊢ <;> omega
  · intro k hk hk'
    have := hreach k hk hk'
    omega
  · intro k hk hk' h₁ _
    have := hreach k hk hk'
    omega
  · rw [hs, ← h.model_eq]
    exact hlt

/-- When a steady sweep has taken the selector out of the range on the far side, every needle of the
range is selected exactly as the line asks. Until then the controller holds the line and says
nothing; at the move with which the selector leaves the range it is done with the line, and asks for
the next one unless this was the last. -/
theorem sweep_knits_line (s : Setup) (model : Model) (acts : List Act) (d : Direction)
    (h : ((assemble s model).play acts).Poised s d) (more : List Nat) :
    let r := (assemble s model).play acts
    let c := r.controller
    let now := sweep d more r
    (c.leftRange (now.selector d) d = true →
      ∀ k, c.start ≤ k → k ≤ c.stop → now.mechanism.needles[k]? = some (asked c k)) ∧
    (c.leftRange (now.selector d) d = false →
      Held c now.controller ∧ ∀ n,
        let next := (now.move d (n + 1)).value
        (c.leftRange (next.2.selector d) d = false → messages next.1 = []) ∧
        (c.leftRange (next.2.selector d) d = true →
          Finished c next.2.controller ∧ messages next.1 = requests c)) := by
  intro r c now
  have hset : r.Settled := (Settled.assemble s model).play acts
  have hc₀ : (assemble s model).controller.Ranged := by
    rw [assemble, raiseLevels_eq]
    exact ranged_powerOn model
  obtain ⟨hs, hc⟩ := setup_play (Settled.assemble s model) hc₀ acts
  have hsw : Sweeping d c r := h.sweeping hset hs hc
  rcases hsw.sweep more with ⟨hl, hnow⟩ | hnow
  · refine ⟨fun hp => absurd (hl.symm.trans hp) Bool.false_ne_true, fun _ => ⟨hnow.held, ?_⟩⟩
    intro n next
    rcases hnow.move n with ⟨hn, -, hm⟩ | ⟨hp, -, hf, hm⟩
    · exact ⟨fun _ => hm, fun hp => absurd (hn.symm.trans hp) Bool.false_ne_true⟩
    · exact ⟨fun hn => absurd (hn.symm.trans hp) Bool.false_ne_true, fun _ => ⟨hf, hm⟩⟩
  · exact ⟨fun _ => hnow.needle, fun hl => absurd (hl.symm.trans hnow.past) Bool.false_ne_true⟩

/-- A garter carriage that comes from the left to knit three needles. -/
def garterSetup : Setup :=
  ⟨.kh910, .garter, .regular, .left, 10, 12, by decide, by decide, by decide, by decide⟩

/-- Past both magnets of the left sensor; then the controller is told its machine, the range and a
line. -/
def garterActs : List Act :=
  List.replicate 26 (.move .right 0) ++ [
    .receive (Wire.frame (Message.reqInit .kh910)),
    .receive (Wire.frame (Message.reqStart 10 12 0)),
    .receive (Wire.frame (Message.cnfLine 0 0 Message.lastLineFlag
      (LineBitmap.ofCells #[.selected, .idle] 10 12)))]

set_option maxRecDepth 10000 in
theorem sweep_knits_line_garter :
    ((assemble garterSetup .kh910).play garterActs).Poised garterSetup .right ∧
      ∀ k, 10 ≤ k → k ≤ 12 →
        (sweep .right (List.replicate 90 0)
          ((assemble garterSetup .kh910).play garterActs)).mechanism.needles[k]? =
          some (asked ((assemble garterSetup .kh910).play garterActs).controller k) := by
  have hp : ((assemble garterSetup .kh910).play garterActs).Poised garterSetup .right := by
    constructor <;> decide +kernel
  refine ⟨hp, ?_⟩
  have hs : ((assemble garterSetup .kh910).play garterActs).controller.start = 10 := by
    decide +kernel
  have ht : ((assemble garterSetup .kh910).play garterActs).controller.stop = 12 := by
    decide +kernel
  have h := (sweep_knits_line garterSetup .kh910 garterActs .right hp
    (List.replicate 90 0)).1 (by decide +kernel)
  rwa [hs, ht] at h

end KnitBench.Rig
