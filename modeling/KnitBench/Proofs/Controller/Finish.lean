import KnitBench.Proofs.Controller.Answers
import KnitBench.Proofs.Controller.Detection

/-! At which slices of its time the controller is done with a line. It remembers in which direction
the line has been worked, and until it is done the selector has not left the range on the far side
of that direction. But where the selector is follows from the direction at hand: when the carriage
turns back, the selector goes over to the other side of the carriage, and may leave the range by
that alone. -/

namespace KnitBench.ReferenceController

variable {c c' : ReferenceController} {d : Direction} {carriage : Carriage}

namespace Tracker

variable {t : Tracker} {m : Model}

/-- A carriage that is known stays known, but for a lace carriage that proves a garter carriage. -/
theorem value_meet_cases (h : t.carriage = some carriage) (side : Side) (pole : Pole) :
    (t.meet m side pole).value = t ∨
      carriage = .lace ∧ (t.meet m side pole).value.carriage = some .garter := by
  by_cases hl : carriage = .lace
  · subst hl
    cases pole with
    | south => exact Or.inl (value_meet_lace h (Or.inl rfl))
    | north =>
      by_cases hs : ∃ a, t.southSeen = some (side, a)
      · obtain ⟨a, hs⟩ := hs
        exact Or.inr ⟨rfl, by rw [value_meet_pair h hs]⟩
      · exact Or.inl (value_meet_lace h (Or.inr fun a ha => hs ⟨a, ha⟩))
  · exact Or.inl (value_meet_known h hl)

theorem value_readSensor_cases (h : t.carriage = some carriage) (sensor : Side) (level : UInt16) :
    (t.readSensor m sensor level).value = t ∨
      carriage = .lace ∧ (t.readSensor m sensor level).value.carriage = some .garter := by
  simp only [readSensor]
  cases Pole.ofLevel m sensor level with
  | none => exact Or.inl rfl
  | some pole => exact value_meet_cases h sensor pole

theorem value_sense_cases (h : t.carriage = some carriage) (hall : HallReading) :
    (∃ south, (t.sense m hall).value = { t with southSeen := south }) ∨
      carriage = .lace ∧ (t.sense m hall).value.carriage = some .garter := by
  obtain ⟨south, hf⟩ := exists_forgetSouth t
  simp only [sense, Logged.value_bind]
  rcases value_readSensor_cases (t := t.forgetSouth) (m := m) (by rw [hf]; exact h) .left
    hall.left with hl | ⟨rfl, hl⟩
  · rw [hl]
    exact (value_readSensor_cases (by rw [hf]; exact h) .right hall.right).imp_left
      fun hr => ⟨south, hr.trans hf⟩
  · right
    refine ⟨rfl, ?_⟩
    rcases value_readSensor_cases (m := m) hl .right hall.right with hr | ⟨hr, -⟩
    · rw [hr, hl]
    · cases hr

/-- Counting goes by at most one needle, in the direction that is then known. -/
theorem value_decode_cases (t : Tracker) (l : Levels) :
    (∃ quarter, (t.decode l).value = { t with quarter }) ∨
      ∃ quarter d position, (t.decode l).value =
          { t with quarter, direction := some d, position } ∧
        (position = t.position ∨ position = t.position + d.step) := by
  simp only [decode]
  split
  · exact Or.inl ⟨t.quarter, rfl⟩
  · refine Or.inr ⟨_, .right, _, rfl, ?_⟩
    split
    · exact Or.inr rfl
    · exact Or.inl rfl
  · exact Or.inl ⟨_, rfl⟩
  · refine Or.inr ⟨_, .left, _, rfl, ?_⟩
    split
    · exact Or.inr rfl
    · exact Or.inl rfl

/-- What a slice of time does to a tracker that knows carriage and direction. -/
theorem track_cases (h : t.carriage = some carriage) (hd : t.direction = some d) (l : Levels)
    (hall : HallReading) :
    let t' := (t.track m l hall).value
    ∃ d', t'.direction = some d' ∧
      (t'.carriage = some carriage ∧
          (t'.position = t.position ∨ t'.position = t.position + d'.step) ∨
        carriage = .lace ∧ t'.carriage = some .garter) := by
  intro t'
  obtain ⟨b, hb⟩ := t.exists_value_track m l hall
  have ht' : t' = { ((t.sense m hall).value.decode l).value with belt := b } := hb
  have hsd : (t.sense m hall).value.direction = some d := (encoder_sense ..).2.trans hd
  have hs := value_sense_cases (m := m) h hall
  rw [ht']
  generalize (t.sense m hall).value = u at hsd hs ⊢
  rcases value_decode_cases u l with ⟨quarter, hu⟩ | ⟨quarter, d', position, hu, hp⟩
  · rw [hu]
    refine ⟨d, hsd, ?_⟩
    rcases hs with ⟨south, rfl⟩ | ⟨hl, hg⟩
    · exact Or.inl ⟨h, Or.inl rfl⟩
    · exact Or.inr ⟨hl, hg⟩
  · rw [hu]
    refine ⟨d', rfl, ?_⟩
    rcases hs with ⟨south, rfl⟩ | ⟨hl, hg⟩
    · exact Or.inl ⟨h, hp⟩
    · exact Or.inr ⟨hl, hg⟩

/-- When the carriage turns round, its selector goes over to the other side of it. -/
theorem selected_reversed (t : Tracker) (carriage : Carriage) (d : Direction) :
    t.selected carriage d.reversed =
      t.selected carriage d + 2 * carriage.homePosition * d.step := by
  unfold selected Carriage.selectOffset
  cases d <;> simp only [Direction.reversed, Direction.step] <;> omega

end Tracker

/-- A selector that goes back does not leave the range on the far side. -/
theorem leftRange_back {p q : Int} (h : c.leftRange p d = false)
    (hq : q = p ∨ q = p + d.reversed.step) : c.leftRange q d = false := by
  unfold leftRange at h ⊢
  cases d <;> simp only [decide_eq_false_iff_not, Direction.reversed, Direction.step] at h hq ⊢ <;>
    omega

/-- As long as a line is worked, the selector has not left the range on the far side. -/
def Unfinished (c : ReferenceController) : Prop :=
  c.mode = .knitting → c.line.ready = true → ∀ d, c.line.worked = some d →
    ∃ carriage d₀, c.tracker.carriage = some carriage ∧ c.tracker.direction = some d₀ ∧
      c.leftRange (c.tracker.selected carriage d₀) d = false

/-- How a slice of time with which the tracker comes to `t` has ended the line of `c`, worked in
direction `d`. -/
inductive EndsLine (d : Direction) (c : ReferenceController) (t : Tracker) : Prop
  /-- The carriage still goes that way, and the selector has left the range. -/
  | passed (carriage : Carriage) (hc : t.carriage = some carriage) (hd : t.direction = some d)
      (hp : c.leftRange (t.selected carriage d) d = true)
  /-- The carriage has just turned back. The selector has not left the range, but the one on the
  other side of the carriage lies beyond it. -/
  | turned (carriage : Carriage) (hh : 0 < carriage.homePosition)
      (hc₀ : c.tracker.carriage = some carriage) (hc : t.carriage = some carriage)
      (hd₀ : c.tracker.direction = some d) (hd : t.direction = some d.reversed)
      (hn : c.leftRange (t.selected carriage d) d = false)
      (hp : c.leftRange (t.selected carriage d + 2 * carriage.homePosition * d.step) d = true)
  /-- The carriage has turned back, and has just proved a garter carriage. -/
  | recognised (hc₀ : c.tracker.carriage = some .lace) (hc : t.carriage = some .garter)
      (hd : t.direction = some d.reversed)
      (hp : c.leftRange (t.selected .garter d.reversed) d = true)

/-- Beyond the range, the way that the carriage has gone tells how it has come there. -/
theorem endsLine_of_past {d₀ d₁ : Direction} {carriage₀ : Carriage} {t : Tracker}
    (hc₀ : c.tracker.carriage = some carriage₀) (hd₀ : c.tracker.direction = some d₀)
    (hn : c.leftRange (c.tracker.selected carriage₀ d₀) d = false)
    (hd₁ : t.direction = some d₁)
    (ht : t.carriage = some carriage₀ ∧
        (t.position = c.tracker.position ∨ t.position = c.tracker.position + d₁.step) ∨
      carriage₀ = .lace ∧ t.carriage = some .garter)
    (hc : t.carriage = some carriage) (hp : c.leftRange (t.selected carriage d₁) d = true) :
    EndsLine d c t := by
  obtain rfl | rfl : d₁ = d ∨ d₁ = d.reversed := by cases d₁ <;> cases d <;> decide
  · exact .passed carriage hc hd₁ hp
  rcases ht with ⟨hc', hpos⟩ | ⟨rfl, hc'⟩
  · obtain rfl : carriage = carriage₀ := Option.some.inj (hc.symm.trans hc')
    -- the selector of either direction has moved back, if at all
    have back (d' : Direction) (h : c.leftRange (c.tracker.selected carriage d') d = false) :
        c.leftRange (t.selected carriage d') d = false := by
      refine leftRange_back h ?_
      unfold Tracker.selected
      rcases hpos with hpos | hpos
      · exact Or.inl (by rw [hpos])
      · exact Or.inr (by rw [hpos]; omega)
    obtain rfl | rfl : d₀ = d ∨ d₀ = d.reversed := by cases d₀ <;> cases d <;> decide
    · have hn' := back d₀ hn
      rw [Tracker.selected_reversed] at hp
      refine .turned carriage ?_ hc₀ hc hd₀ hd₁ hn' hp
      cases carriage with
      | garter =>
        rw [show Carriage.garter.homePosition = 0 from rfl, Int.mul_zero, Int.zero_mul,
          Int.add_zero, hn'] at hp
        cases hp
      | knit | lace | knit270 => decide
    · exact absurd ((back _ hn).symm.trans hp) Bool.false_ne_true
  · obtain rfl : carriage = .garter := Option.some.inj (hc.symm.trans hc')
    exact .recognised hc₀ hc' hd₁ hp

namespace Unfinished

theorem of_ready (h : c.line.ready = false) : c.Unfinished :=
  fun _ hr => absurd (h.symm.trans hr) Bool.false_ne_true

theorem of_worked (h : c.line.worked = none) : c.Unfinished :=
  fun _ _ d hw => absurd (h.symm.trans hw) (Option.some_ne_none d).symm

theorem of_mode (h : c.mode ≠ .knitting) : c.Unfinished := fun hm => absurd hm h

theorem send (h : c.Unfinished) (m : List UInt8) : (c.send m).Unfinished :=
  fun hm hr d hw => h hm hr d hw

end Unfinished

/-- Finishing the line takes it away. -/
theorem exists_finishLine (c : ReferenceController) :
    ∃ mode index lamp0 lamp1 outbox, c.finishLine.value = { c with
      mode
      line := { c.line with ready := false, worked := none, index }
      lamp0, lamp1, outbox } := by
  cases hl : c.line.last with
  | false =>
    rw [value_finishLine hl]
    exact ⟨_, _, _, _, _, rfl⟩
  | true =>
    obtain ⟨lamp0, outbox, he⟩ := exists_value_enter
      { c with line := { c.line with ready := false, worked := none } }.beep.toggleLamp1 .ready
    rw [value_finishLine_last hl, he]
    exact ⟨_, _, _, _, _, rfl⟩

/-- Work on a line leaves all but the line, the mode and the lamps alone. -/
theorem exists_workLine (c : ReferenceController) :
    ∃ mode line lamp0 lamp1 outbox, c.workLine.value =
      { c with mode, line, lamp0, lamp1, outbox } := by
  obtain ⟨worked, hw⟩ | ⟨-, -, worked, hw⟩ := c.value_workLine_cases
  · rw [hw]
    exact ⟨_, _, _, _, _, rfl⟩
  · obtain ⟨mode, index, lamp0, lamp1, outbox, hf⟩ := (c.noting worked).exists_finishLine
    rw [hw, hf]
    exact ⟨_, _, _, _, _, rfl⟩

/-- A selector that enters the range is not beyond it. -/
theorem leftRange_of_inRange {p : Int} (h : c.inRange p = true) (d : Direction) :
    c.leftRange p d = false := by
  have hp := of_decide_eq_true h
  unfold leftRange
  cases d <;> simp only [decide_eq_false_iff_not] <;> omega

/-- A note that the selector has entered the range at a place beyond it was made before. -/
theorem worked_of_entered {d₀ : Direction} (he : c.entered carriage d₀ = some d)
    (hp : c.leftRange (c.tracker.selected carriage d₀) d = true) : c.line.worked = some d := by
  unfold entered at he
  cases hw : c.line.worked with
  | some d' => rwa [hw] at he
  | none =>
    rw [hw, Option.none_or] at he
    split at he
    · rename_i hin
      exact absurd ((leftRange_of_inRange hin d).symm.trans hp) Bool.false_ne_true
    · cases he

/-- In a slice of time there is a line to be knitted, and a carriage that is known. -/
structure Occupied (c : ReferenceController) (carriage : Carriage) (d : Direction) : Prop where
  mode_eq : c.mode = .knitting
  ready : c.line.ready = true
  carriage_eq : c.tracked.tracker.carriage = some carriage
  direction_eq : c.tracked.tracker.direction = some d

/-- Without a line, or without a carriage that is known, there is nothing to be done. -/
theorem worked_of_not_occupied (h : ∀ carriage d, ¬ c.Occupied carriage d) :
    c.worked = c.tracked := by
  rw [worked, workLine]
  split
  · rename_i hk
    cases hc : c.tracked.tracker.carriage with
    | none => rfl
    | some carriage =>
      cases hd : c.tracked.tracker.direction with
      | none => rfl
      | some d => exact absurd ⟨hk.1, hk.2, hc, hd⟩ (h carriage d)
  · rfl

/-- What a slice of time makes of a line that is knitted by a carriage that is known: it goes on,
or is finished beyond the range. -/
theorem worked_cases {d₀ : Direction} (h : c.Occupied carriage d₀) :
    let p := c.tracked.tracker.selected carriage d₀
    (∃ worked, c.worked = c.tracked.noting worked ∧
      ∀ d, worked = some d → c.leftRange p d = false) ∨
    ∃ d, c.line.worked = some d ∧ c.leftRange p d = true ∧
      c.worked.tracker = c.tracked.tracker ∧ c.worked.line.ready = false := by
  intro p
  have hw : c.worked = _ :=
    value_workLine (c := c.tracked) h.mode_eq h.ready h.carriage_eq h.direction_eq
  cases he : c.tracked.entered carriage d₀ with
  | none =>
    rw [he] at hw
    exact Or.inl ⟨none, hw, nofun⟩
  | some d =>
    rw [he] at hw
    cases hp : c.leftRange p d with
    | false =>
      refine Or.inl ⟨some d, hw.trans (if_neg ?_), ?_⟩
      · exact Bool.eq_false_iff.mp hp
      · rintro _ ⟨⟩
        exact hp
    | true =>
      obtain ⟨mode, index, lamp0, lamp1, outbox, hf⟩ :=
        (c.tracked.noting (some d)).exists_finishLine
      have hw : c.worked = _ := (hw.trans (if_pos hp)).trans hf
      have hworked : c.line.worked = some d := worked_of_entered (c := c.tracked) he hp
      exact Or.inr ⟨d, hworked, hp, by rw [hw]; rfl, by rw [hw]⟩

namespace Unfinished

/-- A carriage that works on a line is known, and stays known. -/
theorem exists_occupied (h : c.Unfinished) (hm : c.mode = .knitting) (hr : c.line.ready = true)
    (hw : c.line.worked = some d) : ∃ carriage d', c.Occupied carriage d' := by
  obtain ⟨carriage, d₀, hc, hd, -⟩ := h hm hr d hw
  obtain ⟨d', hd', ⟨hc', -⟩ | ⟨-, hc'⟩⟩ :=
    Tracker.track_cases (m := c.model) hc hd c.levels c.hall
  · exact ⟨carriage, d', hm, hr, hc', hd'⟩
  · exact ⟨.garter, d', hm, hr, hc', hd'⟩

/-- A slice of time leaves a line unfinished, or takes it away. -/
theorem worked (h : c.Unfinished) : c.worked.Unfinished := by
  by_cases ho : ∃ carriage d, c.Occupied carriage d
  · obtain ⟨carriage, d₀, ho⟩ := ho
    rcases worked_cases ho with ⟨worked, hw, hp⟩ | ⟨d, -, -, -, hf⟩
    · rw [hw]
      intro _ _ d hd
      exact ⟨carriage, d₀, ho.carriage_eq, ho.direction_eq, hp d hd⟩
    · exact .of_ready hf
  · rw [worked_of_not_occupied fun carriage d h => ho ⟨carriage, d, h⟩]
    intro hm hr d hw
    exact absurd (h.exists_occupied hm hr hw) ho

theorem step (h : c.Unfinished) : c.step.value.Unfinished := by
  obtain ⟨os, -, hs⟩ := c.exists_value_step
  rw [hs]
  exact h.worked

theorem onInit (h : c.Unfinished) (payload : List UInt8) :
    (c.onInit payload).value.Unfinished := by
  cases hm : payload.head?.bind Model.ofCode? with
  | none =>
    rw [onInit_of_none hm]
    exact h.send _
  | some model =>
    obtain ⟨lamp0, outbox, hv⟩ := exists_value_onInit (c := c) hm
    rw [hv]
    exact .of_ready rfl

theorem onStart (h : c.Unfinished) (payload : List UInt8) :
    (c.onStart payload).value.Unfinished := by
  cases ha : c.accepts payload with
  | false =>
    rw [onStart_of_not ha]
    exact h.send _
  | true =>
    obtain ⟨-, start, stop, lamp0, outbox, -, -, hv⟩ := exists_value_onStart ha
    rw [hv]
    exact .of_ready rfl

/-- A line that arrives has not been begun. -/
theorem onLine (h : c.Unfinished) (payload : List UInt8) :
    (c.onLine payload).value.Unfinished := by
  unfold ReferenceController.onLine
  split
  · split
    · split
      · exact .of_worked rfl
      · exact h
    · exact h
  · exact h

theorem onTest (c : ReferenceController) : c.onTest.value.Unfinished := by
  obtain ⟨testRegister, lamp0, outbox, hv⟩ := c.exists_value_onTest
  rw [hv]
  exact .of_mode nofun

theorem onTestCommand (h : c.Unfinished) (code : Message.Code) (payload : List UInt8) :
    (c.onTestCommand code payload).value.Unfinished := by
  by_cases hq : code = .quitCmd
  · subst hq
    obtain ⟨lamp0, outbox, he⟩ := c.exists_value_enter .ready
    have hm : (c.onTestCommand .quitCmd payload).value.mode = .ready := congrArg mode he
    exact .of_mode (by rw [hm]; decide)
  · obtain ⟨testRegister, outbox, hv⟩ := c.exists_value_onTestCommand payload hq
    rw [hv]
    exact h

/-- Whatever it is told, a line that the controller works on is unfinished. -/
theorem onMessage (h : c.Unfinished) (message : List UInt8) :
    (c.onMessage message).value.Unfinished := by
  unfold ReferenceController.onMessage
  split
  · exact h
  · split
    · exact h.onInit _
    · exact h.onStart _
    · exact h.onLine _
    · exact h.send _
    · exact onTest c
    · split
      · exact h.onTestCommand _ _
      · exact h
    · exact h

theorem receiveAll (h : c.Unfinished) (bytes : List UInt8) :
    (Controller.receiveAll bytes c).value.Unfinished :=
  kept_receiveAll (fun _ _ h => h) (fun _ m h => h.onMessage m) h bytes

/-- A slice of time that ends a line. -/
theorem endsLine (h : c.Unfinished) (hr : c.line.ready = true)
    (hf : c.worked.line.ready = false) :
    ∃ d, c.line.worked = some d ∧ EndsLine d c c.worked.tracker := by
  by_cases ho : ∃ carriage d, c.Occupied carriage d
  · obtain ⟨carriage, d₁, ho⟩ := ho
    rcases worked_cases ho with ⟨worked, hw, -⟩ | ⟨d, hw, hp, ht, -⟩
    · have hready : (c.tracked.noting worked).line.ready = true := hr
      rw [hw, hready] at hf
      cases hf
    · obtain ⟨carriage₀, d₀, hc₀, hd₀, hn⟩ := h ho.mode_eq hr d hw
      obtain ⟨d', hd', hcases⟩ := Tracker.track_cases (m := c.model) hc₀ hd₀ c.levels c.hall
      obtain rfl : d₁ = d' := Option.some.inj (ho.direction_eq.symm.trans hd')
      rw [ht]
      exact ⟨d, hw, endsLine_of_past hc₀ hd₀ hn ho.direction_eq hcases ho.carriage_eq hp⟩
  · have hready : c.tracked.line.ready = true := hr
    rw [worked_of_not_occupied fun carriage d h => ho ⟨carriage, d, h⟩, hready] at hf
    cases hf

end Unfinished

end KnitBench.ReferenceController
