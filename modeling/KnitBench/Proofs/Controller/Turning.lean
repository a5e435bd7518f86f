import KnitBench.Proofs.Controller.Finish
import KnitBench.Proofs.Controller.Skipping
import KnitBench.Proofs.Controller.Speech
import KnitBench.Proofs.Wiring

/-! The encoder's two channels turn through a Gray code, and the reference controller counts their
turns as long as neither hall sensor reads a pole. -/

namespace KnitBench

open ReferenceController

/-- The levels of both encoder channels. -/
structure Channels where
  v1 : Bool
  v2 : Bool
  deriving DecidableEq, Repr

namespace Channels

variable {p q : Channels} {x y : Int}

/-- The channels a quarter needle further to the right. -/
def next : Channels → Channels
  | ⟨false, false⟩ => ⟨false, true⟩
  | ⟨false, true⟩ => ⟨true, true⟩
  | ⟨true, true⟩ => ⟨true, false⟩
  | ⟨true, false⟩ => ⟨false, false⟩

/-- One channel at most differs. -/
def Adjacent (p q : Channels) : Prop := p.v1 = q.v1 ∨ p.v2 = q.v2

instance (p q : Channels) : Decidable (p.Adjacent q) := inferInstanceAs (Decidable (_ ∨ _))

/-- The direction in which the channels turn, if they do. -/
def turn? (p q : Channels) : Option Direction :=
  if q = p.next then some .right else if p = q.next then some .left else none

/-- The turns that a sequence makes from given channels on. -/
def turns : Channels → List Channels → List Direction
  | _, [] => []
  | p, q :: ps => (p.turn? q).toList ++ q.turns ps

/-- The quarter needle that the channels show. -/
def quarter (p : Channels) : Fin 4 := Levels.quarter p.v1 p.v2

theorem quarter_next (p : Channels) : p.next.quarter = p.quarter + 1 := by
  rcases p with ⟨_ | _, _ | _⟩ <;> rfl

/-- Adjacent channels are the same, or neighbours in the Gray code. -/
theorem adjacent_iff : p.Adjacent q ↔ q = p ∨ q = p.next ∨ p = q.next := by
  rcases p with ⟨_ | _, _ | _⟩ <;> rcases q with ⟨_ | _, _ | _⟩ <;> decide

theorem turn?_self (p : Channels) : p.turn? p = none := by
  rcases p with ⟨_ | _, _ | _⟩ <;> rfl

theorem turn?_next (p : Channels) : p.turn? p.next = some .right := if_pos rfl

theorem next_turn? (p : Channels) : p.next.turn? p = some .left := by
  rcases p with ⟨_ | _, _ | _⟩ <;> rfl

/-- A turn is a quarter of travel. -/
theorem turned (ha : p.Adjacent q) (hp : (p.quarter.val : Int) = x % 4) :
    ∃ y, (q.quarter.val : Int) = y % 4 ∧
      (p.turn? q = none ∧ y = x ∨ p.turn? q = some .right ∧ y = x + 1 ∨
        p.turn? q = some .left ∧ y = x - 1) := by
  have one (r : Fin 4) : (r + 1).val = (r.val + 1) % 4 := Fin.val_add r 1
  rcases adjacent_iff.mp ha with rfl | rfl | rfl
  · exact ⟨x, hp, Or.inl ⟨q.turn?_self, rfl⟩⟩
  · have hq := one p.quarter
    rw [← quarter_next] at hq
    exact ⟨x + 1, by omega, Or.inr (Or.inl ⟨p.turn?_next, rfl⟩)⟩
  · have hq := one q.quarter
    rw [← quarter_next] at hq
    have hlt := q.quarter.isLt
    exact ⟨x - 1, by omega, Or.inr (Or.inr ⟨q.next_turn?, rfl⟩)⟩

/-! ### Turning right -/

/-- The channels one after another, when they turn so many quarters to the right. -/
def rightward (p : Channels) : Nat → List Channels
  | 0 => []
  | k + 1 => p.next :: p.next.rightward k

theorem length_rightward (p : Channels) (k : Nat) : (p.rightward k).length = k := by
  induction k generalizing p with
  | zero => rfl
  | succ k ih => rw [rightward, List.length_cons, ih]

theorem isChain_rightward (p : Channels) (k : Nat) : (p :: p.rightward k).IsChain Adjacent := by
  induction k generalizing p with
  | zero => exact .singleton p
  | succ k ih =>
    exact List.isChain_cons_cons.mpr ⟨adjacent_iff.mpr (Or.inr (Or.inl rfl)), ih p.next⟩

theorem turns_rightward (p : Channels) (k : Nat) :
    p.turns (p.rightward k) = List.replicate k .right := by
  induction k generalizing p with
  | zero => rfl
  | succ k ih =>
    rw [rightward, turns, turn?_next, ih, List.replicate_succ]
    rfl

/-! ### On the wires -/

/-- Both channels are raised, and a slice of time goes by. -/
def shown (p : Channels) : List Stimulus :=
  [.raise .encoderV1 (Controller.digital p.v1), .raise .encoderV2 (Controller.digital p.v2), .slice]

theorem exists_flatMap_shown {ps : List Channels} (h : ps ≠ []) :
    ∃ xs, ps.flatMap shown = xs ++ [.slice] := by
  obtain rfl | ⟨ps, p, rfl⟩ := ps.eq_nil_or_concat
  · exact absurd rfl h
  · refine ⟨ps.flatMap shown ++ p.shown.dropLast, ?_⟩
    rw [List.concat_eq_append, List.flatMap_append, List.flatMap_singleton, List.append_assoc]
    rfl

theorem count_slice_shown (ps : List Channels) : (ps.flatMap shown).count .slice = ps.length := by
  induction ps with
  | nil => rfl
  | cons p ps ih =>
    rw [List.flatMap_cons, List.count_append, ih, List.length_cons, Nat.add_comm]
    rfl

end Channels

/-- The encoder channels among the digital lines. -/
def Levels.channels (l : Levels) : Channels := ⟨l.v1, l.v2⟩

namespace ReferenceController

namespace Tracker

variable {t t' t'' : Tracker} {ds ds' : List Direction} {m : Model} {l : Levels}
  {hall : HallReading} {y : Int}

/-- Where the tracker has the carriage, in quarter needles. -/
def count (t : Tracker) : Int := 4 * t.position + t.quarter.val

theorem position_eq (t : Tracker) : t.position = t.count / 4 := by
  have hq := t.quarter.isLt
  rw [count]
  omega

theorem val_quarter (t : Tracker) : (t.quarter.val : Int) = t.count % 4 := by
  have hq := t.quarter.isLt
  rw [count]
  omega

/-- With no pole at the sensors, at most a south pole is given up. -/
theorem exists_sense_of_unsensed (hl : Pole.ofLevel m .left hall.left = none)
    (hr : Pole.ofLevel m .right hall.right = none) :
    ∃ south, (t.sense m hall).value = { t with southSeen := south } := by
  obtain ⟨south, hf⟩ := t.exists_forgetSouth
  refine ⟨south, ?_⟩
  rw [← hf]
  simp only [sense, readSensor, hl, hr]
  rfl

/-- Channels that stand still are not counted. -/
theorem value_decode_same (h : t.quarter = l.channels.quarter) : (t.decode l).value = t := by
  change t.quarter = Levels.quarter l.v1 l.v2 at h
  have hz : t.quarter - t.quarter = 0 := (quarter_sub t.quarter t.quarter).1 rfl
  rw [decode, ← h, hz]
  rfl

/-- With no pole at the sensors, a quarter of travel that the channels show is counted as one. -/
theorem count_track (hl : Pole.ofLevel m .left hall.left = none)
    (hr : Pole.ofLevel m .right hall.right = none) (hq : (l.channels.quarter.val : Int) = y % 4)
    (hy : y = t.count ∨ y = t.count + 1 ∨ y = t.count - 1) :
    (t.track m l hall).value.count = y ∧
      (t.track m l hall).value.direction = heading t.count y t.direction := by
  -- Giving up on a south pole and looking at the belt leave the count alone.
  obtain ⟨south, hs⟩ := t.exists_sense_of_unsensed hl hr
  have hd := value_decode (t := { t with southSeen := south }) t.val_quarter hq hy
  obtain ⟨belt, ht⟩ := t.exists_value_track m l hall
  rw [ht, hs, hd]
  refine ⟨?_, rfl⟩
  have hp := t.position_eq
  change 4 * (t.position + (y / 4 - t.count / 4)) + (l.channels.quarter.val : Int) = y
  omega

/-- The tracker has counted the turns. -/
structure Counted (ds : List Direction) (t t' : Tracker) : Prop where
  count_eq : t'.count = t.count + ds.count .right - ds.count .left
  direction_eq : t'.direction = ds.getLast?.or t.direction

namespace Counted

theorem refl (t : Tracker) : Counted [] t t := ⟨by simp, rfl⟩

theorem trans (h : Counted ds t t') (h' : Counted ds' t' t'') : Counted (ds ++ ds') t t'' where
  count_eq := by
    rw [h'.count_eq, h.count_eq, List.count_append, List.count_append]
    omega
  direction_eq := by
    rw [h'.direction_eq, h.direction_eq, List.getLast?_append, Option.or_assoc]

/-- As many turns to one side as to the other lead back. -/
theorem returns (h : Counted ds t t') (he : ds.count .right = ds.count .left) :
    t'.position = t.position ∧ t'.quarter = t.quarter := by
  have hc : t'.count = t.count := by
    rw [h.count_eq]
    omega
  have hq := t.val_quarter
  have hq' := t'.val_quarter
  rw [hc] at hq'
  refine ⟨?_, Fin.ext (by omega)⟩
  rw [t'.position_eq, t.position_eq, hc]

end Counted

end Tracker

open Tracker

variable {c : ReferenceController} {l : Levels} {y : Int}

/-- Neither hall sensor reads a pole. -/
def Unsensed (c : ReferenceController) : Prop :=
  Pole.ofLevel c.model .left c.hall.left = none ∧ Pole.ofLevel c.model .right c.hall.right = none

instance (c : ReferenceController) : Decidable c.Unsensed := inferInstanceAs (Decidable (_ ∧ _))

theorem unsensed_of_idle (h : c.hall = .idle) : c.Unsensed := by
  rw [Unsensed, h]
  exact ⟨(ofLevel_left c.model).1, (ofLevel_right c.model).1⟩

/-- The controller when other levels have been raised and a slice of time has gone by. -/
def observing (c : ReferenceController) (l : Levels) : ReferenceController :=
  (c.seeing l).step.value

/-! ### One slice -/

/-- What the decoder reads besides the channels, a slice of time leaves alone. -/
theorem unsensed_observing (h : c.Unsensed) (l : Levels) : (c.observing l).Unsensed := by
  obtain ⟨os, -, hs⟩ := (c.seeing l).exists_value_step
  obtain ⟨mode, line, lamp0, lamp1, outbox, hw⟩ := exists_workLine (c.seeing l).tracked
  rw [observing, hs, worked, hw]
  exact h

theorem levels_observing (c : ReferenceController) (l : Levels) : (c.observing l).levels = l :=
  (encoder_step _).1

theorem quarter_observing (c : ReferenceController) (l : Levels) :
    (c.observing l).tracker.quarter = (c.observing l).levels.channels.quarter := by
  rw [levels_observing]
  exact (encoder_step _).2

theorem tracker_observing (h : c.Unsensed) (hl : (l.channels.quarter.val : Int) = y % 4)
    (hy : y = c.tracker.count ∨ y = c.tracker.count + 1 ∨ y = c.tracker.count - 1) :
    (c.observing l).tracker.count = y ∧
      (c.observing l).tracker.direction = heading c.tracker.count y c.tracker.direction := by
  have ht : (c.observing l).tracker = (c.tracker.track c.model l c.hall).value := by
    obtain ⟨os, -, hs⟩ := (c.seeing l).exists_value_step
    rw [observing, hs]
    exact (encoder_worked _).2
  rw [ht]
  exact count_track h.1 h.2 hl hy

/-- A slice of time counts the turn that the channels have made. -/
theorem counted_observing (h : c.Unsensed) (hq : c.tracker.quarter = c.levels.channels.quarter)
    (ha : c.levels.channels.Adjacent l.channels) :
    Counted (c.levels.channels.turn? l.channels).toList c.tracker (c.observing l).tracker := by
  have hx := c.tracker.val_quarter
  rw [hq] at hx
  obtain ⟨y, hl, ⟨ht, rfl⟩ | ⟨ht, rfl⟩ | ⟨ht, rfl⟩⟩ := Channels.turned ha hx
  · obtain ⟨hc, hd⟩ := tracker_observing h hl (Or.inl rfl)
    rw [ht]
    exact ⟨by simp [hc], by simp [hd]⟩
  · obtain ⟨hc, hd⟩ := tracker_observing h hl (Or.inr (Or.inl rfl))
    rw [ht]
    exact ⟨by simp [hc], by simp [hd]⟩
  · obtain ⟨hc, hd⟩ := tracker_observing h hl (Or.inr (Or.inr rfl))
    rw [ht]
    exact ⟨by simp [hc, Int.sub_eq_add_neg], by simp [hd]⟩

/-! ### Runs -/

theorem afterAll_shown (c : ReferenceController) (p : Channels) :
    c.afterAll p.shown = c.observing ⟨p.v1, p.v2, c.levels.belt⟩ := by
  rcases p with ⟨_ | _, _ | _⟩ <;> rfl

theorem quarter_afterAll_shown (hq : c.tracker.quarter = c.levels.channels.quarter)
    (ps : List Channels) :
    (c.afterAll (ps.flatMap Channels.shown)).tracker.quarter =
      (c.afterAll (ps.flatMap Channels.shown)).levels.channels.quarter := by
  induction ps generalizing c with
  | nil => exact hq
  | cons p ps ih =>
    rw [List.flatMap_cons, afterAll_append, afterAll_shown]
    exact ih (quarter_observing c _)

/-- Along channels of which one at most changes at a time, all turns are counted. -/
theorem counted_afterAll {ps : List Channels} (h : c.Unsensed)
    (hq : c.tracker.quarter = c.levels.channels.quarter)
    (hps : (c.levels.channels :: ps).IsChain Channels.Adjacent) :
    Counted (c.levels.channels.turns ps) c.tracker
      (c.afterAll (ps.flatMap Channels.shown)).tracker := by
  induction ps generalizing c with
  | nil => exact .refl _
  | cons p ps ih =>
    obtain ⟨ha, hrest⟩ := List.isChain_cons_cons.mp hps
    rw [List.flatMap_cons, afterAll_append, afterAll_shown]
    have hl := c.levels_observing ⟨p.v1, p.v2, c.levels.belt⟩
    have hfirst := counted_observing (l := ⟨p.v1, p.v2, c.levels.belt⟩) h hq ha
    have hlater := ih (unsensed_observing h _) (quarter_observing c _) (by rw [hl]; exact hrest)
    rw [hl] at hlater
    exact hfirst.trans hlater

end ReferenceController

end KnitBench
