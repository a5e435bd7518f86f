import KnitBench.Proofs.Controller.Following

/-! How the tracker comes to know the carriage. `Located` tells what it may believe at a travel; it
holds however the carriage goes to and fro, and where it says that the carriage is known, the
position is right and the belt phase is not mistaken. -/

namespace KnitBench

open ReferenceController

namespace Setup

/-- The pole that a sensor meets with the carriage at a position. -/
def signal (s : Setup) (p : Int) : Option (Side × Pole) :=
  let n : Int := s.model.needleCount
  match s.carriage with
  | .knit =>
    if p = 0 then some (.left, .north)
    else if p = n - 1 then some (.right, .north)
    else none
  | .lace =>
    if p = 0 then some (.left, .south)
    else if p = n - 1 ∧ s.model ≠ .kh910 then some (.right, .south)
    else none
  | .garter =>
    if p = -12 ∨ p = 12 then some (.left, .south)
    else if p = -10 ∨ p = 10 then some (.left, .north)
    else if (p = n - 13 ∨ p = n + 11) ∧ s.model ≠ .kh910 then some (.right, .south)
    else if p = n - 11 ∨ p = n + 9 then some (.right, .north)
    else none
  | .knit270 =>
    if p = -6 ∨ p = 0 then some (.left, .north)
    else if p = n - 1 ∨ p = n + 5 then some (.right, .north)
    else none

/-- The first magnet that the carriage brings to the sensor of its start side. -/
def firstMagnet (s : Setup) : Int :=
  match s.carriage, s.side with
  | .knit, .left | .lace, .left => 0
  | .knit, .right | .lace, .right => s.model.needleCount - 1
  | .garter, .left => -12
  | .garter, .right => s.model.needleCount + 11
  | .knit270, .left => -6
  | .knit270, .right => s.model.needleCount + 5

/-- The magnet by which the carriage is told from all others. -/
def tellingMagnet (s : Setup) : Int :=
  match s.carriage, s.side with
  | .garter, .left => -10
  | .garter, .right => s.model.needleCount + 9
  | _, _ => s.firstMagnet

/-- The travel at which a carriage on its way in comes to a position. -/
def arrival (s : Setup) (p : Int) : Int :=
  match s.side with
  | .left => 4 * p
  | .right => 4 * p + 3

/-- The way from the start side inwards that a travel is short of another. -/
def shortOf (s : Setup) (x y : Int) : Int :=
  match s.side with
  | .left => y - x
  | .right => x - y

end Setup

namespace ReferenceController.Tracker

variable {t : Tracker} {s : Setup} {l : Levels} {m : Model} {x y p : Int}

@[simp] theorem ofLevel_left (m : Model) :
    Pole.ofLevel m .left HallReading.rest = none ∧
      Pole.ofLevel m .left HallReading.north = some .north ∧
      Pole.ofLevel m .left HallReading.south = some .south := by
  cases m <;> decide

@[simp] theorem ofLevel_right (m : Model) :
    Pole.ofLevel m .right HallReading.rest = none ∧
      Pole.ofLevel m .right (HallReading.rightNorth m) = some .north ∧
      Pole.ofLevel m .right (HallReading.rightSouth m) =
        if m = .kh910 then none else some .south := by
  cases m <;> decide

theorem value_sense_idle (m : Model) (t : Tracker) :
    (t.sense m .idle).value = t.forgetSouth := by
  cases m <;> rfl

theorem value_sense_atLeft {level : UInt16} {pole : Pole}
    (h : Pole.ofLevel m .left level = some pole) :
    (t.sense m (.atLeft level)).value = (t.forgetSouth.meet m .left pole).value := by
  have hr : Pole.ofLevel m .right HallReading.rest = none := (ofLevel_right m).1
  simp only [sense, readSensor, HallReading.atLeft, h, hr]
  rfl

theorem value_sense_atRight {level : UInt16} (pole? : Option Pole)
    (h : Pole.ofLevel m .right level = pole?) :
    (t.sense m (.atRight level)).value =
      pole?.elim t.forgetSouth fun pole => (t.forgetSouth.meet m .right pole).value := by
  have hl : Pole.ofLevel m .left HallReading.rest = none := (ofLevel_left m).1
  subst h
  simp only [sense, readSensor, HallReading.atRight, hl]
  cases Pole.ofLevel m .right level <;> rfl

/-- What sensing comes to: an old south pole is given up, and a pole that is met is taken in. -/
theorem value_sense (t : Tracker) (s : Setup) (p : Int) :
    (t.sense s.model (Mechanism.hallAt s p)).value =
      (s.signal p).elim t.forgetSouth fun (side, pole) =>
        (t.forgetSouth.meet s.model side pole).value := by
  have hi := value_sense_idle s.model t
  have hln := value_sense_atLeft (t := t) (ofLevel_left s.model).2.1
  have hls := value_sense_atLeft (t := t) (ofLevel_left s.model).2.2
  have hrn := value_sense_atRight (t := t) _ (ofLevel_right s.model).2.1
  have hrs := value_sense_atRight (t := t) _ (ofLevel_right s.model).2.2
  rw [Mechanism.hallAt_eq]
  rcases s.runs_cases with ⟨hm, hc⟩ | ⟨hm | hm, hc | hc | hc⟩ <;>
    simp only [hc, Carriage.reading, Setup.signal] <;>
    rw [hm] at hi hln hls hrn hrs ⊢ <;>
    simp only [HallReading.rightNorth, HallReading.rightSouth, Option.elim_some, if_true,
      reduceCtorEq, if_false, Option.elim_none] at hrn hrs ⊢ <;>
    grind

theorem forgetSouth_of_none (h : t.southSeen = none) : t.forgetSouth = t := by
  simp [forgetSouth, h]

theorem forgetSouth_of_some {side : Side} {a : Int} (h : t.southSeen = some (side, a)) :
    t.forgetSouth = if 3 < (t.position - a).natAbs then { t with southSeen := none } else t := by
  rw [forgetSouth, h]
  rfl

/-- Giving up on a south pole changes nothing else. -/
theorem exists_forgetSouth (t : Tracker) :
    ∃ south, t.forgetSouth = { t with southSeen := south } := by
  cases h : t.southSeen with
  | none => exact ⟨none, by rw [forgetSouth_of_none h, ← h]⟩
  | some seen =>
    rw [forgetSouth_of_some h]
    split
    · exact ⟨none, rfl⟩
    · exact ⟨t.southSeen, rfl⟩

theorem value_meet_north {side : Side} (h : t.carriage = none) :
    (t.meet m side .north).value = { t with
      position := anchor m (if m = .kh270 then .knit270 else .knit) side t.direction
      carriage := some (if m = .kh270 then .knit270 else .knit)
      belt := none } := by
  simp only [meet, h]
  rfl

theorem value_meet_south {side : Side} (h : t.carriage = none) (hm : m ≠ .kh270) :
    (t.meet m side .south).value = { t with
      position := anchor m .lace side t.direction
      carriage := some .lace
      belt := none
      southSeen := some (side, anchor m .lace side t.direction) } := by
  simp only [meet, h, hm, if_false]
  rfl

/-- A lace carriage with a north pole close to its south pole is a garter carriage. -/
theorem value_meet_pair {side : Side} {a : Int} (h : t.carriage = some .lace)
    (hs : t.southSeen = some (side, a)) :
    (t.meet m side .north).value = { t with
      southSeen := none
      position := anchor m .garter side t.direction
      carriage := some .garter
      belt := none } := by
  simp only [meet, h, hs, if_true]
  rfl

theorem value_meet_lace {side : Side} {pole : Pole} (h : t.carriage = some .lace)
    (hn : pole = .south ∨ ∀ a, t.southSeen ≠ some (side, a)) :
    (t.meet m side pole).value = t := by
  cases pole with
  | south => simp only [meet, h]; rfl
  | north =>
    simp only [meet, h]
    split
    · rename_i seen a hs
      rw [if_neg]
      · rfl
      · rintro rfl
        rcases hn with hn | hn
        · cases hn
        · exact hn a hs
    · rfl

theorem value_meet_known {side : Side} {pole : Pole} {c : Carriage} (h : t.carriage = some c)
    (hc : c ≠ .lace) : (t.meet m side pole).value = t := by
  cases c with
  | lace => exact absurd rfl hc
  | knit | garter | knit270 =>
    cases pole <;>
      · simp only [meet, h]
        rfl

/-- The carriage is short of a position, or has just come there on its way in, the reading of the
sensor still pending. -/
def Before (s : Setup) (pending : Prop) (p x : Int) (t : Tracker) : Prop :=
  0 < s.shortOf x (s.arrival p) ∨
    (pending ∧ x = s.arrival p ∧ t.direction = some s.side.firstDirection)

/-- How far the tracker is ahead of a garter carriage that it takes for a lace carriage. -/
def halfShift (s : Setup) : Int :=
  match s.side with
  | .left => 12
  | .right => -12

/-- What the tracker may believe at travel `x`, with or without a sensor reading pending. On a
steady way in from the start side, without turning back before the carriage is known and without
resets, it cannot miss or lose a magnet. -/
inductive Located (s : Setup) (steady pending : Prop) (x : Int) (t : Tracker) : Prop
  | unseen (hc : t.carriage = none) (hs : t.southSeen = none)
      (hb : (¬ steady ∧ (s.carriage = .knit ∨ s.carriage = .lace)) ∨
        Before s pending s.firstMagnet x t)
  | seen (hc : t.carriage = some s.carriage) (hp : t.position = x / 4)
      (hb : t.belt = none ∨ t.belt = some s.belt)
  /-- Between the two magnets of a garter carriage. -/
  | half (hg : s.carriage = .garter) (hc : t.carriage = some .lace)
      (hs : t.southSeen = some (s.side, s.firstMagnet + halfShift s))
      (hp : t.position = x / 4 + halfShift s) (hb : Before s pending s.tellingMagnet x t)
      (hi : steady → s.shortOf x (s.arrival s.firstMagnet) ≤ 0)
  /-- A garter carriage that turned back between its magnets and passes for a lace carriage. -/
  | lost (hg : s.carriage = .garter) (hc : t.carriage = some .lace) (hs : t.southSeen = none)
      (hn : ¬ steady)

variable {steady pending : Prop}

theorem needleCount_gt (s : Setup) : 100 < (s.model.needleCount : Int) := by
  cases s.model <;> decide

/-- Coming in, the carriage meets no magnet before its first one. -/
theorem signal_eq_none (h : 0 < s.shortOf x (s.arrival s.firstMagnet)) :
    s.signal (x / 4) = none := by
  have hk := needleCount_gt s
  cases hc : s.carriage <;> cases hs : s.side <;>
    simp only [Setup.shortOf, Setup.arrival, Setup.firstMagnet, Setup.signal, hc, hs] at h ⊢ <;>
    grind

/-- A known carriage stays known as it is. -/
theorem exists_value_sense (h : t.carriage = some s.carriage) (p : Int) :
    ∃ south, (t.sense s.model (Mechanism.hallAt s p)).value = { t with southSeen := south } := by
  rw [value_sense]
  obtain ⟨south, hf⟩ := exists_forgetSouth t
  refine ⟨south, ?_⟩
  rw [hf]
  have hu : ({ t with southSeen := south } : Tracker).carriage = some s.carriage := h
  generalize ({ t with southSeen := south } : Tracker) = u at hu ⊢
  cases hs : s.signal p with
  | none => rfl
  | some sensed =>
    obtain ⟨side, pole⟩ := sensed
    simp only [Option.elim_some]
    by_cases hl : s.carriage = .lace
    · rw [value_meet_lace (by rw [hu, hl])]
      left
      simp only [Setup.signal, hl] at hs
      grind
    · rw [value_meet_known hu hl]

theorem located_sense_seen (h : t.carriage = some s.carriage) (hp : t.position = x / 4)
    (hb : t.belt = none ∨ t.belt = some s.belt) :
    Located s steady False x (t.sense s.model (Mechanism.hallAt s (x / 4))).value := by
  obtain ⟨south, hs⟩ := exists_value_sense h (x / 4)
  rw [hs]
  exact .seen h hp hb

theorem located_sense_lost (hg : s.carriage = .garter) (hc : t.carriage = some .lace)
    (hs : t.southSeen = none) (hn : ¬ steady) :
    Located s steady False x (t.sense s.model (Mechanism.hallAt s (x / 4))).value := by
  rw [value_sense, forgetSouth_of_none hs]
  cases s.signal (x / 4) with
  | none => exact .lost hg hc hs hn
  | some sensed =>
    simp only [Option.elim_some]
    rw [value_meet_lace hc (Or.inr fun a => by simp [hs])]
    exact .lost hg hc hs hn

section Half

variable (hc : t.carriage = some .lace)
  (hs : t.southSeen = some (s.side, s.firstMagnet + halfShift s))
  (hp : t.position = x / 4 + halfShift s)

include hc hs hp

/-- Too far off for the second magnet to belong to the first, the first one is given up. -/
theorem value_sense_astray (hfar : 3 < (x / 4 - s.firstMagnet).natAbs) :
    (t.sense s.model (Mechanism.hallAt s (x / 4))).value = { t with southSeen := none } := by
  have hlost : 3 < (t.position - (s.firstMagnet + halfShift s)).natAbs := by omega
  rw [value_sense, forgetSouth_of_some hs, if_pos hlost]
  cases s.signal (x / 4) with
  | none => rfl
  | some sensed =>
    simp only [Option.elim_some]
    exact value_meet_lace (t := { t with southSeen := none }) hc (Or.inr fun a => by simp)

/-- Short of the second magnet the first one is kept in mind. -/
theorem value_sense_between (hg : s.carriage = .garter)
    (hnear : ¬ 3 < (x / 4 - s.firstMagnet).natAbs)
    (hb : 0 < s.shortOf x (s.arrival s.tellingMagnet)) :
    (t.sense s.model (Mechanism.hallAt s (x / 4))).value = t := by
  have hk := needleCount_gt s
  have hkept : ¬ 3 < (t.position - (s.firstMagnet + halfShift s)).natAbs := by omega
  rw [value_sense, forgetSouth_of_some hs, if_neg hkept]
  cases hsig : s.signal (x / 4) with
  | none => rfl
  | some sensed =>
    simp only [Option.elim_some]
    refine value_meet_lace hc (Or.inl ?_)
    cases hside : s.side <;>
      simp only [Setup.shortOf, Setup.arrival, Setup.tellingMagnet, Setup.signal, hg,
        hside] at hb hsig <;> grind

/-- At the second magnet the carriage is told. -/
theorem value_sense_second (hg : s.carriage = .garter) (hx : x = s.arrival s.tellingMagnet)
    (hd : t.direction = some s.side.firstDirection) :
    (t.sense s.model (Mechanism.hallAt s (x / 4))).value = { t with
      southSeen := none, position := x / 4, carriage := some .garter, belt := none } := by
  have hk := needleCount_gt s
  have hkept : ¬ 3 < (t.position - (s.firstMagnet + halfShift s)).natAbs := by
    cases hside : s.side <;>
      simp only [Setup.arrival, Setup.tellingMagnet, Setup.firstMagnet, hg, hside] at hx hp ⊢ <;>
      omega
  have hsig : s.signal (x / 4) = some (s.side, .north) := by
    cases hside : s.side <;>
      simp only [Setup.arrival, Setup.tellingMagnet, Setup.signal, hg, hside] at hx ⊢ <;> grind
  have ha : anchor s.model .garter s.side t.direction = x / 4 := by
    cases hside : s.side <;>
      simp only [Setup.arrival, Setup.tellingMagnet, anchor, Side.firstDirection, hg, hside, hd,
        Option.some.injEq, reduceCtorEq, decide_false, decide_true, if_true, Bool.false_eq_true,
        if_false] at hx ⊢ <;>
      omega
  rw [value_sense, forgetSouth_of_some hs, if_neg hkept, hsig]
  simp only [Option.elim_some]
  rw [value_meet_pair hc hs, ha]

end Half

theorem located_sense_half (hg : s.carriage = .garter) (hc : t.carriage = some .lace)
    (hs : t.southSeen = some (s.side, s.firstMagnet + halfShift s))
    (hp : t.position = x / 4 + halfShift s) (hb : Before s True s.tellingMagnet x t)
    (hi : steady → s.shortOf x (s.arrival s.firstMagnet) ≤ 0) :
    Located s steady False x (t.sense s.model (Mechanism.hallAt s (x / 4))).value := by
  by_cases hfar : 3 < (x / 4 - s.firstMagnet).natAbs
  · rw [value_sense_astray hc hs hp hfar]
    refine .lost hg hc rfl fun hst => ?_
    have hi := hi hst
    unfold Before at hb
    cases hside : s.side <;>
      simp only [Setup.shortOf, Setup.arrival, Setup.firstMagnet, Setup.tellingMagnet, hg,
        hside] at hb hi hfar <;> omega
  · rcases hb with hb | ⟨-, hx, hd⟩
    · rw [value_sense_between hc hs hp hg hfar hb]
      exact .half hg hc hs hp (Or.inl hb) hi
    · rw [value_sense_second hc hs hp hg hx hd]
      exact .seen (by rw [hg]) rfl (Or.inl rfl)

/-- The pole of the first magnet. -/
def firstPole (s : Setup) : Pole :=
  match s.carriage with
  | .knit | .knit270 => .north
  | .lace | .garter => .south

theorem signal_firstMagnet (s : Setup) : s.signal s.firstMagnet = some (s.side, firstPole s) := by
  have hk := needleCount_gt s
  have hseen := s.seen
  unfold Carriage.SeenFromRight at hseen
  cases hc : s.carriage <;> cases hs : s.side <;>
    simp only [Setup.firstMagnet, Setup.signal, firstPole, hc, hs] at hseen ⊢ <;> grind

theorem arrival_div (s : Setup) (p : Int) : s.arrival p / 4 = p := by
  unfold Setup.arrival
  cases s.side <;> dsimp only <;> omega

/-- A knit or lace carriage is told wherever it meets a sensor. -/
theorem located_meet (hc : t.carriage = none) (hkl : s.carriage = .knit ∨ s.carriage = .lace)
    {side : Side} {pole : Pole} (hsig : s.signal p = some (side, pole)) (hx : x / 4 = p) :
    Located s steady False x (t.meet s.model side pole).value := by
  have hm : s.model ≠ .kh270 := by
    have hr := s.runs_cases
    intro hm
    rcases hkl with h | h <;> simp [hm, h] at hr
  rcases hkl with hk | hk <;> simp only [Setup.signal, hk] at hsig
  · obtain rfl : pole = .north := by grind
    rw [value_meet_north hc, if_neg hm]
    refine .seen (by rw [hk]) ?_ (Or.inl rfl)
    cases side <;> simp only [anchor] <;> grind
  · obtain rfl : pole = .south := by grind
    rw [value_meet_south hc hm]
    refine .seen (by rw [hk]) ?_ (Or.inl rfl)
    cases side <;> simp only [anchor] <;> grind

/-- Any carriage that comes in to its first magnet is told there, a garter carriage by half. -/
theorem located_meet_first (hc : t.carriage = none)
    (hd : t.direction = some s.side.firstDirection) :
    Located s steady False (s.arrival s.firstMagnet)
      (t.meet s.model s.side (firstPole s)).value := by
  by_cases hkl : s.carriage = .knit ∨ s.carriage = .lace
  · exact located_meet hc hkl (signal_firstMagnet s) (arrival_div s _)
  · rcases s.runs_cases with ⟨hm, hg⟩ | ⟨hm, hg | hg | hg⟩
    · simp only [firstPole, hg]
      rw [value_meet_north hc, if_pos hm]
      refine .seen (by rw [hg]) ?_ (Or.inl rfl)
      rw [arrival_div]
      cases hside : s.side <;>
        simp [anchor, Setup.firstMagnet, Side.firstDirection, hg, hside, hd]
    · exact absurd (Or.inl hg) hkl
    · exact absurd (Or.inr hg) hkl
    · have hm' : s.model ≠ .kh270 := by
        rcases hm with hm | hm <;> simp [hm]
      simp only [firstPole, hg]
      rw [value_meet_south hc hm']
      refine .half hg rfl ?_ ?_ (Or.inl ?_) ?_ <;>
        cases hside : s.side <;>
        simp [anchor, Setup.firstMagnet, Setup.tellingMagnet, Setup.arrival, Setup.shortOf,
          halfShift, hg, hside] <;> omega

theorem located_sense_unseen (hc : t.carriage = none) (hs : t.southSeen = none)
    (hb : (¬ steady ∧ (s.carriage = .knit ∨ s.carriage = .lace)) ∨
      Before s True s.firstMagnet x t) :
    Located s steady False x (t.sense s.model (Mechanism.hallAt s (x / 4))).value := by
  rw [value_sense, forgetSouth_of_none hs]
  rcases hb with ⟨hn, hkl⟩ | hb | ⟨-, rfl, hd⟩
  · cases hsig : s.signal (x / 4) with
    | none => exact .unseen hc hs (Or.inl ⟨hn, hkl⟩)
    | some sensed => exact located_meet hc hkl hsig rfl
  · rw [signal_eq_none hb]
    exact .unseen hc hs (Or.inr (Or.inl hb))
  · rw [arrival_div, signal_firstMagnet]
    exact located_meet_first hc hd

/-- Once the sensors have been read, no reading is pending. -/
theorem located_sense (h : Located s steady True x t) :
    Located s steady False x (t.sense s.model (Mechanism.hallAt s (x / 4))).value := by
  cases h with
  | unseen hc hs hb => exact located_sense_unseen hc hs hb
  | seen hc hp hb => exact located_sense_seen hc hp hb
  | half hg hc hs hp hb hi => exact located_sense_half hg hc hs hp hb hi
  | lost hg hc hs hn => exact located_sense_lost hg hc hs hn

/-- A carriage short of a position comes to it, if at all, on its way in. -/
theorem Before.decode {t' : Tracker} (hb : Before s False p x t)
    (hy : y = x ∨ y = x + 1 ∨ y = x - 1) (hd : t'.direction = heading x y t.direction) :
    Before s True p y t' := by
  rcases hb with hb | ⟨hf, -⟩
  · unfold Before Setup.shortOf at *
    rw [hd]
    generalize s.arrival p = z at hb ⊢
    cases hside : s.side <;> simp only [hside, Side.firstDirection] at hb ⊢
    · rcases hy with rfl | rfl | rfl
      · exact Or.inl hb
      · rw [heading_succ]
        exact (Int.lt_or_eq_of_le (show 0 ≤ z - (x + 1) by omega)).imp_right
          fun h => ⟨trivial, by omega, rfl⟩
      · exact Or.inl (by omega)
    · rcases hy with rfl | rfl | rfl
      · exact Or.inl hb
      · exact Or.inl (by omega)
      · rw [heading_pred]
        exact (Int.lt_or_eq_of_le (show 0 ≤ x - 1 - z by omega)).imp_right
          fun h => ⟨trivial, by omega, rfl⟩
  · exact hf.elim

/-- A step of the encoder keeps the tracker right, and may bring a magnet to a sensor. -/
theorem located_decode (h : Located s steady False x t) (hq : (t.quarter.val : Int) = x % 4)
    (hl : ((Levels.quarter l.v1 l.v2).val : Int) = y % 4) (hy : y = x ∨ y = x + 1 ∨ y = x - 1)
    (hin : steady → 0 ≤ s.shortOf x y) :
    Located s steady True y (t.decode l).value := by
  rw [value_decode hq hl hy]
  cases h with
  | unseen hc hs hb => exact .unseen hc hs (hb.imp_right fun hb => hb.decode hy rfl)
  | seen hc hp hb => exact .seen hc (by dsimp only; omega) hb
  | half hg hc hs hp hb hi =>
    refine .half hg hc hs (by dsimp only; omega) (hb.decode hy rfl) ?_
    intro hst
    have hi := hi hst
    have hin := hin hst
    unfold Setup.shortOf at *
    cases hside : s.side <;> simp only [hside] at hi hin ⊢ <;> omega
  | lost hg hc hs hn => exact .lost hg hc hs hn

/-- The belt sensor tells no other belt phase than the one at hand. -/
theorem located_inferBelt (h : Located s steady pending x t) (hq : (t.quarter.val : Int) = x % 4) :
    Located s steady pending x (t.inferBelt s.model (s.levelAt x)).value := by
  cases h with
  | seen hc hp hb =>
    rw [value_inferBelt (by omega) hc]
    exact .seen hc hp (settled_mem hb)
  | unseen hc hs hb =>
    obtain ⟨b, hb'⟩ := exists_value_inferBelt t s.model (s.levelAt x)
    rw [hb']
    exact .unseen hc hs hb
  | half hg hc hs hp hb hi =>
    obtain ⟨b, hb'⟩ := exists_value_inferBelt t s.model (s.levelAt x)
    rw [hb']
    exact .half hg hc hs hp hb hi
  | lost hg hc hs hn =>
    obtain ⟨b, hb'⟩ := exists_value_inferBelt t s.model (s.levelAt x)
    rw [hb']
    exact .lost hg hc hs hn

/-- A sensor has no part in what the encoder tells. -/
theorem encoder_meet (m : Model) (side : Side) (pole : Pole) (t : Tracker) :
    (t.meet m side pole).value.quarter = t.quarter ∧
      (t.meet m side pole).value.direction = t.direction := by
  simp only [meet]
  split
  · exact ⟨rfl, rfl⟩
  · split <;> exact ⟨rfl, rfl⟩
  · split
    · split <;> exact ⟨rfl, rfl⟩
    · exact ⟨rfl, rfl⟩
  · exact ⟨rfl, rfl⟩

theorem encoder_sense (m : Model) (hall : HallReading) (t : Tracker) :
    (t.sense m hall).value.quarter = t.quarter ∧
      (t.sense m hall).value.direction = t.direction := by
  have hr (side : Side) (level : UInt16) (t : Tracker) :
      (t.readSensor m side level).value.quarter = t.quarter ∧
        (t.readSensor m side level).value.direction = t.direction := by
    simp only [readSensor]
    cases Pole.ofLevel m side level with
    | none => exact ⟨rfl, rfl⟩
    | some pole => exact encoder_meet ..
  obtain ⟨south, hf⟩ := exists_forgetSouth t
  simp only [sense, Logged.value_bind, (hr ..).1, (hr ..).2, hf, and_self]

@[simp] theorem quarter_track (m : Model) (l : Levels) (hall : HallReading) (t : Tracker) :
    (t.track m l hall).value.quarter = Levels.quarter l.v1 l.v2 := by
  obtain ⟨b, hb⟩ := t.exists_value_track m l hall
  rw [hb, quarter_decode]

theorem direction_track {hall : HallReading} (hq : (t.quarter.val : Int) = x % 4)
    (hl : ((Levels.quarter l.v1 l.v2).val : Int) = y % 4) (hy : y = x ∨ y = x + 1 ∨ y = x - 1) :
    (t.track m l hall).value.direction = heading x y t.direction := by
  obtain ⟨b, hb⟩ := t.exists_value_track m l hall
  obtain ⟨hsq, hsd⟩ := t.encoder_sense m hall
  rw [hb, value_decode (by rw [hsq, hq]) hl hy]
  dsimp only
  rw [hsd]

/-- What one slice of time does to the tracker's belief, once it is known what its sensors have
told. -/
theorem located_track {hall : HallReading}
    (h : Located s steady False x (t.sense s.model hall).value)
    (hq : (t.quarter.val : Int) = x % 4) (hl : ((Levels.quarter l.v1 l.v2).val : Int) = y % 4)
    (hb : l.belt = s.levelAt y) (hy : y = x ∨ y = x + 1 ∨ y = x - 1)
    (hin : steady → 0 ≤ s.shortOf x y) :
    Located s steady True y (t.track s.model l hall).value := by
  have hd := located_decode h (by rw [(encoder_sense ..).1, hq]) hl hy hin
  have hi := located_inferBelt hd (by rw [quarter_decode, hl])
  simpa only [track, Logged.value_bind, hb] using hi

/-- A carriage that is known is followed exactly. -/
theorem value_track_seen (hc : t.carriage = some s.carriage) (hp : t.position = x / 4)
    (hq : (t.quarter.val : Int) = x % 4) (hl : ((Levels.quarter l.v1 l.v2).val : Int) = y % 4)
    (hb : l.belt = s.levelAt y) (hy : y = x ∨ y = x + 1 ∨ y = x - 1) :
    ∃ south, (t.track s.model l (Mechanism.hallAt s (x / 4))).value = {
      quarter := Levels.quarter l.v1 l.v2
      direction := heading x y t.direction
      position := y / 4
      carriage := some s.carriage
      southSeen := south
      belt := settled s y t.belt } := by
  obtain ⟨south, hs⟩ := exists_value_sense hc (x / 4)
  refine ⟨south, ?_⟩
  have hpos : t.position + (y / 4 - x / 4) = y / 4 := by omega
  simp only [track, Logged.value_bind, hs, hb]
  rw [value_decode (t := { t with southSeen := south }) hq hl hy]
  dsimp only
  rw [hpos, hc]
  exact value_inferBelt (by dsimp only; omega) rfl

/-- Every carriage starts short of its first magnet. -/
theorem shortOf_initialPosition (s : Setup) :
    16 ≤ s.shortOf (4 * s.initialPosition) (s.arrival s.firstMagnet) := by
  have hr := s.runs_cases
  unfold Setup.shortOf Setup.arrival Setup.firstMagnet Setup.initialPosition Setup.rightRail
    Setup.leftRail margin
  rcases hr with ⟨hm, hc⟩ | ⟨hm | hm, hc | hc | hc⟩ <;> rw [hm, hc] <;>
    cases s.side <;> cases s.belt <;> decide

theorem located_initial (s : Setup) (steady : Prop) :
    Located s steady True (4 * s.initialPosition) {} := by
  have h := shortOf_initialPosition s
  exact .unseen rfl rfl (Or.inr (Or.inl (by omega)))

end ReferenceController.Tracker

end KnitBench
