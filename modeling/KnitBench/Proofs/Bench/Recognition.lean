import KnitBench.Proofs.Bench.Observation
import KnitBench.Proofs.Controller.Recognition

/-! When a bench without a trial, and without resets, tells the carriage. Once the carriage has
stood at the magnet that tells it from all others, the controller knows it for good, however the
operator has moved it to and fro; but a garter carriage that has met its first magnet, and has then
gone back outside before it met the second one, is taken for a lace carriage. -/

namespace KnitBench.Bench

open ReferenceController

variable {b : Bench ReferenceController} {s : Setup} {m m' : Mechanism} {c c' : ReferenceController}
  {ps : List Int}

/-- The places of the carriage at the beginning of each step. -/
def places : Bench ReferenceController → List Input → List Int
  | _, [] => []
  | b, .step :: inputs => b.mechanism.position :: places (b.after .step) inputs
  | b, .cue c :: inputs => places (b.after (.cue c)) inputs

/-- What a bench without resets has come to know of the carriage, whose sensors have been read at
some places. -/
structure Recognises (s : Setup) (ps : List Int) (b : Bench ReferenceController) : Prop where
  observed : Observed s b
  moves : ∀ cue ∈ b.queue.cues, cue.action ≠ .reset
  hall_eq : b.controller.hall = b.mechanism.hall
  known : Tracker.Recognition s ps True b.mechanism.quarters b.controller.tracker

/-- A move that has been obeyed is all that a slice of time sees of a tick. -/
theorem Observes.seeing_of_cued (h : Observes s m c) (hc : Cued m c False m' c') :
    c' = c.seeing m'.levels ∧ (m'.quarters = m.quarters ∨ m'.quarters = m.quarters + 1 ∨
      m'.quarters = m.quarters - 1) := by
  cases hc with
  | rest => exact ⟨h.toAttached.seeing_self.symm, Or.inl rfl⟩
  | move d =>
    refine ⟨rfl, ?_⟩
    rw [Mechanism.quarters_move h.aligned]
    have hadv := Mechanism.advanced_mem h.aligned d
    cases d <;> simp only [Direction.step] at hadv <;> omega
  | reset hr => exact hr.elim

namespace Recognises

theorem initial (s : Setup) : Recognises s [] (assemble s (powerOn s.model)) where
  observed := .initial s
  moves := nofun
  hall_eq := by
    rw [assemble, raiseLevels_eq]
    rfl
  known := by
    have hq : (Mechanism.initial s).quarters = 4 * s.initialPosition := by
      simp [Mechanism.quarters, Mechanism.initial]
    rw [assemble, raiseLevels_eq]
    change Tracker.Recognition s [] True (Mechanism.initial s).quarters {}
    rw [hq]
    exact Tracker.recognition_initial s

/-- A step reads the sensors once, where the carriage has been before. -/
theorem step (h : Recognises s ps b) :
    Recognises s (ps ++ [b.mechanism.position]) (b.after .step) := by
  have hobs := h.observed.step
  obtain ⟨m', m'', c', queue, tracing, panel, traffic, lastTick, ticks, hb, hq, hc, hm⟩ :=
    h.observed.exists_after_step
  have hno : ¬ ∃ cue ∈ b.queue.cues, cue.action = .reset :=
    fun ⟨cue, hcue, ha⟩ => h.moves cue hcue ha
  obtain ⟨rfl, hy⟩ := h.observed.observes.seeing_of_cued (by rwa [eq_false hno] at hc)
  rw [hb] at hobs ⊢
  refine ⟨hobs, fun cue hcue => h.moves cue (hq cue hcue), rfl, ?_⟩
  have hqueue : (b.controller.seeing m'.levels).Queues [] := h.observed.observes.empty
  have hquarters : (m''.latch (b.controller.seeing m'.levels).worked.wantedRegister).quarters =
      m'.quarters := by
    rcases hm with rfl | rfl <;> rfl
  have hhall : b.controller.hall = Mechanism.hallAt s (b.mechanism.quarters / 4) := by
    rw [h.hall_eq, h.observed.observes.aligned.hall_eq, h.observed.observes.setup_eq,
      b.mechanism.position_eq]
  dsimp only
  rw [hquarters, tracker_sliced hqueue, b.mechanism.position_eq]
  change Tracker.Recognition s _ True m'.quarters
    (b.controller.tracker.track b.controller.model m'.levels b.controller.hall).value
  rw [h.observed.observes.model_eq, hhall]
  exact Tracker.recognition_track h.known h.observed.observes.val_quarter m'.quarter_levels hy

theorem cue (h : Recognises s ps b) {cue : Cue} (hr : cue.action ≠ .reset) :
    Recognises s ps (b.after (.cue cue)) := by
  have hobs : Observed s (b.after (.cue cue)) := h.observed.cue fun ha => absurd ha hr
  obtain ⟨queue, hb, hq⟩ := b.exists_after_cue cue
  rw [hb] at hobs ⊢
  refine ⟨hobs, fun c hc => ?_, h.hall_eq, h.known⟩
  rcases hq c hc with rfl | hold
  · exact hr
  · exact h.moves c hold

theorem play (h : Recognises s ps b) (inputs : List Input)
    (hr : ∀ cue, .cue cue ∈ inputs → cue.action ≠ .reset) :
    Recognises s (ps ++ places b inputs) (b.play inputs) := by
  induction inputs generalizing b ps with
  | nil =>
    rw [places, List.append_nil]
    exact h
  | cons i inputs ih =>
    have hr' (cue : Cue) (hc : .cue cue ∈ inputs) := hr cue (List.mem_cons_of_mem _ hc)
    cases i with
    | step =>
      rw [places, List.append_cons]
      exact ih h.step hr'
    | cue cue => exact ih (h.cue (hr cue List.mem_cons_self)) hr'

end Recognises

/-- As long as no step is made, the carriage stays where it is. -/
theorem places_of_step_mem {inputs : List Input} (h : Input.step ∈ inputs) :
    ∃ later, places b inputs = b.mechanism.position :: later := by
  induction inputs generalizing b with
  | nil => cases h
  | cons i inputs ih =>
    cases i with
    | step => exact ⟨_, rfl⟩
    | cue cue =>
      obtain ⟨queue, hb, -⟩ := b.exists_after_cue cue
      have hmem : Input.step ∈ inputs := by simpa using h
      obtain ⟨later, hl⟩ := ih (b := b.after (.cue cue)) hmem
      rw [places, hl, hb]
      exact ⟨later, rfl⟩

/-- Once the carriage stands at the magnet that tells it from all others, the controller knows it
from the next step on, whatever moves come before and after; only a garter carriage that has strayed
outside between its two magnets is taken for a lace carriage, and for good. -/
theorem carriage_of_stood (s : Setup) (before after : List Input)
    (hr : ∀ cue, .cue cue ∈ before ++ after → cue.action ≠ .reset)
    (hp : ((assemble s (powerOn s.model)).play before).mechanism.position = s.tellingMagnet)
    (hs : Input.step ∈ after) :
    ((assemble s (powerOn s.model)).play (before ++ after)).controller.tracker.carriage =
      some (if s.carriage = .garter ∧ s.Strays (places (assemble s (powerOn s.model)) before)
        then .lace else s.carriage) := by
  have hbefore := (Recognises.initial s).play before fun cue hc =>
    hr cue (List.mem_append_left _ hc)
  rw [List.nil_append] at hbefore
  have hafter := (hbefore.play after fun cue hc => hr cue (List.mem_append_right _ hc)).known
  obtain ⟨later, hl⟩ := places_of_step_mem
    (b := (assemble s (powerOn s.model)).play before) hs
  have hplay : (assemble s (powerOn s.model)).play (before ++ after) =
      ((assemble s (powerOn s.model)).play before).play after := List.foldl_append
  rw [hl, hp] at hafter
  rw [hplay]
  cases hafter with
  | unseen _ ht => exact absurd (by simp) ht
  | half _ _ ht => exact absurd (by simp) ht
  | lost hg hn hc => rw [if_pos ⟨hg, (Setup.strays_stood ..).mp hn⟩, hc]
  | seen _ hn hc => rw [if_neg fun h => hn ((Setup.strays_stood ..).mpr h.2), hc]

/-- A garter carriage that starts at the left. -/
def garterFromLeft : Setup :=
  { Setup.standard with
    model := .kh930
    carriage := .garter
    runs := by decide
    seen := by decide
    stop_lt_needleCount := by decide }

def garterBench (inputs : List Input) : Bench ReferenceController :=
  (assemble garterFromLeft (powerOn garterFromLeft.model)).play inputs

/-- Moves, with five steps for each: time for one tick. -/
def moves (action : Cue.Action) (n : Nat) : List Input :=
  (List.replicate n (.cue ⟨action, 0⟩ :: List.replicate 5 .step)).flatten

theorem ne_reset_of_mem_moves {action : Cue.Action} {n : Nat} (ha : action ≠ .reset) {cue : Cue}
    (h : .cue cue ∈ moves action n) : cue.action ≠ .reset := by
  obtain ⟨is, his, hc⟩ := List.mem_flatten.mp h
  obtain rfl := List.eq_of_mem_replicate his
  rcases List.mem_cons.mp hc with hc | hc
  · cases hc
    exact ha
  · cases List.eq_of_mem_replicate hc

/-- Straight in to the second magnet. -/
def straightIn : List Input := .step :: moves .moveRight 24

set_option maxRecDepth 10000 in
theorem carriage_of_stood_straightIn :
    (∀ cue, .cue cue ∈ straightIn ++ [.step] → cue.action ≠ .reset) ∧
      (garterBench straightIn).mechanism.position = garterFromLeft.tellingMagnet ∧
      Input.step ∈ [Input.step] ∧
      (garterBench (straightIn ++ [.step])).controller.tracker.carriage = some .garter := by
  have hr (cue : Cue) (hc : .cue cue ∈ straightIn ++ [.step]) : cue.action ≠ .reset := by
    have hm : .cue cue ∈ moves .moveRight 24 := by simpa [straightIn] using hc
    exact ne_reset_of_mem_moves (by decide) hm
  have hp : (garterBench straightIn).mechanism.position = garterFromLeft.tellingMagnet := by
    decide +kernel
  have hn : ¬ garterFromLeft.Strays (places (garterBench []) straightIn) := by decide +kernel
  unfold garterBench at hp hn ⊢
  have h := carriage_of_stood garterFromLeft straightIn [.step] hr hp List.mem_cons_self
  rw [if_neg fun hg => hn hg.2] at h
  exact ⟨hr, hp, List.mem_cons_self, h⟩

/-- To the first magnet, outside again by four needles, and in to the second magnet. -/
def astray : List Input :=
  .step :: moves .moveRight 16 ++ moves .moveLeft 13 ++ moves .moveRight 21

set_option maxRecDepth 10000 in
/-- A garter carriage that has stood at its second magnet, two needles behind the first one, may be
taken for a lace carriage. -/
theorem carriage_astray :
    (garterBench astray).mechanism.position = garterFromLeft.tellingMagnet ∧
      (garterBench astray).ticks + 1 < (garterBench (astray ++ List.replicate 10 .step)).ticks ∧
      (garterBench (astray ++ List.replicate 10 .step)).controller.tracker.carriage =
        some .lace := by
  decide +kernel

end KnitBench.Bench
