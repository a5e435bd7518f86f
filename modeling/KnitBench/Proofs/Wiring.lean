import KnitBench.Proofs.Controller.Answers
import KnitBench.Proofs.Controller.Detection

/-! A mechanism and the reference controller on its wires: what holds of both between two slices of
the controller's time. -/

namespace KnitBench

namespace ReferenceController

variable {c : ReferenceController} {hall : HallReading} {ms : List (List UInt8)}

/-- The controller with other levels on its digital lines. -/
def seeing (c : ReferenceController) (l : Levels) : ReferenceController := { c with levels := l }

theorem raiseLevels_eq (l : Levels) (c : ReferenceController) :
    Controller.raiseLevels l c = c.seeing l := by
  obtain ⟨v1, v2, belt⟩ := l
  cases v1 <;> cases v2 <;> cases belt <;> rfl

/-- What a slice of time, its output collected, does besides the work on the line. -/
theorem exists_sliced (hq : c.Queues ms) (hall : HallReading) :
    ∃ mode line lamp0 lamp1, c.sliced hall = { c.tracked with
      mode, line, lamp0, lamp1, hall
      register := some c.worked.wantedRegister
      outbox := #[] } := by
  obtain ⟨mode, line, lamp0, lamp1, outbox, ms', hw, -⟩ := exists_worked hq
  refine ⟨mode, line, lamp0, lamp1, ?_⟩
  rw [sliced, hw]

theorem tracker_sliced (hq : c.Queues ms) (hall : HallReading) :
    (c.sliced hall).tracker = (c.tracker.track c.model c.levels c.hall).value := by
  obtain ⟨mode, line, lamp0, lamp1, he⟩ := exists_sliced hq hall
  rw [he]
  rfl

theorem model_sliced (hq : c.Queues ms) (hall : HallReading) :
    (c.sliced hall).model = c.model := by
  obtain ⟨mode, line, lamp0, lamp1, he⟩ := exists_sliced hq hall
  rw [he]
  rfl

theorem levels_sliced (hq : c.Queues ms) (hall : HallReading) :
    (c.sliced hall).levels = c.levels := by
  obtain ⟨mode, line, lamp0, lamp1, he⟩ := exists_sliced hq hall
  rw [he]
  rfl

theorem receiver_sliced (hq : c.Queues ms) (hall : HallReading) :
    (c.sliced hall).receiver = c.receiver := by
  obtain ⟨mode, line, lamp0, lamp1, he⟩ := exists_sliced hq hall
  rw [he]
  rfl

theorem cycle_sliced (hq : c.Queues ms) (hall : HallReading) :
    (c.sliced hall).cycle = c.cycle + cyclesPerStep := by
  obtain ⟨mode, line, lamp0, lamp1, he⟩ := exists_sliced hq hall
  rw [he]
  rfl

/-- All output has been collected. -/
theorem queues_sliced (c : ReferenceController) (hall : HallReading) : (c.sliced hall).Queues [] :=
  Carries.nil

end ReferenceController

/-- The controller is on the wires of the mechanism: it gets the levels at hand, and what it has put
out is on the solenoids. -/
structure Attached (m : Mechanism) (c : ReferenceController) : Prop where
  aligned : m.Aligned
  levels_eq : c.levels = m.levels
  register_eq : ∀ r, c.register = some r → m.register = r
  queues : ∃ ms, c.Queues ms

/-- Between two slices the controller is in step with the mechanism: it has seen the quarter at
hand, and it knows what the sensors read, unless it has just started and knows nothing of a
carriage. -/
structure Wired (m : Mechanism) (c : ReferenceController) : Prop extends Attached m c where
  quarter_eq : c.tracker.quarter = Levels.quarter m.levels.v1 m.levels.v2
  hall_eq : c.hall = m.hall ∨
    (c.hall = .idle ∧ c.tracker.carriage = none ∧ c.tracker.southSeen = none)

variable {m m' : Mechanism} {c c' : ReferenceController} {ms : List (List UInt8)}

namespace Attached

theorem seeing_self (h : Attached m c) : c.seeing m.levels = c := by
  rw [← h.levels_eq]
  rfl

theorem move (h : Attached m c) (d : Direction) :
    Attached (m.move d) (c.seeing (m.move d).levels) where
  aligned := Mechanism.aligned_move h.aligned d
  levels_eq := rfl
  register_eq r hr := h.register_eq r hr
  queues := h.queues

/-- Messages do not come between mechanism and controller. -/
theorem answers (h : Attached m c) (ha : c.Answers c') : Attached m c' where
  aligned := h.aligned
  levels_eq := ha.levels_eq.trans h.levels_eq
  register_eq r hr := h.register_eq r (ha.register_eq ▸ hr)
  queues := by
    obtain ⟨ms, hq⟩ := h.queues
    obtain ⟨ms', hq'⟩ := ha.queues ms hq
    exact ⟨ms ++ ms', hq'⟩

theorem reset (h : Attached m c) : Attached m c.reset.value where
  aligned := h.aligned
  levels_eq := h.levels_eq
  register_eq r hr := by cases hr
  queues := ⟨[], Carries.nil⟩

/-- Whether the display is up to date is no matter of the wires. -/
theorem shown (h : Attached m c) (stale : Bool) : Attached { m with stale } c :=
  ⟨Mechanism.aligned_shown h.1 stale, h.2, h.3, h.4⟩

theorem refreshed (h : Attached m c) : Attached m.refreshed c := h.shown false

/-- A slice of time brings the controller in step. -/
theorem slice (h : Attached m c) : Wired (m.latch c.worked.wantedRegister) (c.sliced m.hall) := by
  obtain ⟨ms, hq⟩ := h.queues
  refine ⟨⟨Mechanism.aligned_latch h.aligned _,
    (ReferenceController.levels_sliced hq _).trans h.levels_eq,
    fun r hr => Option.some.inj hr, [], c.queues_sliced _⟩, ?_, Or.inl rfl⟩
  rw [ReferenceController.tracker_sliced hq, ReferenceController.Tracker.quarter_track, h.levels_eq]
  rfl

end Attached

namespace Wired

theorem val_quarter (h : Wired m c) : (c.tracker.quarter.val : Int) = m.quarters % 4 := by
  rw [h.quarter_eq]
  exact m.quarter_levels

theorem initial (s : Setup) (model : Model) :
    Wired (.initial s)
      (Controller.raiseLevels (Mechanism.initial s).levels
        (ReferenceController.powerOn model)) := by
  rw [ReferenceController.raiseLevels_eq]
  exact {
    aligned := Mechanism.aligned_initial s
    levels_eq := rfl
    quarter_eq := rfl
    register_eq := fun r hr => by cases hr
    hall_eq := Or.inl rfl
    queues := ⟨[], Carries.nil⟩ }

theorem answers (h : Wired m c) (ha : c.Answers c') : Wired m c' where
  toAttached := h.toAttached.answers ha
  quarter_eq := by
    rw [ha.tracker_eq]
    exact h.quarter_eq
  hall_eq := by
    rw [ha.hall_eq, ha.tracker_eq]
    exact h.hall_eq

theorem reset (h : Wired m c) : Wired m c.reset.value where
  toAttached := h.toAttached.reset
  quarter_eq := by
    rw [← h.levels_eq]
    rfl
  hall_eq := Or.inr ⟨rfl, rfl, rfl⟩

theorem shown (h : Wired m c) (stale : Bool) : Wired { m with stale } c :=
  ⟨h.toAttached.shown stale, h.2, h.3⟩

theorem refreshed (h : Wired m c) : Wired m.refreshed c := h.shown false

end Wired

end KnitBench
