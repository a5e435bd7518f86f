import Mathlib.Data.List.Induction
import KnitBench.Proofs.Controller.Following

/-! The mechanism as a counter of quarter needles. Whatever is put on its solenoids in between, its
moves count up and down between the rails, and the count tells where the carriage is, how far the
cam has turned, and what the sensors read. -/

namespace KnitBench

/-- The count after a move, when the rails let the carriage no further than the last quarter of
their last needle. -/
def Setup.counted (s : Setup) (x : Int) : Direction → Int
  | .right => min (x + 1) (4 * (s.model.needleCount + 27) + 3)
  | .left => max (x - 1) (-112)

namespace Mechanism

/-- What is done to a mechanism from outside. -/
inductive Handling
  | latch (r : Register)
  | move (d : Direction)

/-- The direction of a move, if it is one. -/
def Handling.move? : Handling → Option Direction
  | latch _ => none
  | move d => some d

/-- The moves among all that is done. -/
def moves (hs : List Handling) : List Direction := hs.filterMap Handling.move?

def handle (m : Mechanism) : Handling → Mechanism
  | .latch r => m.latch r
  | .move d => m.move d

/-- The mechanism of a setup after all that has been done to it. -/
def handled (s : Setup) (hs : List Handling) : Mechanism := hs.foldl handle (initial s)

variable {s : Setup} {m : Mechanism} {hs : List Handling} {ds : List Direction}

theorem handled_concat (s : Setup) (hs : List Handling) (h : Handling) :
    handled s (hs ++ [h]) = (handled s hs).handle h := List.foldl_append

theorem moves_concat_latch (hs : List Handling) (r : Register) :
    moves (hs ++ [.latch r]) = moves hs := by
  rw [moves, List.filterMap_append]
  exact List.append_nil _

theorem moves_concat_move (hs : List Handling) (d : Direction) :
    moves (hs ++ [.move d]) = moves hs ++ [d] := List.filterMap_append

/-- What moves leave of a mechanism: its count, and its selector where the last move has put it. -/
structure Counts (s : Setup) (ds : List Direction) (m : Mechanism) : Prop where
  aligned : m.Aligned
  setup_eq : m.setup = s
  quarters_eq : m.quarters = ds.foldl s.counted (4 * s.initialPosition)
  direction_eq : m.direction = ds.getLast?.getD s.side.firstDirection
  selected_eq : m.selected = m.position + s.carriage.selectOffset m.direction

namespace Counts

theorem initial (s : Setup) : Counts s [] (initial s) where
  aligned := aligned_initial s
  setup_eq := rfl
  quarters_eq := by simp [quarters, Mechanism.initial]
  direction_eq := rfl
  selected_eq := rfl

/-- Moves count, and stop at the rails. -/
theorem quarters_move (h : Counts s ds m) (d : Direction) :
    (m.move d).quarters = s.counted m.quarters d := by
  rw [Mechanism.quarters_move h.aligned]
  cases d with
  | right =>
    rw [advanced, Setup.rightRail, margin, h.setup_eq, Setup.counted]
    omega
  | left =>
    rw [advanced, Setup.leftRail, margin, Setup.counted]
    omega

theorem latch (h : Counts s ds m) (r : Register) : Counts s ds (m.latch r) :=
  ⟨aligned_latch h.aligned r, h.2, h.3, h.4, h.5⟩

theorem move (h : Counts s ds m) (d : Direction) : Counts s (ds ++ [d]) (m.move d) where
  aligned := aligned_move h.aligned d
  setup_eq := h.setup_eq
  quarters_eq := by
    rw [h.quarters_move, h.quarters_eq, List.foldl_append]
    rfl
  direction_eq := by rw [direction_move, List.getLast?_concat, Option.getD_some]
  selected_eq := by
    rw [direction_move, ← h.setup_eq]
    rfl

theorem handled (s : Setup) (hs : List Handling) : Counts s (moves hs) (handled s hs) := by
  induction hs using List.reverseRecOn with
  | nil => exact initial s
  | append_singleton hs h ih =>
    rw [handled_concat]
    cases h with
    | latch r =>
      rw [moves_concat_latch]
      exact ih.latch r
    | move d =>
      rw [moves_concat_move]
      exact ih.move d

/-- The phase is what the count leaves of whole revolutions of the cam. -/
theorem phase_eq (h : Counts s ds m) :
    (m.phase : Int) = (m.quarters - 4 * s.initialPosition) % (4 * s.model.solenoidCount) := by
  have hn := s.model.solenoidCount_pos
  have hp := Mechanism.phase_eq h.aligned
  rw [h.setup_eq, Setup.phaseAt] at hp
  have h₀ : 0 ≤ (m.quarters - 4 * s.initialPosition) % (4 * s.model.solenoidCount : Nat) :=
    Int.emod_nonneg _ (by omega)
  rw [hp, Int.toNat_of_nonneg h₀]
  push_cast
  rfl

theorem hall_eq (h : Counts s ds m) :
    m.hall = s.carriage.reading s.model s.model.needleCount m.position := by
  rw [h.aligned.hall_eq, hallAt_eq, h.setup_eq]

end Counts

/-- Whatever is put on the solenoids between its moves, a mechanism counts quarter needles: a move
changes the count by one, unless a rail holds it. From the count follow the phase of the cam and
the position, which never leaves the rails, and from the position and the last move the selected
needle and what the sensors read: no magnet is missed for being out of their bands. -/
theorem handled_counts (s : Setup) (hs : List Handling) :
    let m := handled s hs
    ((m.move .right).quarters = min (m.quarters + 1) (4 * (s.model.needleCount + 27) + 3) ∧
      (m.move .left).quarters = max (m.quarters - 1) (-112)) ∧
    m.quarters = (moves hs).foldl s.counted (4 * s.initialPosition) ∧
    (m.phase : Int) = (m.quarters - 4 * s.initialPosition) % (4 * s.model.solenoidCount) ∧
    (-28 ≤ m.position ∧ m.position ≤ s.model.needleCount + 27) ∧
    m.direction = (moves hs).getLast?.getD s.side.firstDirection ∧
    m.selected = m.position + s.carriage.selectOffset m.direction ∧
    m.hall = s.carriage.reading s.model s.model.needleCount m.position := by
  intro m
  have h : Counts s (moves hs) m := .handled s hs
  have hl := h.aligned.leftRail_le
  have hr := h.aligned.le_rightRail
  rw [Setup.leftRail, margin] at hl
  rw [Setup.rightRail, margin, h.setup_eq] at hr
  refine ⟨⟨h.quarters_move .right, h.quarters_move .left⟩, h.quarters_eq, h.phase_eq, ⟨hl, ?_⟩,
    h.direction_eq, h.selected_eq, h.hall_eq⟩
  omega

end Mechanism

end KnitBench
