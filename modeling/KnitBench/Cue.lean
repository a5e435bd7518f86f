/-! Cues from the operator, and the bounded queue in which they wait. -/

namespace KnitBench

/-- What an operator can ask for. -/
inductive Cue.Action
  | moveLeft
  | moveRight
  | reset
  | toggleTrace
  deriving DecidableEq, Repr

/-- The printed name of an action. -/
def Cue.Action.name : Cue.Action → String
  | moveLeft => "MoveLeft"
  | moveRight => "MoveRight"
  | reset => "Reset"
  | toggleTrace => "ToggleTrace"

/-- One cue. The value travels along and means nothing. -/
structure Cue where
  action : Cue.Action
  value : Int := 0
  deriving DecidableEq, Repr

/-- The number of cues that can wait. -/
def CueQueue.capacity : Nat := 16

/-- Waiting cues, oldest first. -/
structure CueQueue where
  cues : List Cue
  length_le : cues.length ≤ CueQueue.capacity

/-- A cue that was refused because the queue was full. -/
structure QueueFull where
  cue : Cue
  deriving DecidableEq, Repr

/-- The wording of a refusal. -/
def QueueFull.message (q : QueueFull) : String :=
  s!"event queue full, dropped Event \x7b kind: {q.cue.action.name}, value: {q.cue.value} \x7d"

namespace CueQueue

/-- No cue waits. -/
def empty : CueQueue := ⟨[], Nat.zero_le _⟩

instance : Inhabited CueQueue := ⟨empty⟩

def length (q : CueQueue) : Nat := q.cues.length

def isEmpty (q : CueQueue) : Bool := q.cues.isEmpty

def isFull (q : CueQueue) : Bool := decide (q.cues.length = capacity)

/-- Adds a cue behind the others, if there is room. -/
def push (q : CueQueue) (c : Cue) : Except QueueFull CueQueue :=
  if h : q.cues.length < capacity then
    .ok ⟨q.cues ++ [c], by rw [List.length_append]; exact h⟩
  else
    .error ⟨c⟩

/-- Takes the oldest cue. -/
def pop (q : CueQueue) : Option (Cue × CueQueue) :=
  match h : q.cues with
  | [] => none
  | c :: rest =>
    some (c, ⟨rest, by have := q.length_le; rw [h] at this; exact Nat.le_of_succ_le this⟩)

/-- How both ends of the queue describe themselves. -/
def summary (q : CueQueue) : String :=
  s!"EventProducer \x7b occupied: {q.length} \x7d EventConsumer \x7b occupied: {q.length} \x7d"

variable {q : CueQueue} {c : Cue}

theorem cues_push {q' : CueQueue} (h : q.push c = .ok q') : q'.cues = q.cues ++ [c] := by
  unfold push at h
  split at h
  · injection h with h
    rw [← h]
  · cases h

end CueQueue

end KnitBench
