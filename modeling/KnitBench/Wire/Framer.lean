import KnitBench.Wire.Stuffing

/-! A receiver that cuts a byte stream into messages. It keeps the stuffed bytes of the frame in
progress, at most `Framer.capacity` of them, and hands the message over at the delimiter. -/

namespace KnitBench.Wire

/-- The number of stuffed bytes that a receiver can hold. -/
def Framer.capacity : Nat := 128

/-- The stuffed bytes received since the last delimiter. -/
structure Framer where
  pending : Array UInt8
  size_le : pending.size ≤ Framer.capacity

namespace Framer

/-- A receiver that has seen nothing. -/
def empty : Framer := ⟨#[], Nat.zero_le _⟩

instance : Inhabited Framer := ⟨empty⟩

/-- Takes one byte. A delimiter closes the frame in progress, if any, and yields its message;
bytes beyond the capacity are lost. -/
def push (f : Framer) (b : UInt8) : Option (List UInt8) × Framer :=
  if b = delimiter then
    if f.pending.isEmpty then (none, f) else (some (unstuff f.pending.toList), empty)
  else if h : f.pending.size < capacity then
    (none, ⟨f.pending.push b, by rw [Array.size_push]; exact h⟩)
  else
    (none, f)

/-- Takes bytes one after another; the messages that they complete, in order. -/
def feed : Framer → List UInt8 → List (List UInt8) × Framer
  | f, [] => ([], f)
  | f, b :: rest =>
    let (message?, f) := f.push b
    let (messages, f) := feed f rest
    (message?.toList ++ messages, f)

variable (f : Framer)

@[simp] theorem push_delimiter_empty : empty.push delimiter = (none, empty) := rfl

@[simp] theorem feed_nil : f.feed [] = ([], f) := rfl

theorem feed_append (a b : List UInt8) :
    f.feed (a ++ b) =
      ((f.feed a).1 ++ ((f.feed a).2.feed b).1, ((f.feed a).2.feed b).2) := by
  induction a generalizing f with
  | nil => simp
  | cons x a ih => simp [feed, ih]

end Framer

end KnitBench.Wire
