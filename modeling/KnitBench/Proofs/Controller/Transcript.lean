import KnitBench.Proofs.Controller.Speech

/-! A listener on the serial line of the reference controller, which collects the output piece by
piece while the host sends what it likes: what it reads is what the controller has sent. -/

namespace KnitBench.ReferenceController

open Message

/-- A controller, what has been collected from its serial line, and what it has sent. -/
structure Listener where
  controller : ReferenceController
  bytes : List UInt8 := []
  sent : List (List UInt8) := []

namespace Listener

variable {l : Listener}

/-- Something happens to the controller. -/
def watch (l : Listener) (x : Stimulus) : Listener :=
  { l with controller := l.controller.after x, sent := l.sent ++ l.controller.sends x }

/-- The oldest output is collected. -/
def collect (l : Listener) : Listener :=
  { l with
    controller := l.controller.poll.2
    bytes := l.bytes ++ (l.controller.poll.1.bind Output.byte?).toList }

/-- The listener after a stimulus. -/
def after (l : Listener) (x : Stimulus) : Listener := if x = .poll then l.collect else l.watch x

/-- A listener from power-on, after all that has happened. -/
def run (model : Model) (xs : List Stimulus) : Listener :=
  xs.foldl after { controller := powerOn model }

/-- What has been collected and what waits are the frames of what has been sent. -/
structure Tuned (l : Listener) : Prop where
  bytes_eq : l.bytes ++ l.controller.waiting = l.sent.flatMap Wire.frame
  fits : ∀ m ∈ l.sent, Wire.Fits m
  made : ∀ m ∈ l.sent, Made m

theorem Tuned.watch (h : l.Tuned) {x : Stimulus}
    (hx : l.controller.Says (l.controller.after x) (l.controller.sends x)) : (l.watch x).Tuned where
  bytes_eq := by
    simp only [Listener.watch, hx.waiting_eq, List.flatMap_append, ← h.bytes_eq, List.append_assoc]
  fits m hm := (List.mem_append.mp hm).elim (h.fits m) (hx.fits m)
  made m hm := (List.mem_append.mp hm).elim (h.made m) made_of_mem_sends

theorem Tuned.collect (h : l.Tuned) : l.collect.Tuned where
  bytes_eq := by
    simp only [Listener.collect, List.append_assoc, waiting_poll, h.bytes_eq]
  fits := h.fits
  made := h.made

/-- With a reset the output that waits is lost. -/
theorem Tuned.after (h : l.Tuned) {x : Stimulus} (hx : x ≠ .reset) : (l.after x).Tuned := by
  cases x with
  | byte b => exact h.watch (says_byte _ b)
  | raise line value => exact h.watch (by cases line <;> exact .nothing rfl)
  | slice => exact h.watch (says_slice _)
  | reset => exact absurd rfl hx
  | poll => exact h.collect

theorem Tuned.foldl (h : l.Tuned) {xs : List Stimulus} (hxs : .reset ∉ xs) :
    (xs.foldl Listener.after l).Tuned := by
  induction xs generalizing l with
  | nil => exact h
  | cons x xs ih =>
    obtain ⟨hx, hxs⟩ := not_or.mp (mt List.mem_cons.mpr hxs)
    exact ih (h.after (Ne.symm hx)) hxs

theorem tuned_run (model : Model) {xs : List Stimulus} (hxs : .reset ∉ xs) :
    (run model xs).Tuned :=
  Tuned.foldl ⟨rfl, by simp, by simp⟩ hxs

/-- Polled often enough, the controller has no output left. -/
theorem drain (l : Listener) (n : Nat) :
    ((List.replicate n Stimulus.poll).foldl after l).controller.outbox.toList =
        l.controller.outbox.toList.drop n ∧
      ((List.replicate n Stimulus.poll).foldl after l).sent = l.sent := by
  induction n generalizing l with
  | zero => exact ⟨rfl, rfl⟩
  | succ n ih =>
    obtain ⟨ho, hs⟩ := ih l.collect
    refine ⟨?_, hs⟩
    rw [List.replicate_succ, List.foldl_cons, after, if_pos rfl, ho, Listener.collect,
      l.controller.outbox_poll.2, List.drop_tail]

/-- What a receiver reads of the front of a stream is the front of what it reads. -/
theorem prefix_feed {bytes rest : List UInt8} {ms : List (List UInt8)}
    (h : (Wire.Framer.empty.feed (bytes ++ rest)).1 = ms) :
    (Wire.Framer.empty.feed bytes).1 <+: ms := by
  rw [Wire.Framer.feed_append] at h
  exact ⟨_, h⟩

/-- Whatever bytes a controller receives from power-on, and however slices of time, input and polls
come between them, as long as it is not reset: a receiver reads of what has been polled the first of
the messages that have been sent, in order. When polling has gone on until no output is left, it has
read all of them and holds nothing. Each message has the right check byte and names a command of the
protocol. -/
theorem feed_bytes (model : Model) (xs : List Stimulus) (hxs : .reset ∉ xs) :
    let l := run model xs
    let drained := run model (xs ++ List.replicate l.controller.outbox.size .poll)
    (Wire.Framer.empty.feed l.bytes).1 <+: l.sent ∧
      drained.controller.outbox = #[] ∧
      Wire.Framer.empty.feed drained.bytes = (l.sent, .empty) ∧
      ∀ m ∈ l.sent, ∃ b payload, split m = .ok (b, payload) ∧ (Code.ofByte? b).isSome := by
  intro l drained
  have hl : l.Tuned := tuned_run model hxs
  have hd : drained.Tuned := tuned_run model fun hr =>
    (List.mem_append.mp hr).elim hxs fun hr => nomatch List.eq_of_mem_replicate hr
  obtain ⟨ho, hs⟩ : drained.controller.outbox.toList = [] ∧ drained.sent = l.sent := by
    have hdrained :
        drained = (List.replicate l.controller.outbox.size Stimulus.poll).foldl after l :=
      List.foldl_append
    have h := l.drain l.controller.outbox.size
    rwa [List.drop_of_length_le (Nat.le_of_eq Array.length_toList), ← hdrained] at h
  have hall : Wire.Framer.empty.feed (l.sent.flatMap Wire.frame) = (l.sent, .empty) :=
    Wire.Framer.feed_frames hl.fits
  refine ⟨?_, Array.toList_eq_nil_iff.mp ho, ?_, fun m hm => ?_⟩
  · rw [← hl.bytes_eq] at hall
    exact prefix_feed (congrArg Prod.fst hall)
  · have hw : drained.controller.waiting = [] := by
      rw [waiting, ho]
      rfl
    have hb := hd.bytes_eq
    rw [hw, List.append_nil, hs] at hb
    rw [hb, hall]
  · obtain ⟨code, payload, rfl⟩ := hl.made m hm
    exact ⟨code.byte, payload, split_make code payload, by rw [Code.ofByte?_byte]; rfl⟩

/-- A host that tells the machine while the left hall sensor reads the two bytes that are stuffed,
and a listener that has polled three times so far. -/
def stuffedReport : List Stimulus :=
  .raise .hallLeft 0xDBC0 :: (Wire.frame (reqInit .kh270)).map .byte ++
    [.poll, .poll, .poll, .slice]

theorem feed_bytes_stuffedReport :
    let report : StateReport := ⟨0, StateReport.ready, 0xDBC0, 1650, 0xFF, 0, 0xFF⟩
    .reset ∉ stuffedReport ∧
      (run .kh930 stuffedReport).sent = [cnfInit 0, report.message] ∧
      Wire.Framer.empty.feed (run .kh930 (stuffedReport ++
          List.replicate (run .kh930 stuffedReport).controller.outbox.size .poll)).bytes =
        ([cnfInit 0, report.message], .empty) ∧
      report.message ∈ (run .kh930 stuffedReport).sent ∧
      ∃ b payload, split report.message = .ok (b, payload) ∧ (Code.ofByte? b).isSome := by
  intro report
  have hreset : .reset ∉ stuffedReport := by decide +kernel
  have hsent : (run .kh930 stuffedReport).sent = [cnfInit 0, report.message] := by decide +kernel
  have hmem : report.message ∈ (run .kh930 stuffedReport).sent := by
    rw [hsent]
    exact List.mem_cons_of_mem _ List.mem_cons_self
  obtain ⟨-, -, hfeed, hmade⟩ := feed_bytes .kh930 stuffedReport hreset
  exact ⟨hreset, hsent, hfeed.trans (by rw [hsent]), hmem, hmade _ hmem⟩

end Listener

end KnitBench.ReferenceController
