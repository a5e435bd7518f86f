import Mathlib.Data.List.TakeWhile
import KnitBench.Proofs.Trial.Course

/-! The answers of a trial to the requests for lines that it takes. Each request waits for so many
ticks, and the last of them answers it; whatever else is asked of the trial meanwhile, no request is
passed over, overtaken or answered twice. -/

namespace KnitBench.Trial

variable {s : Setup} {o : TrialOptions} {t t' : Trial} {m : Mechanism} {call : Call} {v : Verdict}
  {line : UInt8} {code : Message.Code} {payload : List UInt8} {n : Nat} {w : List (Nat × UInt8)}

/-- The ticks that a call makes. -/
def Call.ticks : Call → Nat
  | .tick _ => 1
  | .accept _ | .takeOutgoing | .afterMove _ => 0

/-- The number of the tick that a call is, if it is one and `n` ticks were made before. -/
def Call.tickNumber? (n : Nat) : Call → Option Nat
  | .tick _ => some (n + 1)
  | .accept _ | .takeOutgoing | .afterMove _ => none

/-- The line that a call asks for, if it is a request for a line and is taken. -/
def asked? (t : Trial) : Call → Option UInt8
  | .accept message =>
    match Message.split message, (t.hear message).value with
    | .ok (b, line :: _), (.ok _, _) => if b = Message.Code.reqLine.byte then some line else none
    | _, _ => none
  | .tick _ | .takeOutgoing | .afterMove _ => none

/-- The requests that are taken, oldest first. Each is given as the number of ticks made before it,
and its line. -/
def requests (t : Trial) (n : Nat) : List Call → List (Nat × UInt8)
  | [] => []
  | call :: calls =>
    (t.asked? call).toList.map (n, ·) ++ (t.after call).requests (n + call.ticks) calls

/-- The messages with lines that are made ready, oldest first, each with the number of the tick that
has made it ready. -/
def answers (t : Trial) (n : Nat) : List Call → List (Option Nat × List UInt8)
  | [] => []
  | call :: calls =>
    ((t.readied call).filter deliversLine).map (call.tickNumber? n, ·) ++
      (t.after call).answers (n + call.ticks) calls

/-- The number of ticks that are made while there is no verdict. -/
def ticksUndecided (t : Trial) : List Call → Nat
  | [] => 0
  | call :: calls =>
    if t.verdict.isSome then 0 else call.ticks + (t.after call).ticksUndecided calls

/-! ### The requests -/

theorem asked?_make (h : (t.hear (Message.make code payload)).value = (.ok (), t')) :
    t.asked? (.accept (Message.make code payload)) =
      if code = .reqLine then payload.head? else none := by
  have hb : code.byte = Message.Code.reqLine.byte ↔ code = .reqLine := by
    cases code <;> decide
  rw [asked?, Message.split_make, h]
  cases payload with
  | nil => simp
  | cons line rest => simp only [hb, List.head?_cons]

theorem asked?_of_refused {message : List UInt8} {fault : ProtocolFault}
    (h : (t.hear message).value = (.error fault, t')) : t.asked? (.accept message) = none := by
  rw [asked?, h]
  split
  · rename_i he
    cases he
  · rfl

/-- A request that is taken is for the next line, and waits from then on. -/
theorem after_of_asked (h : t.asked? call = some line) :
    line = t.nextLine ∧ t.stage = .knitting ∧ t.after call = { t with
      nextLine := t.nextLine + 1
      pending := t.pending ++ [(t.options.delay, line)] } := by
  cases call with
  | tick | takeOutgoing | afterMove => cases h
  | accept message =>
    rcases t.takes_or_refuses message with ⟨t', ht⟩ | ⟨fault, hr⟩
    · have hv := ht.hear_eq
      rw [ht.after_eq]
      cases ht with
      | remark code payload hc =>
        rw [asked?_make hv] at h
        rcases hc with rfl | rfl <;> cases h
      | initialised | ready | healthy | started =>
        rw [asked?_make hv] at h
        cases h
      | requested payload hs hl =>
        rw [asked?_make hv, if_pos rfl, hl] at h
        cases h
        exact ⟨rfl, hs, rfl⟩
    · rw [asked?_of_refused hr] at h
      cases h

/-- Two trials, the second of which is a later one with the same requests. -/
structure Undisturbed (t t' : Trial) : Prop where
  nextLine_eq : t'.nextLine = t.nextLine
  pending_eq : t'.pending = t.pending
  knitting : t.stage = .knitting → t'.stage = .knitting

theorem Undisturbed.refl (t : Trial) : t.Undisturbed t := ⟨rfl, rfl, id⟩

theorem Agrees.undisturbed (h : t.Agrees t') : t.Undisturbed t' :=
  ⟨h.nextLine_eq, h.pending_eq, h.stage_eq.trans⟩

/-- Apart from the ticks and the requests that are taken, no call matters to the requests. -/
theorem undisturbed_of_not_asked (ht : call.ticks = 0) (h : t.asked? call = none) :
    t.Undisturbed (t.after call) := by
  cases call with
  | tick => cases ht
  | takeOutgoing => exact ⟨rfl, rfl, id⟩
  | afterMove m => exact (t.agrees_afterMove m).undisturbed
  | accept message =>
    rcases t.takes_or_refuses message with ⟨t', ht⟩ | ⟨fault, hr⟩
    · have hv := ht.hear_eq
      rw [ht.after_eq]
      cases ht with
      | remark | initialised | healthy | started => exact .refl t
      | ready => exact ⟨rfl, rfl, fun _ => rfl⟩
      | requested payload hs hl =>
        rw [asked?_make hv, if_pos rfl, hl] at h
        cases h
    · rw [after, hr]
      exact .refl t

theorem nextLine_tick (t : Trial) (m : Mechanism) :
    (t.after (.tick m)).nextLine = t.nextLine := by
  rw [after]
  cases hv : t.verdict with
  | some v => rw [value_tick_verdict hv]
  | none =>
    obtain ⟨lines, ht⟩ := ticked hv m
    generalize (t.tick m).value = r at ht
    cases ht <;> rfl

/-- The requests that are taken ask for one line after the other. -/
theorem lines_of_requests (t : Trial) (n : Nat) (calls : List Call) :
    (t.requests n calls).map Prod.snd =
      (List.range (t.requests n calls).length).map fun j => t.nextLine + UInt8.ofNat j := by
  induction calls generalizing t n with
  | nil => rfl
  | cons call calls ih =>
    rw [requests]
    cases ha : t.asked? call with
    | none =>
      have hn : (t.after call).nextLine = t.nextLine := by
        cases call with
        | tick m => exact t.nextLine_tick m
        | accept | takeOutgoing | afterMove => exact (undisturbed_of_not_asked rfl ha).nextLine_eq
      rw [← hn]
      exact ih _ _
    | some line =>
      obtain ⟨hl, -, hc⟩ := after_of_asked ha
      have hn : (t.after call).nextLine = t.nextLine + 1 := by rw [hc]
      simp only [Option.toList_some, List.map_cons, List.map_nil, List.cons_append, List.nil_append,
        List.length_cons, List.range_succ_eq_map, List.map_map, ih, hn, hl]
      congr 1
      · simp
      · refine List.map_congr_left fun j _ => ?_
        rw [Function.comp_apply, Nat.succ_eq_add_one, UInt8.ofNat_add, UInt8.add_assoc,
          UInt8.add_comm 1]
        rfl

theorem le_of_mem_requests {r : Nat × UInt8} {calls : List Call} (h : r ∈ t.requests n calls) :
    n ≤ r.1 := by
  induction calls generalizing t n with
  | nil => cases h
  | cons call calls ih =>
    rcases List.mem_append.mp h with h | h
    · obtain ⟨line, -, rfl⟩ := List.mem_map.mp h
      exact le_rfl
    · exact (Nat.le_add_right n _).trans (ih h)

/-! ### The answers -/

/-- Setup and options stay as they are. -/
theorem options_after (t : Trial) (call : Call) :
    (t.after call).setup = t.setup ∧ (t.after call).options = t.options := by
  cases call with
  | tick m =>
    rw [after]
    cases hv : t.verdict with
    | some v =>
      rw [value_tick_verdict hv]
      exact ⟨rfl, rfl⟩
    | none =>
      obtain ⟨lines, ht⟩ := ticked hv m
      generalize (t.tick m).value = r at ht
      cases ht <;> exact ⟨rfl, rfl⟩
  | accept message =>
    obtain ⟨stage, nextLine, pending, others, ha, -⟩ := t.exists_after_accept message
    rw [ha]
    exact ⟨rfl, rfl⟩
  | takeOutgoing => exact ⟨rfl, rfl⟩
  | afterMove m => exact ⟨(t.agrees_afterMove m).setup_eq, (t.agrees_afterMove m).options_eq⟩

theorem answer_after (t : Trial) (call : Call) : (t.after call).answer = t.answer := by
  funext line
  simp only [answer, t.options_after call]

/-- What waits in a trial after `n` ticks: the requests of `w`, oldest first, each with the number
of ticks made before it, and none of them for too long. -/
structure Waits (t : Trial) (n : Nat) (w : List (Nat × UInt8)) : Prop where
  pending_eq : t.pending = w.map fun r => (t.options.delay - (n - r.1), r.2)
  sorted : w.Pairwise fun r r' => r.1 ≤ r'.1
  waiting : ∀ r ∈ w, r.1 ≤ n ∧ n < r.1 + max 1 t.options.delay
  knitting : w ≠ [] → t.stage = .knitting

/-- Behind the front of a sorted list nothing is small. -/
theorem not_of_mem_dropWhile {α : Type} {p : α → Bool} {l : List α}
    (hs : l.Pairwise fun a b => p b = true → p a = true) :
    ∀ a ∈ l.dropWhile p, p a = false := by
  induction l with
  | nil => exact nofun
  | cons b l ih =>
    obtain ⟨hb, hl⟩ := List.pairwise_cons.mp hs
    rw [List.dropWhile_cons]
    split
    · exact ih hl
    · rename_i hp
      intro a ha
      rcases List.mem_cons.mp ha with rfl | ha
      · exact Bool.eq_false_iff.mpr hp
      · exact Bool.eq_false_iff.mpr fun h => hp (hb a ha h)

theorem lines_of_events (h : t.events call = []) :
    (t.readied call).filter deliversLine = [] :=
  List.map_eq_nil_iff.mp (List.append_eq_nil_iff.mp h).1

/-- Only ticks answer. -/
theorem lines_of_ticks_eq_zero (h : call.ticks = 0) :
    (t.readied call).filter deliversLine = [] := by
  cases call with
  | tick => cases h
  | accept message => exact lines_of_events (t.events_accept message)
  | takeOutgoing => exact lines_of_events t.events_takeOutgoing
  | afterMove m =>
    rw [readied_afterMove]
    rfl

/-- After the verdict nothing is answered any more. -/
theorem answers_of_verdict (hv : t.verdict = some v) (n : Nat) (calls : List Call) :
    t.answers n calls = [] := by
  induction calls generalizing t n with
  | nil => rfl
  | cons call calls ih =>
    rw [answers, lines_of_events (events_verdict hv call), ih (verdict_after hv call)]
    rfl

/-- A tick of a trial that knits answers the requests at the front whose time has come. -/
theorem tick_knitting (hv : t.verdict = none) (hs : t.stage = .knitting) (m : Mechanism) :
    let q := t.pending.map fun r => (r.1 - 1, r.2)
    (t.after (.tick m)).pending = q.dropWhile (·.1 == 0) ∧
      (t.after (.tick m)).stage = .knitting ∧
      (t.readied (.tick m)).filter deliversLine =
        (q.takeWhile (·.1 == 0)).map fun r => t.answer r.2 := by
  intro q
  have hd : t.deliver.value = { t with
      pending := q.dropWhile (·.1 == 0)
      outgoing := t.outgoing ++ (q.takeWhile (·.1 == 0)).map fun r => t.answer r.2
      lineDelivered := t.lineDelivered || !(q.takeWhile (·.1 == 0)).isEmpty } :=
    value_answerDue q t
  have ha : t.deliver.value.Agrees (t.after (.tick m)) := by
    rw [after, value_tick_knitting hv hs]
    exact t.deliver.value.agrees_turn m
  have ho := ha.outgoing_eq
  have hp := ha.pending_eq
  have hst := ha.stage_eq
  rw [hd] at ho hp hst
  refine ⟨hp, hst.trans hs, ?_⟩
  have hl := t.filter_deliversLine_answers ((q.takeWhile (·.1 == 0)).map Prod.snd)
  rw [List.map_map] at hl
  rw [readied_of_outgoing_eq _ ho]
  exact hl

/-- Before that a tick answers nothing. -/
theorem tick_of_stage_ne (hv : t.verdict = none) (hs : t.stage ≠ .knitting) (m : Mechanism) :
    (t.after (.tick m)).pending = t.pending ∧
      (t.readied (.tick m)).filter deliversLine = [] := by
  cases hst : t.stage with
  | knitting => exact absurd hst hs
  | opening =>
    have ha := value_tick_opening hv hst m
    have ho : (t.after (.tick m)).outgoing = t.outgoing ++ [Message.reqInit t.setup.model] := by
      rw [after, ha]
    rw [readied_of_outgoing_eq _ ho, after, ha]
    exact ⟨rfl, rfl⟩
  | awaiting =>
    have ha := value_tick_awaiting hv hst m
    have ho : (t.after (.tick m)).outgoing = t.outgoing ++ [] := by
      rw [after, ha, List.append_nil]
    rw [readied_of_outgoing_eq _ ho, after, ha]
    exact ⟨rfl, rfl⟩

namespace Waits

theorem initial (s : Setup) (o : TrialOptions) : Waits (.begin s o) 0 [] :=
  ⟨rfl, .nil, nofun, nofun⟩

/-- A call that is no tick answers nothing; the request that it brings, if any, waits behind the
others. -/
theorem after_of_ticks_eq_zero (h : t.Waits n w) (ht : call.ticks = 0) :
    (t.after call).Waits n (w ++ (t.asked? call).toList.map (n, ·)) := by
  cases ha : t.asked? call with
  | none =>
    have hu := undisturbed_of_not_asked ht ha
    rw [Option.toList_none, List.map_nil, List.append_nil]
    refine ⟨?_, h.sorted, ?_, fun hw => hu.knitting (h.knitting hw)⟩
    · rw [hu.pending_eq, (t.options_after call).2]
      exact h.pending_eq
    · rw [(t.options_after call).2]
      exact h.waiting
  | some line =>
    obtain ⟨-, hs, hc⟩ := after_of_asked ha
    rw [hc]
    refine ⟨?_, ?_, ?_, fun _ => hs⟩
    · simp [h.pending_eq]
    · refine List.pairwise_append.mpr ⟨h.sorted, List.pairwise_singleton _ _, fun r hr r' hr' => ?_⟩
      rw [List.mem_singleton.mp hr']
      exact (h.waiting r hr).1
    · intro r hr
      rcases List.mem_append.mp hr with hr | hr
      · exact h.waiting r hr
      · rw [List.mem_singleton.mp hr]
        exact ⟨le_rfl, by dsimp only; omega⟩

/-- A tick answers those at the front that have waited long enough, and the others go on waiting. -/
theorem tick (h : t.Waits n w) (hv : t.verdict = none) (m : Mechanism) :
    ∃ due rest, w = due ++ rest ∧ (∀ r ∈ due, r.1 + max 1 t.options.delay = n + 1) ∧
      (t.readied (.tick m)).filter deliversLine = due.map (fun r => t.answer r.2) ∧
      (t.after (.tick m)).Waits (n + 1) rest := by
  by_cases hs : t.stage = .knitting
  · obtain ⟨hp, hst, hr⟩ := t.tick_knitting hv hs m
    let left (r : Nat × UInt8) : Nat × UInt8 := (t.options.delay - (n + 1 - r.1), r.2)
    let late (r : Nat × UInt8) : Bool := (left r).1 == 0
    have hq : (t.pending.map fun r => (r.1 - 1, r.2)) = w.map left := by
      rw [h.pending_eq, List.map_map]
      refine List.map_congr_left fun r hr => Prod.ext ?_ rfl
      have hn := (h.waiting r hr).1
      change t.options.delay - (n - r.1) - 1 = t.options.delay - (n + 1 - r.1)
      omega
    rw [hq, List.dropWhile_map] at hp
    rw [hq, List.takeWhile_map, List.map_map] at hr
    have hlate : ∀ r ∈ w, late r = true ↔ r.1 + max 1 t.options.delay ≤ n + 1 := by
      intro r hr
      have hn := (h.waiting r hr).1
      change (t.options.delay - (n + 1 - r.1) == 0) = true ↔ _
      rw [beq_iff_eq]
      omega
    have hsub := List.dropWhile_sublist (l := w) late
    have hsorted : w.Pairwise fun r r' => late r' = true → late r = true := by
      refine h.sorted.imp_of_mem fun hr hr' hle hl => ?_
      have := (hlate _ hr').mp hl
      exact (hlate _ hr).mpr (by omega)
    refine ⟨w.takeWhile late, w.dropWhile late, List.takeWhile_append_dropWhile.symm, ?_, hr, ?_⟩
    · intro r hr
      have hmem := (List.takeWhile_sublist late).subset hr
      have hle := (hlate r hmem).mp (List.mem_takeWhile_imp hr)
      have hlt := (h.waiting r hmem).2
      omega
    · refine ⟨?_, h.sorted.sublist hsub, ?_, fun _ => hst⟩
      · rw [(t.options_after _).2]
        exact hp
      · rw [(t.options_after _).2]
        intro r hr
        have hmem := hsub.subset hr
        have hnot := mt (hlate r hmem).mpr
          (Bool.eq_false_iff.mp (not_of_mem_dropWhile hsorted r hr))
        exact ⟨Nat.le_succ_of_le (h.waiting r hmem).1, Nat.lt_of_not_le hnot⟩
  · have hw : w = [] := by
      by_contra hw
      exact hs (h.knitting hw)
    subst hw
    obtain ⟨hp, hr⟩ := tick_of_stage_ne hv hs m
    exact ⟨[], [], rfl, nofun, hr, hp.trans h.pending_eq, .nil, nofun, nofun⟩

/-- No request that waits or is still to come is answered by one of the first `n` ticks. -/
theorem filter_eq_nil (h : t.Waits n w) (calls : List Call) :
    ((w ++ t.requests n calls).filter fun r => r.1 + max 1 t.options.delay ≤ n) = [] := by
  refine List.filter_eq_nil_iff.mpr fun r hr => ?_
  rw [decide_eq_true_eq]
  rcases List.mem_append.mp hr with hr | hr
  · have := (h.waiting r hr).2
    omega
  · have := le_of_mem_requests hr
    omega

/-- What is answered from now on: those of the waiting requests and of those to come whose last tick
is made before there is a verdict. -/
theorem answers_eq (h : t.Waits n w) (calls : List Call) :
    t.answers n calls =
      ((w ++ t.requests n calls).filter fun r =>
        r.1 + max 1 t.options.delay ≤ n + t.ticksUndecided calls).map
          fun r => (some (r.1 + max 1 t.options.delay), t.answer r.2) := by
  induction calls generalizing t n w with
  | nil =>
    rw [ticksUndecided, Nat.add_zero, h.filter_eq_nil []]
    rfl
  | cons call calls ih =>
    cases hv : t.verdict with
    | some v =>
      have hu : t.ticksUndecided (call :: calls) = 0 := by
        rw [ticksUndecided, hv]
        rfl
      rw [hu, Nat.add_zero, h.filter_eq_nil, answers_of_verdict hv]
      rfl
    | none =>
      have hu : t.ticksUndecided (call :: calls) =
          call.ticks + (t.after call).ticksUndecided calls := by
        rw [ticksUndecided, hv]
        rfl
      have other (ht : call.ticks = 0) := ih (h.after_of_ticks_eq_zero ht)
      cases call with
      | tick m =>
        obtain ⟨due, rest, rfl, hdue, hr, hrest⟩ := h.tick hv m
        have hnow : (due.filter fun r => r.1 + max 1 t.options.delay ≤
            n + t.ticksUndecided (.tick m :: calls)) = due := by
          refine List.filter_eq_self.mpr fun r hmem => ?_
          have := hdue r hmem
          rw [decide_eq_true_eq, hu, Call.ticks]
          omega
        have hmap : due.map (fun r => (some (n + 1), t.answer r.2)) =
            due.map fun r => (some (r.1 + max 1 t.options.delay), t.answer r.2) :=
          List.map_congr_left fun r hmem => by rw [hdue r hmem]
        have hlater := ih hrest
        rw [(t.options_after _).2, answer_after, Nat.add_assoc] at hlater
        rw [answers, hr, List.map_map, requests, List.append_assoc, List.filter_append, hnow,
          List.map_append, ← hmap, hu]
        exact congrArg _ hlater
      | accept | takeOutgoing | afterMove =>
        have hlater := other rfl
        rw [(t.options_after _).2, answer_after, List.append_assoc] at hlater
        rw [answers, lines_of_ticks_eq_zero rfl, requests, hu, Call.ticks, Nat.zero_add]
        exact hlater

end Waits

/-- Whatever is asked of a trial, and in whatever order: the requests that it takes are for one line
after the other, counted modulo 256. Each of them is answered with a message that has the number of
its line and the needles of the pattern, by the tick that is the last of those it has to wait, of
which there is at least one, provided that no verdict comes before; the answers come in the order of
the requests, and there are no others. -/
theorem answers_of_run (s : Setup) (o : TrialOptions) (calls : List Call) :
    let t := begin s o
    let wait := max 1 o.delay
    (t.requests 0 calls).map Prod.snd =
        (List.range (t.requests 0 calls).length).map UInt8.ofNat ∧
      t.answers 0 calls =
        ((t.requests 0 calls).filter fun r => r.1 + wait ≤ t.ticksUndecided calls).map fun r =>
          (some (r.1 + wait),
            Message.cnfLine r.2 0 0 (LineBitmap.ofCells o.pattern.cells s.start s.stop)) := by
  intro t wait
  constructor
  · rw [lines_of_requests]
    exact List.map_congr_left fun j _ => UInt8.zero_add _
  · have ha := (Waits.initial s o).answers_eq calls
    rw [List.nil_append, Nat.zero_add] at ha
    exact ha

end KnitBench.Trial
