import Mathlib.Data.List.Induction
import KnitBench.Proofs.Controller.Saying

/-! The sessions of the reference controller, whatever its host sends and whatever else happens to
it: a session begins when a start is accepted and lasts as long as the controller knits, and in it
the controller asks for one line after another. -/

namespace KnitBench.ReferenceController

open Message

variable {c c' : ReferenceController} {x : Stimulus} {n : Nat} {held? : Option Bool}

/-- Something that happens in the knitting of a pattern. -/
inductive Happening
  /-- A start has been accepted. -/
  | started
  | requested (line : UInt8)
  /-- The line asked for has been taken, in place of what was held of it before. -/
  | taken (line : UInt8) (last : Bool)
  /-- The controller knits no longer. -/
  | ended
  deriving DecidableEq

/-- What a message of the controller says of the knitting. -/
def Happening.ofMessage? (message : List UInt8) : Option Happening :=
  if message = cnfStart 0 then some .started
  else match message with
    | code :: line :: _ => if code = Code.reqLine.byte then some (.requested line) else none
    | _ => none

/-- What happens with a stimulus, newest first. -/
def happenings (c : ReferenceController) (x : Stimulus) : List Happening :=
  (if c.mode = .knitting ∧ (c.after x).mode ≠ .knitting then [.ended] else []) ++
    ((c.takes? x).map fun (line, last) => .taken line last).toList ++
    ((c.said x).filterMap Happening.ofMessage?).reverse

/-- The controller after all that has been done to it since power-on, and what has happened in the
meantime, newest first. -/
def run (model : Model) (xs : List Stimulus) : ReferenceController × List Happening :=
  xs.foldl (fun (c, past) x => (c.after x, c.happenings x ++ past)) (powerOn model, [])

/-- The numbers of the lines asked for, newest first. -/
def requests (past : List Happening) : List UInt8 :=
  past.filterMap fun
    | .requested line => some line
    | _ => none

/-- The requests that have not been answered. A line that is sent again answers none. -/
def outstanding : List Happening → Nat
  | [] => 0
  | .requested _ :: past => outstanding past + 1
  | .taken .. :: past => outstanding past - 1
  | .started :: past | .ended :: past => outstanding past

/-- The numbers of the first `n + 1` lines, newest first. -/
def numbers (n : Nat) : List UInt8 := ((List.range (n + 1)).map UInt8.ofNat).reverse

theorem numbers_succ (n : Nat) : numbers (n + 1) = UInt8.ofNat (n + 1) :: numbers n := by
  rw [numbers, List.range_succ, List.map_append, List.reverse_append]
  rfl

/-! ### What can have happened -/

/-- How sessions go. In a session that has asked for line `n` the index is `n` with what is known of
that line: nothing before it is taken, then whether it is the last one. -/
inductive Chronicle : Option (Nat × Option Bool) → List Happening → Prop
  | blank : Chronicle none []
  | started {past : List Happening} (h : Chronicle none past) :
      Chronicle (some (0, none)) (.requested 0 :: .started :: past)
  | taken {n : Nat} {held? : Option Bool} {past : List Happening} (last : Bool)
      (h : Chronicle (some (n, held?)) past) :
      Chronicle (some (n, some last)) (.taken (UInt8.ofNat n) last :: past)
  | requested {n : Nat} {past : List Happening} (h : Chronicle (some (n, some false)) past) :
      Chronicle (some (n + 1, none)) (.requested (UInt8.ofNat (n + 1)) :: past)
  | ended {n : Nat} {held? : Option Bool} {past : List Happening}
      (h : Chronicle (some (n, held?)) past) : Chronicle none (.ended :: past)

variable {past during before : List Happening} {stage : Option (Nat × Option Bool)}

/-- What has happened in a session that has asked for line `n`. -/
structure Session (n : Nat) (held? : Option Bool) (during : List Happening) : Prop where
  started_notMem : .started ∉ during
  ended_notMem : .ended ∉ during
  requests_eq : requests during = numbers n
  outstanding_eq : outstanding during = if held?.isSome then 0 else 1
  held : ∀ last, held? = some last → ∃ earlier, during = .taken (UInt8.ofNat n) last :: earlier

namespace Chronicle

/-- A session under way goes back to its start. -/
theorem exists_session (h : Chronicle (some (n, held?)) past) :
    ∃ during before, past = during ++ .started :: before ∧ Session n held? during := by
  generalize hs : some (n, held?) = stage at h
  induction h generalizing n held? with
  | blank | ended => cases hs
  | @started past =>
    cases hs
    exact ⟨[.requested 0], past, rfl, by decide, by decide, rfl, rfl, nofun⟩
  | taken last _ ih =>
    cases hs
    obtain ⟨during, before, rfl, hd⟩ := ih rfl
    refine ⟨_ :: during, before, rfl, ?_, ?_, hd.requests_eq, ?_, ?_⟩
    · simpa using hd.started_notMem
    · simpa using hd.ended_notMem
    · rw [outstanding, hd.outstanding_eq]
      split <;> rfl
    · rintro last' hl
      cases hl
      exact ⟨during, rfl⟩
  | @requested n past _ ih =>
    cases hs
    obtain ⟨during, before, rfl, hd⟩ := ih rfl
    refine ⟨_ :: during, before, rfl, ?_, ?_, ?_, ?_, nofun⟩
    · simpa using hd.started_notMem
    · simpa using hd.ended_notMem
    · rw [numbers_succ, ← hd.requests_eq]
      rfl
    · rw [outstanding, hd.outstanding_eq]
      rfl

/-- After the newest start a session is under way until it ends. -/
theorem stage_eq (h : Chronicle stage (during ++ .started :: before))
    (hs : .started ∉ during) (he : .ended ∉ during) : ∃ n held?, stage = some (n, held?) := by
  cases stage with
  | some s => exact ⟨s.1, s.2, rfl⟩
  | none =>
    cases during with
    | nil => cases h
    | cons newest during =>
      cases h with
      | ended h => exact absurd List.mem_cons_self he

/-- The newest start is where the session began. -/
theorem during_eq {during' before' : List Happening}
    (h : during ++ .started :: before = during' ++ .started :: before')
    (hs : .started ∉ during) (hs' : .started ∉ during') : during = during' := by
  induction during generalizing during' with
  | nil =>
    cases during' with
    | nil => rfl
    | cons newest during' =>
      obtain ⟨rfl, -⟩ := List.cons.inj h
      exact absurd List.mem_cons_self hs'
  | cons newest during ih =>
    cases during' with
    | nil =>
      obtain ⟨rfl, -⟩ := List.cons.inj h
      exact absurd List.mem_cons_self hs
    | cons newest' during' =>
      obtain ⟨rfl, ht⟩ := List.cons.inj h
      rw [ih ht (fun hm => hs (List.mem_cons_of_mem _ hm))
        fun hm => hs' (List.mem_cons_of_mem _ hm)]

theorem session (h : Chronicle stage (during ++ .started :: before))
    (hs : .started ∉ during) (he : .ended ∉ during) : ∃ n held?, Session n held? during := by
  obtain ⟨n, held?, rfl⟩ := h.stage_eq hs he
  obtain ⟨during', before', hp, hd⟩ := h.exists_session
  rw [during_eq hp hs hd.started_notMem]
  exact ⟨n, held?, hd⟩

/-- After the end of a session nothing happens until the next start. -/
theorem after_ended (h : Chronicle stage past) (hp : past = during ++ .ended :: before)
    (hs : .started ∉ during) : stage = none ∧ during = [] := by
  induction h generalizing during with
  | blank => cases during <;> cases hp
  | started =>
    match during, hp with
    | [_], hp => cases hp
    | _ :: _ :: _, hp =>
      cases hp
      exact absurd (List.mem_cons_of_mem _ List.mem_cons_self) hs
  | taken last h ih | requested h ih =>
    cases during with
    | nil => cases hp
    | cons newest during =>
      obtain ⟨rfl, ht⟩ := List.cons.inj hp
      cases (ih ht fun hm => hs (List.mem_cons_of_mem _ hm)).1
  | ended h ih =>
    cases during with
    | nil => exact ⟨rfl, rfl⟩
    | cons newest during =>
      obtain ⟨rfl, ht⟩ := List.cons.inj hp
      cases (ih ht fun hm => hs (List.mem_cons_of_mem _ hm)).1

end Chronicle

/-! ### The controller -/

/-- How the controller stands after all that has happened. -/
inductive Standing (c : ReferenceController) (past : List Happening) : Prop
  | apart (hm : c.mode ≠ .knitting) (h : Chronicle none past)
  | knitting (n : Nat) (held? : Option Bool) (hm : c.mode = .knitting)
      (hi : c.line.index = UInt8.ofNat n) (hr : c.line.ready = held?.isSome)
      (hl : ∀ last, held? = some last → c.line.last = last)
      (h : Chronicle (some (n, held?)) past)

theorem Happening.ofMessage?_of_plain {m : List UInt8} (h : Plain m) : ofMessage? m = none := by
  unfold ofMessage?
  rw [if_neg h.2]
  split
  · rename_i code line rest _
    exact if_neg fun hc => h.1 (congrArg some hc)
  · rfl

theorem Happening.ofMessage?_reqLine (line : UInt8) :
    ofMessage? (reqLine line) = some (.requested line) := by
  have hne : reqLine line ≠ cnfStart 0 := by
    intro h
    have hb : Code.reqLine.byte = Code.cnfStart.byte := congrArg (fun m => m.headD 0) h
    exact absurd hb (by decide)
  unfold ofMessage?
  rw [if_neg hne]
  rfl

theorem Happening.ofMessage?_cnfStart : ofMessage? (cnfStart 0) = some .started := if_pos rfl

theorem filterMap_ofMessage?_of_plain {ms : List (List UInt8)} (h : ∀ m ∈ ms, Plain m) :
    ms.filterMap Happening.ofMessage? = [] :=
  List.filterMap_eq_nil_iff.mpr fun m hm => Happening.ofMessage?_of_plain (h m hm)

/-- A line that is held and is not the last one stands in a session under way. -/
theorem Standing.holding (h : Standing c past) (hm : c.mode = .knitting)
    (hr : c.line.ready = true) (hl : c.line.last = false) :
    ∃ n, c.line.index = UInt8.ofNat n ∧ c.line.index + 1 = UInt8.ofNat (n + 1) ∧
      Chronicle (some (n, some false)) past := by
  cases h with
  | apart hm₀ => exact absurd hm hm₀
  | knitting n held? _ hi hr₀ hlast h =>
    rw [hr₀] at hr
    obtain ⟨last, rfl⟩ := Option.isSome_iff_exists.mp hr
    rw [hlast last rfl] at hl
    subst hl
    refine ⟨n, hi, ?_, h⟩
    rw [hi, UInt8.ofNat_add]
    rfl

theorem Standing.after (h : Standing c past) (x : Stimulus) :
    Standing (c.after x) (c.happenings x ++ past) := by
  have ht := c.turn_after x
  unfold happenings
  generalize c.after x = c' at ht
  generalize c.said x = ms at ht
  generalize c.takes? x = taken? at ht
  cases ht with
  | quiet hm hl hp =>
    rw [filterMap_ofMessage?_of_plain hp, hm, if_neg fun hk => hk.2 hk.1]
    obtain ⟨worked, hl⟩ := hl
    cases h with
    | apart hm₀ h => exact .apart (by rw [hm]; exact hm₀) h
    | knitting n held? hm₀ hi hr hlast h =>
      exact .knitting n held? (hm.trans hm₀) (by rw [hl]; exact hi) (by rw [hl]; exact hr)
        (by rw [hl]; exact hlast) h
  | rest hm hp =>
    rw [filterMap_ofMessage?_of_plain hp]
    cases h with
    | apart hm₀ h =>
      rw [if_neg fun hk => hm₀ hk.1]
      exact .apart hm h
    | knitting n held? hm₀ hi hr hlast h =>
      rw [if_pos ⟨hm₀, hm⟩]
      exact .apart hm (.ended h)
  | start b hm hm' hl =>
    rw [if_neg fun hk => hm hk.1, List.filterMap_cons_some Happening.ofMessage?_cnfStart,
      List.filterMap_cons_some (Happening.ofMessage?_reqLine 0)]
    cases h with
    | apart hm₀ h =>
      exact .knitting 0 none hm' (by rw [hl]; rfl) (by rw [hl]; rfl) nofun (.started h)
    | knitting _ _ hm₀ => exact absurd hm₀ hm
  | take b last hm hm' hi hr hl =>
    rw [if_neg fun hk => hk.2 hm']
    cases h with
    | apart hm₀ h => exact absurd hm hm₀
    | knitting n held? hm₀ hi₀ hr₀ hlast h =>
      rw [hi₀]
      refine .knitting n (some last) hm' (hi.trans hi₀) hr ?_ (.taken last h)
      rintro last' hl'
      cases hl'
      exact hl
  | ask hm hr hl hm' hi hr' =>
    rw [if_neg fun hk => hk.2 hm', List.filterMap_cons_some (Happening.ofMessage?_reqLine _)]
    obtain ⟨n, -, hnext, h⟩ := h.holding hm hr hl
    rw [hnext]
    exact .knitting (n + 1) none hm' (hi.trans hnext) hr' nofun (.requested h)

theorem run_concat (model : Model) (xs : List Stimulus) (x : Stimulus) :
    run model (xs ++ [x]) =
      ((run model xs).1.after x, (run model xs).1.happenings x ++ (run model xs).2) :=
  List.foldl_append

theorem Standing.run (model : Model) (xs : List Stimulus) :
    Standing (run model xs).1 (run model xs).2 := by
  induction xs using List.reverseRecOn with
  | nil => exact .apart nofun .blank
  | append_singleton xs x ih =>
    rw [run_concat]
    exact ih.after x

theorem Standing.chronicle (h : Standing c past) : ∃ stage, Chronicle stage past := by
  cases h with
  | apart _ h => exact ⟨_, h⟩
  | knitting _ _ _ _ _ _ h => exact ⟨_, h⟩

/-- A slice of time that takes the last line away ends the session, and nothing else happens with
it. -/
theorem happenings_last (hr : c.line.ready = true) (hl : c.line.last = true)
    (hf : (c.after .slice).line.ready = false) : c.happenings .slice = [.ended] := by
  have hm : c.mode = .knitting := by
    rcases c.tracked.value_workLine_cases with ⟨worked, hw⟩ | ⟨hm, -⟩
    · obtain ⟨os, -, hs⟩ := c.exists_value_step
      have hready : (c.after .slice).line.ready = c.line.ready := by
        rw [after, hs, ReferenceController.worked, hw]
        rfl
      rw [hready, hr] at hf
      cases hf
    · exact hm
  have ht := c.turn_after .slice
  unfold happenings
  generalize c.after .slice = c' at ht hf
  generalize c.said .slice = ms at ht
  generalize c.takes? .slice = taken? at ht
  cases ht with
  | quiet _ hline =>
    obtain ⟨worked, hline⟩ := hline
    rw [hline, hr] at hf
    cases hf
  | rest hm' hp =>
    rw [filterMap_ofMessage?_of_plain hp, if_pos ⟨hm, hm'⟩]
    rfl
  | ask _ _ hnot =>
    rw [hl] at hnot
    cases hnot

/-- What has happened is not forgotten. -/
theorem exists_run_append (model : Model) (earlier later : List Stimulus) :
    ∃ during, (run model (earlier ++ later)).2 = during ++ (run model earlier).2 := by
  induction later using List.reverseRecOn with
  | nil => exact ⟨[], by rw [List.append_nil]; rfl⟩
  | append_singleton later x ih =>
    obtain ⟨during, hd⟩ := ih
    rw [← List.append_assoc, run_concat, hd]
    exact ⟨_, (List.append_assoc ..).symm⟩

/-- Whatever bytes the controller receives from power-on, and however slices of time, resets and
other input come between them: whenever it asks for a line, either it has just accepted a start and
asks for line 0, or a slice of time has finished a line that was not the last one. That line was
taken in the same session, after it had been asked for as the newest of the requests 0, 1, 2 and so
on, and the controller asks for the one after it. So in a session no more than one request is
unanswered. When a session has ended, nothing is asked for until the next start is accepted, and a
slice of time that finishes a last line ends the session. Until then a host may still send that line
again without the mark. -/
theorem requests_of_run (model : Model) (xs : List Stimulus) (x : Stimulus) :
    let c := (run model xs).1
    let past := (run model xs).2
    (∀ m ∈ c.said x, m.head? = some Code.reqLine.byte →
      ((∃ b, x = .byte b) ∧ m = reqLine 0 ∧ c.said x = [cnfStart 0, reqLine 0]) ∨
      (x = .slice ∧ c.mode = .knitting ∧ c.line.ready = true ∧ c.line.last = false ∧
        ∃ n earlier before, m = reqLine (UInt8.ofNat (n + 1)) ∧ c.said x = [m] ∧
          c.line.index = UInt8.ofNat n ∧
          past = .taken (UInt8.ofNat n) false :: earlier ++ .started :: before ∧
          .started ∉ earlier ∧ .ended ∉ earlier ∧ requests earlier = numbers n)) ∧
    (∀ during before, past = during ++ .started :: before → .started ∉ during → .ended ∉ during →
      (∃ n, requests during = numbers n) ∧ outstanding during ≤ 1) ∧
    (∀ during before, past = during ++ .ended :: before → .started ∉ during →
      requests during = []) ∧
    ∀ earlier later, xs = earlier ++ .slice :: later →
      let c' := (run model earlier).1
      c'.line.ready = true → c'.line.last = true → (c'.after .slice).line.ready = false →
      ∃ during, past = during ++ .ended :: (run model earlier).2 ∧
        (.started ∉ during → requests during = []) := by
  intro c past
  have hs : Standing c past := .run model xs
  obtain ⟨stage, hc⟩ := hs.chronicle
  have idle {during before : List Happening} (hp : past = during ++ .ended :: before)
      (hsd : .started ∉ during) : requests during = [] := by
    rw [(hc.after_ended hp hsd).2]
    rfl
  refine ⟨?_, ?_, fun during before hp hsd => idle hp hsd, ?_⟩
  · intro m hm hh
    have ht := c.turn_after x
    generalize c.after x = c' at ht
    generalize c.said x = ms at ht hm ⊢
    generalize c.takes? x = taken? at ht
    have plain (hp : ∀ m ∈ ms, Plain m) : False := (hp m hm).1 hh
    cases ht with
    | quiet _ _ hp => exact (plain hp).elim
    | rest _ hp => exact (plain hp).elim
    | start b =>
      left
      rcases List.mem_cons.mp hm with rfl | hm
      · exact absurd (Option.some.inj hh) (by decide)
      · exact ⟨⟨b, rfl⟩, List.mem_singleton.mp hm, rfl⟩
    | take => cases hm
    | ask hk hr hl =>
      right
      obtain ⟨n, hi, hnext, h⟩ := hs.holding hk hr hl
      obtain ⟨during, before, hp, hd⟩ := h.exists_session
      obtain ⟨earlier, rfl⟩ := hd.held false rfl
      rw [hnext] at hm ⊢
      obtain rfl := List.mem_singleton.mp hm
      exact ⟨rfl, hk, hr, hl, n, earlier, before, rfl, rfl, hi, hp,
        fun hmem => hd.started_notMem (List.mem_cons_of_mem _ hmem),
        fun hmem => hd.ended_notMem (List.mem_cons_of_mem _ hmem), hd.requests_eq⟩
  · rintro during before hp hsd hed
    rw [hp] at hc
    obtain ⟨n, held?, hd⟩ := hc.session hsd hed
    refine ⟨⟨n, hd.requests_eq⟩, ?_⟩
    rw [hd.outstanding_eq]
    split <;> decide
  · rintro earlier later rfl c' hr hl hf
    obtain ⟨during, hd⟩ := exists_run_append model (earlier ++ [.slice]) later
    rw [run_concat, happenings_last hr hl hf, List.append_assoc, List.singleton_append] at hd
    exact ⟨during, hd, idle hd⟩

/-- A host that has a line of one needle knitted, up to the move that takes the selector off it. -/
def oneLine (flags : UInt8) : List Stimulus :=
  let host := Wire.frame (reqInit .kh910) ++ Wire.frame (reqStart 23 23 0) ++
    Wire.frame (cnfLine 0 0 flags .blank)
  .raise .hallLeft HallReading.north :: .slice :: host.map .byte ++
    [.raise .encoderV1 1, .slice, .raise .encoderV2 1, .slice, .raise .encoderV1 0, .slice,
      .raise .encoderV2 0, .slice, .raise .encoderV1 1]

theorem requests_of_run_oneLine :
    (reqLine 1 ∈ (run .kh910 (oneLine 0)).1.said .slice ∧
      (reqLine 1).head? = some Code.reqLine.byte ∧
      (run .kh910 (oneLine 0)).1.line.last = false) ∧
    ((run .kh910 (oneLine 0)).2 = [.taken 0 false, .requested 0] ++ [.started] ∧
      outstanding [.taken 0 false, .requested 0] ≤ 1) ∧
    ((run .kh910 (oneLine 0 ++ [.slice, .reset, .slice])).2 =
        [] ++ [.ended, .requested 1, .taken 0 false, .requested 0, .started] ∧
      requests [] = []) ∧
    let c := (run .kh910 (oneLine lastLineFlag)).1
    c.line.ready = true ∧ c.line.last = true ∧ (c.after .slice).line.ready = false ∧
      ∃ during, (run .kh910 (oneLine lastLineFlag ++ [.slice])).2 =
          during ++ .ended :: (run .kh910 (oneLine lastLineFlag)).2 ∧
        (.started ∉ during → requests during = []) := by
  have hsaid : reqLine 1 ∈ (run .kh910 (oneLine 0)).1.said .slice := by decide +kernel
  have hpast : (run .kh910 (oneLine 0)).2 = [.taken 0 false, .requested 0] ++ [.started] := by
    decide +kernel
  have hreset : (run .kh910 (oneLine 0 ++ [.slice, .reset, .slice])).2 =
      [] ++ [.ended, .requested 1, .taken 0 false, .requested 0, .started] := by
    decide +kernel
  have hready : (run .kh910 (oneLine lastLineFlag)).1.line.ready = true := by decide +kernel
  have hlast : (run .kh910 (oneLine lastLineFlag)).1.line.last = true := by decide +kernel
  have hfinished : ((run .kh910 (oneLine lastLineFlag)).1.after .slice).line.ready = false := by
    decide +kernel
  have h := requests_of_run .kh910 (oneLine 0) .slice
  have hend := (requests_of_run .kh910 (oneLine lastLineFlag ++ [.slice]) .slice).2.2.2
  refine ⟨⟨hsaid, rfl, ?_⟩, ⟨hpast, ?_⟩, ⟨hreset, ?_⟩, hready, hlast, hfinished,
    hend _ [] rfl hready hlast hfinished⟩
  · rcases h.1 _ hsaid rfl with ⟨⟨b, hb⟩, -⟩ | ⟨-, -, -, hl, -⟩
    · cases hb
    · exact hl
  · exact (h.2.1 _ _ hpast (by decide) (by decide)).2
  · exact (requests_of_run .kh910 _ .slice).2.2.1 _ _ hreset (by decide)

end KnitBench.ReferenceController
