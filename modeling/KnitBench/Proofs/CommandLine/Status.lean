import KnitBench.CommandLine.Report
import KnitBench.Proofs.Bench.Replay
import KnitBench.Proofs.CommandLine.Reading

/-! The exit status. It tells a trial that passed and a script replayed to its end from a protocol
fault, and both from everything else. Help that a command line begins with counts as a success. Help
behind a command shows the same text, and counts as a failure. -/

namespace KnitBench.CommandLine

open Bench ReferenceController Trial

variable {readScript : String → Except String String} {args ws : List String} {o : Options}
  {path : String} {s : Setup} {tracing : Bool} {cues : List Cue} {r : Run ReferenceController}

/-- Words are read as options, and some of them are left to the command. -/
def Asks (ws : List String) (o : Options) (plain : List String) : Prop :=
  ∃ ps, ws = Phrase.allWords ps ∧ Phrase.setAll ps {} = some o ∧ Phrase.plainWords ps = plain

/-- Help is what a command line begins with. -/
def HelpFirst (args : List String) : Prop := ∃ w rest, args = w :: rest ∧ asksForHelp w = true

/-- Help is asked for behind a command, with nothing wrong before it. -/
def HelpAmong (args : List String) : Prop :=
  ∃ command ws o plain w later, (command = "test" ∨ command = "replay") ∧
    args = command :: (ws ++ w :: later) ∧ Asks ws o plain ∧ asksForHelp w = true

/-- A command line has a trial run. -/
def TestRuns (args : List String) (r : Run ReferenceController) : Prop :=
  ∃ ws o s options, args = "test" :: ws ∧ Asks ws o [] ∧ o.request.build = .ok s ∧
    TrialOptions.build o.pattern o.expected none = .ok options ∧
    r = runTrial s options o.trace { threshold := some o.threshold }

/-- A command line has the cues of a script replayed. -/
def ReplayRuns (readScript : String → Except String String) (args : List String) (s : Setup)
    (tracing : Bool) (cues : List Cue) (r : Run ReferenceController) : Prop :=
  ∃ ws o path source, args = "replay" :: ws ∧ Asks ws o [path] ∧ o.request.build = .ok s ∧
    o.trace = tracing ∧ readScript path = .ok source ∧ Script.cues source = .ok cues ∧
    r = replay s cues tracing { threshold := some o.threshold }

/-! What a command line is read as. -/

theorem asks_iff {plain : List String} :
    Asks ws o plain ↔ readOptions ws {} = .ok (plain, o) := readOptions_eq_ok_iff.symm

theorem read_test (ws : List String) :
    Invocation.read ("test" :: ws) = (readOptions ws {}).bind fun
      | ([], o) => .ok (.test o)
      | (word :: _, _) => .error (.unexpectedArgument word) := by
  rw [Invocation.read, if_neg (by decide), if_pos rfl]
  rfl

theorem read_replay (ws : List String) :
    Invocation.read ("replay" :: ws) = (readOptions ws {}).bind fun
      | ([], _) => .error .missingScript
      | ([script], o) => .ok (.replay script o)
      | _ => .error .severalScripts := by
  rw [Invocation.read, if_neg (by decide), if_neg (by decide), if_pos rfl]
  rfl

theorem read_of_helpFirst (h : HelpFirst args) : Invocation.read args = .ok .help := by
  obtain ⟨w, rest, rfl, hh⟩ := h
  rw [Invocation.read, if_pos hh]

theorem read_of_helpAmong (h : HelpAmong args) :
    Invocation.read args = .error .helpAmongOptions := by
  obtain ⟨command, ws, o, plain, w, later, hc, rfl, ⟨ps, rfl, hps, -⟩, hh⟩ := h
  have hr : readOptions (Phrase.allWords ps ++ w :: later) {} = .error .helpAmongOptions :=
    readOptions_eq_help_iff.mpr ⟨ps, o, w, later, rfl, hps, hh⟩
  rcases hc with rfl | rfl
  · rw [read_test, hr]
    rfl
  · rw [read_replay, hr]
    rfl

theorem read_of_asks_test (h : Asks ws o []) :
    Invocation.read ("test" :: ws) = .ok (.test o) := by
  rw [read_test, asks_iff.mp h]
  rfl

theorem read_of_asks_replay (h : Asks ws o [path]) :
    Invocation.read ("replay" :: ws) = .ok (.replay path o) := by
  rw [read_replay, asks_iff.mp h]
  rfl

/-- A command line begins with help, asks for a trial or a replay, or is refused. -/
theorem read_cases (args : List String) :
    HelpFirst args ∨ (∃ ws o, args = "test" :: ws ∧ Asks ws o []) ∨
      (∃ ws o path, args = "replay" :: ws ∧ Asks ws o [path]) ∨
      ∃ e, Invocation.read args = .error e := by
  match args with
  | [] => exact Or.inr (Or.inr (Or.inr ⟨_, rfl⟩))
  | command :: ws =>
    by_cases hh : asksForHelp command = true
    · exact Or.inl ⟨command, ws, rfl, hh⟩
    refine Or.inr ?_
    by_cases ht : command = "test"
    · subst ht
      match hr : readOptions ws {} with
      | .ok ([], o) => exact Or.inl ⟨ws, o, rfl, asks_iff.mpr hr⟩
      | .ok (_ :: _, _) | .error _ => exact Or.inr (Or.inr ⟨_, by rw [read_test, hr]; rfl⟩)
    by_cases hp : command = "replay"
    · subst hp
      match hr : readOptions ws {} with
      | .ok ([path], o) => exact Or.inr (Or.inl ⟨ws, o, path, rfl, asks_iff.mpr hr⟩)
      | .ok ([], _) | .ok (_ :: _ :: _, _) | .error _ =>
        exact Or.inr (Or.inr ⟨_, by rw [read_replay, hr]; rfl⟩)
    · refine Or.inr (Or.inr ⟨.unknownCommand command, ?_⟩)
      rw [Invocation.read, if_neg hh, if_neg ht, if_neg hp]

/-! What it comes to. -/

theorem report_of_helpFirst (h : HelpFirst args) :
    report readScript args = { status := 0, out := usage ++ "\n" } := by
  rw [report, read_of_helpFirst h]
  rfl

theorem report_of_helpAmong (h : HelpAmong args) :
    report readScript args = { status := 1, out := usage ++ "\n" } := by
  rw [report, read_of_helpAmong h]
  rfl

theorem status_of_refused {e : UsageError} (h : Invocation.read args = .error e) :
    (report readScript args).status = 1 := by
  rw [report, h]
  cases e <;> rfl

theorem status_of_testRuns (h : TestRuns args r) :
    (report readScript args).status = exitStatus r.result := by
  obtain ⟨ws, o, s, options, rfl, ha, hs, ho, rfl⟩ := h
  rw [report, read_of_asks_test ha]
  simp only [Invocation.report, trialReport, hs, ho]
  split <;> rename_i hr <;> rw [hr]

/-- A trial that is asked for is run, or the failure is told without a run. -/
theorem testRuns_or_status (readScript : String → Except String String) (ha : Asks ws o []) :
    (∃ r, TestRuns ("test" :: ws) r) ∨ (report readScript ("test" :: ws)).status = 1 := by
  rw [report, read_of_asks_test ha]
  simp only [Invocation.report, trialReport]
  cases hs : o.request.build with
  | error e => exact Or.inr rfl
  | ok s =>
    cases ho : TrialOptions.build o.pattern o.expected none with
    | error e => exact Or.inr rfl
    | ok options => exact Or.inl ⟨_, ws, o, s, options, rfl, ha, hs, ho, rfl⟩

/-- A replay gets to its end: no fault ends it before, and every cue has been obeyed. -/
theorem result_of_replayRuns (h : ReplayRuns readScript args s tracing cues r) :
    r.result = .ok .running ∧ r.bench.queue.cues = [] ∧ Shows s tracing cues r.bench := by
  obtain ⟨ws, o, path, source, -, -, -, -, -, -, rfl⟩ := h
  obtain ⟨j, b, journal, hf, hr, hq⟩ := (Replaying.initial s tracing).exists_feed (by decide) cues
    { threshold := some o.threshold }
  have he : replay s cues tracing { threshold := some o.threshold } =
    ⟨.ok .running, b, journal⟩ := hf
  rw [he]
  exact ⟨rfl, hq, hr.shows⟩

theorem status_of_replayRuns (h : ReplayRuns readScript args s tracing cues r) :
    (report readScript args).status = 0 := by
  obtain ⟨hr, -, -⟩ := result_of_replayRuns h
  obtain ⟨ws, o, path, source, rfl, ha, hs, rfl, hsource, hcues, rfl⟩ := h
  rw [report, read_of_asks_replay ha]
  simp only [Invocation.report, replayReport, hs, hsource, hcues, hr]

/-- A script that is to be replayed is replayed, or the failure is told without a run. -/
theorem replayRuns_or_status (readScript : String → Except String String)
    (ha : Asks ws o [path]) :
    (∃ s tracing cues r, ReplayRuns readScript ("replay" :: ws) s tracing cues r) ∨
      (report readScript ("replay" :: ws)).status = 1 := by
  rw [report, read_of_asks_replay ha]
  simp only [Invocation.report, replayReport]
  cases hs : o.request.build with
  | error e => exact Or.inr rfl
  | ok s =>
    cases hsource : readScript path with
    | error e => exact Or.inr rfl
    | ok source =>
      dsimp only
      cases hcues : Script.cues source with
      | error e => exact Or.inr rfl
      | ok cues =>
        exact Or.inl ⟨s, o.trace, cues, _,
          ws, o, path, source, rfl, ha, hs, rfl, hsource, hcues, rfl⟩

theorem exitStatus_cases (result : Except ProtocolFault Status) :
    (exitStatus result = 0 ∧ ∃ rows, result = .ok (.finished (.passed rows))) ∨
      exitStatus result = 1 ∨ (exitStatus result = 2 ∧ ∃ fault, result = .error fault) := by
  match result with
  | .ok (.finished (.passed rows)) => exact Or.inl ⟨rfl, rows, rfl⟩
  | .ok (.finished (.mismatched _)) | .ok (.finished (.stalled _)) => exact Or.inr (Or.inl rfl)
  | .ok .running | .ok .halted => exact Or.inr (Or.inl rfl)
  | .error fault => exact Or.inr (Or.inr ⟨rfl, fault, rfl⟩)

/-- What a command line comes to, by its status. -/
inductive Ending (readScript : String → Except String String) (args : List String) : UInt8 → Prop
  | help (h : HelpFirst args) : Ending readScript args 0
  | passed {r : Run ReferenceController} {rows : Nat} (h : TestRuns args r)
      (hr : r.result = .ok (.finished (.passed rows))) : Ending readScript args 0
  | replayed {s : Setup} {tracing : Bool} {cues : List Cue} {r : Run ReferenceController}
      (h : ReplayRuns readScript args s tracing cues r) : Ending readScript args 0
  | failed : Ending readScript args 1
  | faulted {r : Run ReferenceController} {fault : ProtocolFault} (h : TestRuns args r)
      (hr : r.result = .error fault) : Ending readScript args 2

theorem ending (readScript : String → Except String String) (args : List String) :
    Ending readScript args (report readScript args).status := by
  rcases read_cases args with h | ⟨ws, o, rfl, ha⟩ | ⟨ws, o, path, rfl, ha⟩ | ⟨e, he⟩
  · rw [report_of_helpFirst h]
    exact .help h
  · rcases testRuns_or_status readScript ha with ⟨r, hr⟩ | hs
    · rw [status_of_testRuns hr]
      rcases exitStatus_cases r.result with ⟨hs, rows, hp⟩ | hs | ⟨hs, fault, hf⟩
      · exact hs ▸ .passed hr hp
      · exact hs ▸ .failed
      · exact hs ▸ .faulted hr hf
    · exact hs ▸ .failed
  · rcases replayRuns_or_status readScript ha with ⟨s, tracing, cues, r, hr⟩ | hs
    · exact status_of_replayRuns hr ▸ .replayed hr
    · exact hs ▸ .failed
  · exact status_of_refused he ▸ .failed

/-- The status of a command line is 0 exactly if it begins with help, has a trial run that passes,
or has a script replayed to its end. It is 2 exactly if a run ends in a fault, and otherwise 1: so
it is for help behind a command, though this is answered with the same text as help in front. -/
theorem status_report (readScript : String → Except String String) (args : List String) :
    ((report readScript args).status = 0 ↔ HelpFirst args ∨
      (∃ r rows, TestRuns args r ∧ r.result = .ok (.finished (.passed rows))) ∨
      ∃ s tracing cues r, ReplayRuns readScript args s tracing cues r ∧ r.result = .ok .running ∧
        r.bench.queue.cues = [] ∧ Shows s tracing cues r.bench) ∧
    ((report readScript args).status = 2 ↔ ∃ r fault, (TestRuns args r ∨
      ∃ s tracing cues, ReplayRuns readScript args s tracing cues r) ∧ r.result = .error fault) ∧
    (report readScript args).status ∈ [0, 1, 2] ∧
    (HelpAmong args →
      report readScript args = { status := 1, out := (report readScript ["--help"]).out }) := by
  have hend := ending readScript args
  refine ⟨⟨fun h0 => ?_, ?_⟩, ⟨fun h2 => ?_, ?_⟩, ?_, fun h => report_of_helpAmong h⟩
  · generalize (report readScript args).status = n at hend h0
    cases hend with
    | help h => exact Or.inl h
    | passed h hr => exact Or.inr (Or.inl ⟨_, _, h, hr⟩)
    | replayed h => exact Or.inr (Or.inr ⟨_, _, _, _, h, result_of_replayRuns h⟩)
    | failed | faulted => exact absurd h0 (by decide)
  · rintro (h | ⟨r, rows, h, hr⟩ | ⟨s, tracing, cues, r, h, -⟩)
    · exact congrArg Report.status (report_of_helpFirst h)
    · refine (status_of_testRuns h).trans ?_
      rw [hr]
      rfl
    · exact status_of_replayRuns h
  · generalize (report readScript args).status = n at hend h2
    cases hend with
    | faulted h hr => exact ⟨_, _, Or.inl h, hr⟩
    | help | passed | replayed | failed => exact absurd h2 (by decide)
  · rintro ⟨r, fault, h | ⟨s, tracing, cues, h⟩, hr⟩
    · refine (status_of_testRuns h).trans ?_
      rw [hr]
      rfl
    · rw [(result_of_replayRuns h).1] at hr
      cases hr
  · generalize (report readScript args).status = n at hend
    cases hend <;> decide

/-- Help behind a command is no success. -/
theorem status_test_help :
    let args := ["test", "--help"]
    let r := report (fun _ => .ok "") args
    HelpAmong args ∧ r.out = usage ++ "\n" ∧ r.err = "" ∧ r.status ≠ 0 := by
  refine ⟨⟨"test", [], {}, [], "--help", [], Or.inl rfl, rfl, ⟨[], rfl, rfl, rfl⟩, by decide⟩, ?_⟩
  exact ⟨rfl, rfl, by decide⟩

end KnitBench.CommandLine
