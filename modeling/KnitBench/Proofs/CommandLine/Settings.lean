import Mathlib.Data.List.Induction
import Mathlib.Data.List.Rotate
import KnitBench.Proofs.CommandLine.Reading

/-! What the options of a command line come to. Of each setting the last value counts, and flags
count wherever they stand, so that only the order of the other words and of the values of one
setting matters. Of several offences the first counts. -/

namespace KnitBench.CommandLine

namespace Phrase

variable {p : Phrase} {ps qs : List Phrase} {s : Setting} {text : String}

/-- The text that a phrase gives to a setting. -/
def text? (s : Setting) : Phrase → Option String
  | setting s' text => if s' = s then some text else none
  | trace => none
  | verbose => none
  | plain _ => none

/-- The texts given to a setting, in order. -/
def texts (s : Setting) (ps : List Phrase) : List String := ps.filterMap (text? s)

/-- The value given to a setting last. -/
def latest? (s : Setting) (ps : List Phrase) : Option s.Value :=
  (texts s ps).getLast?.bind fun text => (s.parse text).toOption

def isTrace : Phrase → Bool
  | trace => true
  | verbose => false
  | setting .. => false
  | plain _ => false

def isVerbose : Phrase → Bool
  | verbose => true
  | trace => false
  | setting .. => false
  | plain _ => false

/-- The options that phrases come to. -/
def told (ps : List Phrase) : Options where
  request := {
    model := (latest? .machine ps).getD .kh910
    carriage := latest? .carriage ps
    belt := (latest? .belt ps).getD .regular
    side := (latest? .side ps).getD .left
    start := latest? .start ps
    stop := latest? .stop ps }
  pattern := latest? .pattern ps
  expected := latest? .expected ps
  trace := ps.any isTrace
  verbosity := min 255 (ps.countP isVerbose)

theorem texts_concat (s : Setting) (ps : List Phrase) (p : Phrase) :
    texts s (ps ++ [p]) = texts s ps ++ (p.text? s).toList := by
  rw [texts, List.filterMap_append]
  cases h : p.text? s <;> simp [texts, h]

/-- A phrase that gives a setting a value has the last word. -/
theorem latest?_concat_setting {v : s.Value} (h : s.parse text = .ok v) (ps : List Phrase) :
    latest? s (ps ++ [setting s text]) = some v := by
  have ht : (setting s text).text? s = some text := if_pos rfl
  rw [latest?, texts_concat, ht, Option.toList_some, List.getLast?_concat, Option.bind_some, h]
  rfl

theorem latest?_concat_of_none (h : p.text? s = none) (ps : List Phrase) :
    latest? s (ps ++ [p]) = latest? s ps := by
  rw [latest?, texts_concat, h, Option.toList_none, List.append_nil, latest?]

/-- What one more phrase sets. -/
theorem set_told (h : p.WellFormed) (ps : List Phrase) :
    p.set (told ps) = some (told (ps ++ [p])) := by
  have kept (hp : ∀ s, p.text? s = none) (s : Setting) : latest? s (ps ++ [p]) = latest? s ps :=
    latest?_concat_of_none (hp s) ps
  cases p with
  | trace => simp [set, told, kept fun _ => rfl, isTrace, isVerbose]
  | verbose =>
    have hv : min 255 (min 255 (ps.countP isVerbose) + 1) = min 255 (ps.countP isVerbose + 1) := by
      omega
    simp [set, told, kept fun _ => rfl, isTrace, isVerbose, hv]
  | plain word =>
    rw [set, if_neg h]
    simp [told, kept fun _ => rfl, isTrace, isVerbose]
  | setting s text =>
    obtain ⟨v, hv⟩ := h
    rw [set_setting hv]
    -- each setting leaves the values of the seven others as they are
    cases s <;>
      simp [told, Setting.put, latest?_concat_setting hv, latest?_concat_of_none, text?, isTrace,
        isVerbose]

theorem setAll_told (h : ∀ p ∈ ps, p.WellFormed) : setAll ps {} = some (told ps) := by
  induction ps using List.reverseRecOn with
  | nil => rfl
  | append_singleton ps p ih =>
    obtain ⟨hps, hp⟩ := List.forall_mem_append.mp h
    rw [setAll_append, ih hps, Option.bind_some, setAll, set_told (hp p List.mem_cons_self)]
    rfl

/-- Only the order of the texts of one setting matters. -/
theorem told_of_perm (h : ps.Perm qs) (hs : ∀ s, texts s ps = texts s qs) : told ps = told qs := by
  have hl (s : Setting) : latest? s ps = latest? s qs := by rw [latest?, hs, latest?]
  simp only [told, hl, h.any_eq, h.countP_eq]

end Phrase

open Phrase

variable {ps qs : List Phrase} {s : Setting} {text : String}

theorem readOptions_of_wellFormed (h : ∀ p ∈ ps, p.WellFormed) :
    readOptions (allWords ps) {} = .ok (plainWords ps, told ps) :=
  readOptions_eq_ok_iff.mpr ⟨ps, rfl, setAll_told h, rfl⟩

theorem wellFormed_of_set {p : Phrase} {o o₁ : Options} (h : p.set o = some o₁) :
    p.WellFormed := by
  cases p with
  | trace | verbose => trivial
  | plain word => exact (of_set_plain h).1
  | setting s text =>
    have hr := read_of_set h
    rw [s.read_eq] at hr
    cases hp : s.parse text with
    | ok v => exact ⟨v, hp⟩
    | error e =>
      rw [hp] at hr
      cases hr

theorem wellFormed_of_setAll {o o₁ : Options} (h : setAll ps o = some o₁) :
    ∀ p ∈ ps, p.WellFormed := by
  induction ps generalizing o with
  | nil => nofun
  | cons p ps ih =>
    obtain ⟨o₂, hp, hps⟩ := Option.bind_eq_some_iff.mp h
    exact List.forall_mem_cons.mpr ⟨wellFormed_of_set hp, ih hps⟩

/-- Words are read as options exactly if they fall into phrases that are in order, and then the
words of no option are left to the command, of each setting the last value counts, and flags count
wherever they stand. So the phrases may stand in any order that keeps the words left to the command
and the texts of each setting in order. Words are refused exactly for what offends first behind
phrases that are in order. A setting takes the next word as its value, whatever it looks like. -/
theorem readOptions_told_iff (args : List String) :
    (∀ words o, readOptions args {} = .ok (words, o) ↔
      ∃ ps, args = allWords ps ∧ (∀ p ∈ ps, p.WellFormed) ∧ plainWords ps = words ∧
        told ps = o) ∧
    (∀ ps qs, args = allWords ps → (∀ p ∈ ps, p.WellFormed) → ps.Perm qs →
      plainWords ps = plainWords qs → (∀ s, texts s ps = texts s qs) →
        readOptions (allWords qs) {} = readOptions args {}) ∧
    (∀ e, readOptions args {} = .error e ↔
      ∃ ps rest, args = allWords ps ++ rest ∧ (∀ p ∈ ps, p.WellFormed) ∧ Offends rest e) ∧
    ∀ (s : Setting) text rest o, args = s.word :: text :: rest →
      readOptions args o = (s.apply text o).bind (readOptions rest) := by
  refine ⟨?_, ?_, fun e => readOptions_eq_error_iff, ?_⟩
  · intro words o
    rw [readOptions_eq_ok_iff]
    constructor
    · rintro ⟨ps, rfl, hps, rfl⟩
      have hw := wellFormed_of_setAll hps
      rw [setAll_told hw] at hps
      exact ⟨ps, rfl, hw, rfl, Option.some.inj hps⟩
    · rintro ⟨ps, rfl, hw, rfl, rfl⟩
      exact ⟨ps, rfl, setAll_told hw, rfl⟩
  · rintro ps qs rfl hw hperm hplain htexts
    have hw' : ∀ q ∈ qs, q.WellFormed := fun q hq => hw q (hperm.mem_iff.mpr hq)
    rw [readOptions_of_wellFormed hw, readOptions_of_wellFormed hw', hplain,
      told_of_perm hperm htexts]
  · rintro s text rest o rfl
    exact readOptions_setting s text rest o

/-- A needle that is given twice, a script, and help as the text of a pattern. -/
def repeated : List Phrase :=
  [.setting .start "+5", .verbose, .setting .start "7", .plain "a.txt", .setting .pattern "--help"]

theorem wellFormed_repeated : ∀ p ∈ repeated, p.WellFormed := by
  have five : ∃ n, Setting.start.parse "+5" = .ok n := ⟨5, by rfl⟩
  have seven : ∃ n, Setting.start.parse "7" = .ok n := ⟨7, by rfl⟩
  have help : ∃ text, Setting.pattern.parse "--help" = .ok text := ⟨"--help", rfl⟩
  have script : "a.txt".toList.head? ≠ some '-' := by decide
  intro p hp
  rcases hp with _ | ⟨_, _ | ⟨_, _ | ⟨_, _ | ⟨_, _ | ⟨_, hp⟩⟩⟩⟩⟩
  · exact five
  · trivial
  · exact seven
  · exact script
  · exact help
  · cases hp

/-- The script and the pattern may stand in front. -/
theorem readOptions_told_iff_rotate :
    ((∀ p ∈ repeated, p.WellFormed) ∧ repeated.Perm (repeated.rotate 3) ∧
      plainWords repeated = plainWords (repeated.rotate 3) ∧
      ∀ s, texts s repeated = texts s (repeated.rotate 3)) ∧
    readOptions ["a.txt", "--pattern", "--help", "--start", "+5", "-v", "--start", "7"] {} =
      readOptions ["--start", "+5", "-v", "--start", "7", "a.txt", "--pattern", "--help"] {} ∧
    readOptions ["--start", "+5", "-v", "--start", "7", "a.txt", "--pattern", "--help"] {} =
      .ok (["a.txt"], {
        request := { start := some 7 }, pattern := some "--help", verbosity := 1 }) := by
  have hperm : repeated.Perm (repeated.rotate 3) := (List.rotate_perm repeated 3).symm
  have htexts : ∀ s, texts s repeated = texts s (repeated.rotate 3) := by
    intro s
    cases s <;> rfl
  refine ⟨⟨wellFormed_repeated, hperm, rfl, htexts⟩, ?_, ?_⟩
  · exact (readOptions_told_iff _).2.1 repeated (repeated.rotate 3) rfl wellFormed_repeated hperm
      rfl htexts
  · exact ((readOptions_told_iff _).1 _ _).mpr ⟨repeated, rfl, wellFormed_repeated, rfl, rfl⟩

end KnitBench.CommandLine
