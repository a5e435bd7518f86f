import KnitBench.Proofs.Text.Reading
import KnitBench.Script
import Mathlib.Data.List.Forall2

/-! The language of replay scripts. Each line gives cues or offends, by its words alone. A script is
read exactly when none of its lines offends, and else refused for the first one that does. -/

namespace KnitBench.Script

/-- The commands that take a count. -/
inductive Moves : String → Cue.Action → Prop
  | right : Moves "right" .moveRight
  | left : Moves "left" .moveLeft

/-- The commands that stand alone. -/
inductive Stands : String → Cue.Action → Prop
  | reset : Stands "reset" .reset
  | trace : Stands "trace" .toggleTrace

/-- The words of a line give cues. -/
inductive Gives : List String → List Cue → Prop
  | blank : Gives [] []
  | move {word numeral action n} (hm : Moves word.toLower action) (hs : Text.Spells numeral n)
      (hn : n < countBound) : Gives [word, numeral] (List.replicate n ⟨action, 0⟩)
  | stand {word action} (hs : Stands word.toLower action) : Gives [word] [⟨action, 0⟩]

/-- The words of a line offend. Of several offences the one farthest to the left counts. -/
inductive Offends : List String → Offence → Prop
  | unknown {word rest} (hm : ∀ action, ¬ Moves word.toLower action)
      (hs : ∀ action, ¬ Stands word.toLower action) :
      Offends (word :: rest) (.unknownCommand word)
  | uncounted {word action} (hm : Moves word.toLower action) :
      Offends [word] (.missingCount word.toLower)
  | miscounted {word numeral action rest} (hm : Moves word.toLower action)
      (hn : ∀ n, Text.Spells numeral n → countBound ≤ n) :
      Offends (word :: numeral :: rest) (.invalidCount numeral)
  | moveTrailed {word numeral action n extra rest} (hm : Moves word.toLower action)
      (hs : Text.Spells numeral n) (hn : n < countBound) :
      Offends (word :: numeral :: extra :: rest) (.trailingArgument extra)
  | standTrailed {word action extra rest} (hs : Stands word.toLower action) :
      Offends (word :: extra :: rest) (.trailingArgument extra)

/-- The words of a line, without its comment. -/
def lineWords (line : List Char) : List String := Text.words (line.takeWhile (· != '#'))

/-- The cues of several commands. -/
def cuesOf (commands : List Command) : List Cue := commands.flatMap Command.cues

/-! ### One line -/

variable {word : String} {ws : List String} {given : List Cue} {e : Offence}
  {action : Cue.Action}

theorem readWords_of_moves (h : Moves word.toLower action) (rest : List String) :
    readWords (word :: rest) = (readMove word.toLower action rest).map some := by
  simp only [readWords]
  generalize word.toLower = w at h ⊢
  cases h <;> rfl

theorem readWords_of_stands (h : Stands word.toLower action) (rest : List String) :
    readWords (word :: rest) = (endOfLine ⟨1, action⟩ rest).map some := by
  simp only [readWords]
  generalize word.toLower = w at h ⊢
  cases h <;> rfl

theorem readWords_of_unknown (hm : ∀ action, ¬ Moves word.toLower action)
    (hs : ∀ action, ¬ Stands word.toLower action) (rest : List String) :
    readWords (word :: rest) = .error (.unknownCommand word) := by
  simp only [readWords]
  generalize word.toLower = w at hm hs ⊢
  split
  · exact absurd .right (hm _)
  · exact absurd .left (hm _)
  · exact absurd .reset (hs _)
  · exact absurd .trace (hs _)
  · rfl

theorem readNumeral_count {numeral : String} {n : Nat} (hs : Text.Spells numeral n)
    (hn : n < countBound) : Text.readNumeral countBound numeral = .ok n :=
  (Text.readNumeral_eq_ok_iff (by decide)).mpr ⟨hs, hn⟩

theorem readWords_of_gives (h : Gives ws given) :
    ∃ command?, readWords ws = .ok command? ∧ cuesOf command?.toList = given := by
  cases h with
  | blank => exact ⟨none, rfl, rfl⟩
  | @move word numeral action n hm hs hn =>
    refine ⟨some ⟨n, action⟩, ?_, List.flatMap_singleton _ _⟩
    rw [readWords_of_moves hm, readMove, readNumeral_count hs hn]
    rfl
  | @stand word action hs =>
    refine ⟨some ⟨1, action⟩, ?_, List.flatMap_singleton _ _⟩
    rw [readWords_of_stands hs]
    rfl

theorem readWords_of_offends (h : Offends ws e) : readWords ws = .error e := by
  cases h with
  | unknown hm hs => exact readWords_of_unknown hm hs _
  | uncounted hm =>
    rw [readWords_of_moves hm]
    rfl
  | @miscounted word numeral action rest hm hn =>
    rw [readWords_of_moves hm, readMove]
    cases hr : Text.readNumeral countBound numeral with
    | error => rfl
    | ok n =>
      obtain ⟨hs, hlt⟩ := (Text.readNumeral_eq_ok_iff (by decide)).mp hr
      exact absurd (hn n hs) (Nat.not_le.mpr hlt)
  | moveTrailed hm hs hn =>
    rw [readWords_of_moves hm, readMove, readNumeral_count hs hn]
    rfl
  | standTrailed hs =>
    rw [readWords_of_stands hs]
    rfl

/-- A line gives cues or offends. -/
theorem gives_or_offends (ws : List String) : (∃ given, Gives ws given) ∨ ∃ e, Offends ws e := by
  match ws with
  | [] => exact Or.inl ⟨_, .blank⟩
  | word :: rest =>
    by_cases hm : ∃ action, Moves word.toLower action
    · obtain ⟨action, hm⟩ := hm
      match rest with
      | [] => exact Or.inr ⟨_, .uncounted hm⟩
      | numeral :: rest =>
        by_cases hn : ∃ n, Text.Spells numeral n ∧ n < countBound
        · obtain ⟨n, hs, hn⟩ := hn
          match rest with
          | [] => exact Or.inl ⟨_, .move hm hs hn⟩
          | extra :: rest => exact Or.inr ⟨_, .moveTrailed hm hs hn⟩
        · refine Or.inr ⟨_, .miscounted hm fun n hs => ?_⟩
          exact Nat.not_lt.mp fun hlt => hn ⟨n, hs, hlt⟩
    · by_cases hs : ∃ action, Stands word.toLower action
      · obtain ⟨action, hs⟩ := hs
        match rest with
        | [] => exact Or.inl ⟨_, .stand hs⟩
        | extra :: rest => exact Or.inr ⟨_, .standTrailed hs⟩
      · exact Or.inr ⟨_, .unknown (not_exists.mp hm) (not_exists.mp hs)⟩

/-! ### Line after line -/

/-- What lines are read as, the first of which has a given number. -/
def cuesFrom (n : Nat) (lines : List (List Char)) : Except Error (List Cue) :=
  (readLines n lines).map cuesOf

/-- Every line gives its cues. -/
def Give (lines : List (List Char)) (all : List (List Cue)) : Prop :=
  List.Forall₂ (fun line given => Gives (lineWords line) given) lines all

/-- The first line that offends, and how. All before it give cues. -/
structure FirstOffence (lines before : List (List Char)) (e : Offence) : Prop where
  line : ∃ line after, lines = before ++ line :: after ∧ Offends (lineWords line) e
  before : ∃ all, Give before all

/-- A refusal, when lines are put in front. -/
def Error.below (k : Nat) (err : Error) : Error := { err with line := k + err.line }

variable {n k : Nat} {line : List Char} {lines before : List (List Char)} {cs : List Cue}
  {all : List (List Cue)} {err : Error}

theorem cuesFrom_cons_of_gives (h : Gives (lineWords line) given) (n : Nat)
    (rest : List (List Char)) :
    cuesFrom n (line :: rest) = (cuesFrom (n + 1) rest).map (given ++ ·) := by
  obtain ⟨command?, hr, rfl⟩ := readWords_of_gives h
  have hl : readLine line = .ok command? := hr
  unfold cuesFrom
  rw [readLines, hl]
  cases readLines (n + 1) rest with
  | error err => rfl
  | ok commands => exact congrArg Except.ok List.flatMap_append

theorem cuesFrom_cons_of_offends (h : Offends (lineWords line) e) (n : Nat)
    (rest : List (List Char)) : cuesFrom n (line :: rest) = .error ⟨n, e⟩ := by
  have hl : readLine line = .error e := readWords_of_offends h
  rw [cuesFrom, readLines, hl]
  rfl

/-- The lines of two scripts are read one script after the other. -/
theorem cuesFrom_append (n : Nat) (front back : List (List Char)) :
    cuesFrom n (front ++ back) = (do
      let xs ← cuesFrom n front
      let ys ← cuesFrom (n + front.length) back
      return xs ++ ys) := by
  induction front generalizing n with
  | nil =>
    change cuesFrom n back = cuesFrom n back >>= fun ys => pure ([] ++ ys)
    exact (bind_pure _).symm
  | cons line front ih =>
    have hlen : n + (line :: front).length = n + 1 + front.length := by
      rw [List.length_cons]
      omega
    rw [hlen]
    rcases gives_or_offends (lineWords line) with ⟨given, hg⟩ | ⟨e, ho⟩
    · rw [List.cons_append, cuesFrom_cons_of_gives hg, cuesFrom_cons_of_gives hg, ih]
      cases cuesFrom (n + 1) front with
      | error err => rfl
      | ok xs =>
        cases cuesFrom (n + 1 + front.length) back with
        | error err => rfl
        | ok ys => exact congrArg Except.ok (List.append_assoc given xs ys).symm
    · rw [List.cons_append, cuesFrom_cons_of_offends ho, cuesFrom_cons_of_offends ho]
      rfl

/-- A later start only raises the number of the refused line. -/
theorem cuesFrom_add (n k : Nat) (lines : List (List Char)) :
    cuesFrom (k + n) lines = (cuesFrom n lines).mapError (Error.below k) := by
  induction lines generalizing n with
  | nil => rfl
  | cons line rest ih =>
    rcases gives_or_offends (lineWords line) with ⟨given, hg⟩ | ⟨e, ho⟩
    · rw [cuesFrom_cons_of_gives hg, cuesFrom_cons_of_gives hg, Nat.add_assoc, ih]
      cases cuesFrom (n + 1) rest <;> rfl
    · rw [cuesFrom_cons_of_offends ho, cuesFrom_cons_of_offends ho]
      rfl

/-- Lines that all give cues are read as these in order. -/
theorem cuesFrom_of_give (h : Give lines all) (n : Nat) : cuesFrom n lines = .ok all.flatten := by
  induction h generalizing n with
  | nil => rfl
  | cons hl _ ih =>
    rw [cuesFrom_cons_of_gives hl, ih]
    rfl

/-- Lines are refused for the first one that offends. -/
theorem cuesFrom_of_firstOffence (h : FirstOffence lines before e) (n : Nat) :
    cuesFrom n lines = .error ⟨n + before.length, e⟩ := by
  obtain ⟨⟨line, after, rfl, ho⟩, all, ha⟩ := h
  rw [cuesFrom_append, cuesFrom_of_give ha, cuesFrom_cons_of_offends ho]
  rfl

/-- All lines give cues, or one is the first that offends. -/
theorem give_or_firstOffence (lines : List (List Char)) :
    (∃ all, Give lines all) ∨ ∃ before e, FirstOffence lines before e := by
  induction lines with
  | nil => exact Or.inl ⟨[], .nil⟩
  | cons line rest ih =>
    rcases gives_or_offends (lineWords line) with ⟨given, hg⟩ | ⟨e, ho⟩
    · rcases ih with ⟨all, ha⟩ | ⟨before, e, ⟨off, after, rfl, ho⟩, all, ha⟩
      · exact Or.inl ⟨given :: all, .cons hg ha⟩
      · exact Or.inr ⟨line :: before, e, ⟨off, after, rfl, ho⟩, given :: all, .cons hg ha⟩
    · exact Or.inr ⟨[], e, ⟨line, rest, rfl, ho⟩, [], .nil⟩

theorem cuesFrom_eq_ok_iff :
    cuesFrom n lines = .ok cs ↔ ∃ all, Give lines all ∧ cs = all.flatten := by
  constructor
  · intro h
    rcases give_or_firstOffence lines with ⟨all, ha⟩ | ⟨before, e, hf⟩
    · rw [cuesFrom_of_give ha, Except.ok.injEq] at h
      exact ⟨all, ha, h.symm⟩
    · rw [cuesFrom_of_firstOffence hf] at h
      cases h
  · rintro ⟨all, ha, rfl⟩
    exact cuesFrom_of_give ha n

theorem cuesFrom_eq_error_iff :
    cuesFrom n lines = .error err ↔
      ∃ before, FirstOffence lines before err.offence ∧ err.line = n + before.length := by
  constructor
  · intro h
    rcases give_or_firstOffence lines with ⟨all, ha⟩ | ⟨before, e, hf⟩
    · rw [cuesFrom_of_give ha] at h
      cases h
    · rw [cuesFrom_of_firstOffence hf, Except.error.injEq] at h
      subst h
      exact ⟨before, hf, rfl⟩
  · rintro ⟨before, hf, hl⟩
    rw [cuesFrom_of_firstOffence hf, ← hl]

/-! ### A whole script -/

theorem cues_eq (source : String) : cues source = cuesFrom 1 (Text.lines source) := rfl

/-- A script is read exactly when every line gives cues, as these in order. Otherwise it is refused
for its first line that offends. Of two scripts, one below the other, the first is read before the
second, whose lines are counted on. -/
theorem cues_iff_and_append :
    (∀ source cs, cues source = .ok cs ↔
      ∃ all, Give (Text.lines source) all ∧ cs = all.flatten) ∧
    (∀ source err, cues source = .error err ↔
      ∃ before, FirstOffence (Text.lines source) before err.offence ∧
        err.line = before.length + 1) ∧
    ∀ a b, cues (a ++ "\n" ++ b) = (do
      let xs ← cues a
      let ys ← (cues b).mapError (Error.below (Text.lines a).length)
      return xs ++ ys) := by
  refine ⟨fun source cs => cuesFrom_eq_ok_iff, fun source err => ?_, fun a b => ?_⟩
  · rw [cues_eq, cuesFrom_eq_error_iff]
    simp only [Nat.add_comm 1]
  · rw [cues_eq, cues_eq, cues_eq, Text.lines_append, cuesFrom_append, Nat.add_comm 1,
      cuesFrom_add]

end KnitBench.Script
