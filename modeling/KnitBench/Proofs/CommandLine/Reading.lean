import KnitBench.CommandLine.Options

/-! How the words of a command line fall into phrases: a flag by itself, a setting with its value,
and any other word by itself. Options are read exactly when the words are such phrases, and what is
read is what the phrases set one after another. Otherwise the words are refused for the first that
goes on with no phrase. -/

namespace KnitBench.CommandLine

namespace Setting

/-- The values of a setting. -/
@[reducible] def Value : Setting → Type
  | machine => Model
  | carriage => Carriage
  | belt => BeltPhase
  | side => Side
  | start | stop => Nat
  | pattern | expected => String

/-- The value that a text gives to a setting. -/
def parse : (s : Setting) → String → Except ValueError s.Value
  | machine, text => (Model.read text).mapError .name
  | carriage, text => (Carriage.read text).mapError .name
  | belt, text => (BeltPhase.read text).mapError .name
  | side, text => (Side.read text).mapError .name
  | start, text | stop, text => (Text.readNumeral needleBound text).mapError .number
  | pattern, text | expected, text => .ok text

/-- Options with another value of a setting. -/
def put : (s : Setting) → s.Value → Options → Options
  | machine, model, o => { o with request := { o.request with model } }
  | carriage, c, o => { o with request := { o.request with carriage := some c } }
  | belt, b, o => { o with request := { o.request with belt := b } }
  | side, d, o => { o with request := { o.request with side := d } }
  | start, n, o => { o with request := { o.request with start := some n } }
  | stop, n, o => { o with request := { o.request with stop := some n } }
  | pattern, text, o => { o with pattern := some text }
  | expected, text, o => { o with expected := some text }

/-- Whether a text is refused does not depend on what has been read before. -/
theorem read_eq (s : Setting) (text : String) (o : Options) :
    s.read text o = (s.parse text).map fun v => s.put v o := by
  cases s <;> rfl

end Setting

/-- Words of a command line that belong together. -/
inductive Phrase
  | trace
  | verbose
  | setting (s : Setting) (value : String)
  | plain (word : String)

namespace Phrase

def words : Phrase → List String
  | trace => ["--trace"]
  | verbose => ["-v"]
  | setting s value => [s.word, value]
  | plain word => [word]

/-- The word that is left to the command. -/
def plain? : Phrase → Option String
  | plain word => some word
  | trace | verbose | setting .. => none

/-- Options after a phrase, if nothing is wrong with it: the value of a setting can be read, and no
other word looks like an option. -/
def set : Phrase → Options → Option Options
  | trace, o => some { o with trace := true }
  | verbose, o => some { o with verbosity := min 255 (o.verbosity + 1) }
  | setting s value, o => (s.read value o).toOption
  | plain word, o => if word.toList.head? = some '-' then none else some o

/-- Nothing is wrong with a phrase: the value of a setting can be read, and no other word looks like
an option. -/
def WellFormed : Phrase → Prop
  | trace | verbose => True
  | setting s text => ∃ v, s.parse text = .ok v
  | plain word => word.toList.head? ≠ some '-'

/-- Options after several phrases, if nothing is wrong with any of them. -/
def setAll : List Phrase → Options → Option Options
  | [], o => some o
  | p :: ps, o => (p.set o).bind (setAll ps)

/-- The words of several phrases. -/
def allWords (ps : List Phrase) : List String := ps.flatMap words

/-- The words that several phrases leave to the command. -/
def plainWords (ps : List Phrase) : List String := ps.filterMap plain?

variable {p : Phrase} {ps qs : List Phrase} {o o₁ : Options} {s : Setting} {value word : String}

theorem allWords_cons (p : Phrase) (ps : List Phrase) :
    allWords (p :: ps) = p.words ++ allWords ps := List.flatMap_cons

theorem read_of_set (h : (setting s value).set o = some o₁) : s.read value o = .ok o₁ := by
  cases hr : s.read value o with
  | error e => simp [set, hr, Except.toOption] at h
  | ok o' => simpa [set, hr, Except.toOption] using h

theorem of_set_plain (h : (plain word).set o = some o₁) :
    word.toList.head? ≠ some '-' ∧ o = o₁ := by
  by_cases hd : word.toList.head? = some '-'
  · simp [set, hd] at h
  · exact ⟨hd, by simpa [set, hd] using h⟩

theorem set_setting {v : s.Value} (h : s.parse value = .ok v) (o : Options) :
    (setting s value).set o = some (s.put v o) := by
  rw [set, s.read_eq, h]
  rfl

theorem exists_set (h : p.WellFormed) (o : Options) : ∃ o₁, p.set o = some o₁ := by
  cases p with
  | trace | verbose => exact ⟨_, rfl⟩
  | setting s value =>
    obtain ⟨v, hv⟩ := h
    exact ⟨_, set_setting hv o⟩
  | plain word => exact ⟨o, if_neg h⟩

theorem setAll_append (ps qs : List Phrase) (o : Options) :
    setAll (ps ++ qs) o = (setAll ps o).bind (setAll qs) := by
  induction ps generalizing o with
  | nil => rfl
  | cons p ps ih =>
    rw [List.cons_append, setAll, setAll]
    cases p.set o with
    | none => rfl
    | some o₁ => exact ih o₁

theorem exists_setAll (h : ∀ p ∈ ps, p.WellFormed) (o : Options) :
    ∃ o₁, setAll ps o = some o₁ := by
  induction ps generalizing o with
  | nil => exact ⟨o, rfl⟩
  | cons p ps ih =>
    obtain ⟨hp, hps⟩ := List.forall_mem_cons.mp h
    obtain ⟨o₁, ho⟩ := exists_set hp o
    rw [setAll, ho]
    exact ih hps o₁

end Phrase

variable {o o' o₁ : Options} {p : Phrase} {ps : List Phrase} {ws rest plain : List String}
  {w : String} {s : Setting}

theorem Setting.ofWord?_word (s : Setting) : Setting.ofWord? s.word = some s := by
  cases s <;> decide

theorem Setting.word_of_ofWord? (h : Setting.ofWord? w = some s) : s.word = w := by
  have := List.find?_some h
  simpa using this

/-- The word of a setting is no flag. -/
theorem Setting.word_ne (s : Setting) :
    asksForHelp s.word = false ∧ s.word ≠ "--trace" ∧ s.word ≠ "-v" := by
  cases s <;> decide

/-- A word that does not begin as an option does is none. -/
theorem not_option_of_head (h : w.toList.head? ≠ some '-') :
    asksForHelp w = false ∧ w ≠ "--trace" ∧ w ≠ "-v" ∧ Setting.ofWord? w = none := by
  refine ⟨Bool.eq_false_iff.mpr fun hh => ?_, ?_, ?_, ?_⟩
  · simp only [asksForHelp, Bool.or_eq_true, beq_iff_eq] at hh
    rcases hh with rfl | rfl <;> exact h (by decide)
  · rintro rfl
    exact h (by decide)
  · rintro rfl
    exact h (by decide)
  · cases hs : Setting.ofWord? w with
    | none => rfl
    | some s =>
      obtain rfl := Setting.word_of_ofWord? hs
      revert h
      cases s <;> decide

/-- A setting takes the next word as its value, whatever it looks like. -/
theorem readOptions_setting (s : Setting) (text : String) (rest : List String) (o : Options) :
    readOptions (s.word :: text :: rest) o = (s.apply text o).bind (readOptions rest) := by
  obtain ⟨hh, ht, hv⟩ := s.word_ne
  simp only [readOptions, hh, ht, hv, Setting.ofWord?_word, if_false, Bool.false_eq_true]
  rfl

/-- What words are read as when they stand behind a phrase. -/
def Phrase.before (p : Phrase) (r : List String × Options) : List String × Options :=
  (p.plain?.toList ++ r.1, r.2)

/-- A phrase with nothing wrong is read, and the words behind it decide the rest. -/
theorem readOptions_words (h : p.set o = some o₁) (rest : List String) :
    readOptions (p.words ++ rest) o = (readOptions rest o₁).map p.before := by
  have silent (r : Except UsageError (List String × Options)) (hp : p.plain? = none) :
      r = r.map p.before := by
    cases r with
    | error e => rfl
    | ok r => simp [Except.map, Phrase.before, hp]
  cases p with
  | trace | verbose =>
    obtain rfl := Option.some.inj h
    exact silent _ rfl
  | setting s value =>
    have ha : s.apply value o = .ok o₁ := by
      rw [Setting.apply, Phrase.read_of_set h]
      rfl
    rw [Phrase.words, List.cons_append, List.cons_append, readOptions_setting, ha]
    exact silent _ rfl
  | plain word =>
    obtain ⟨hd, rfl⟩ := Phrase.of_set_plain h
    obtain ⟨hh, ht, hv, hs⟩ := not_option_of_head hd
    simp only [Phrase.words, List.cons_append, List.nil_append, readOptions, hh, ht, hv, hs, hd,
      if_false, Bool.false_eq_true]
    cases readOptions rest o <;> rfl

/-- Phrases with nothing wrong are read, and the words behind them decide the rest. -/
theorem readOptions_allWords (h : Phrase.setAll ps o = some o₁) (rest : List String) :
    readOptions (Phrase.allWords ps ++ rest) o =
      (readOptions rest o₁).map fun r => (Phrase.plainWords ps ++ r.1, r.2) := by
  induction ps generalizing o with
  | nil =>
    obtain rfl := Option.some.inj h
    change readOptions rest o = _
    cases readOptions rest o <;> rfl
  | cons p ps ih =>
    obtain ⟨o', hp, hps⟩ := Option.bind_eq_some_iff.mp h
    rw [Phrase.allWords_cons, List.append_assoc, readOptions_words hp, ih hps]
    cases readOptions rest o₁ with
    | error e => rfl
    | ok r => cases p <;> rfl

/-- Words that go on with no phrase that is in order, and what is wrong with them. -/
inductive Offends : List String → UsageError → Prop
  | help {w : String} (rest : List String) (h : asksForHelp w = true) :
      Offends (w :: rest) .helpAmongOptions
  | valueless (s : Setting) : Offends [s.word] (.missingValue s.word)
  | misvalued {s : Setting} {text : String} {e : ValueError} (rest : List String)
      (h : s.parse text = .error e) :
      Offends (s.word :: text :: rest) (.invalidValue s.word e)
  | unknown {w : String} (rest : List String) (hd : w.toList.head? = some '-')
      (hh : asksForHelp w = false) (ht : w ≠ "--trace") (hv : w ≠ "-v")
      (hs : ∀ s : Setting, s.word ≠ w) : Offends (w :: rest) (.unknownOption w)

theorem readOptions_of_offends {e : UsageError} (h : Offends ws e) (o : Options) :
    readOptions ws o = .error e := by
  cases h with
  | help rest h => rw [readOptions, if_pos h]
  | valueless s =>
    obtain ⟨hh, ht, hv⟩ := s.word_ne
    simp only [readOptions, hh, ht, hv, Setting.ofWord?_word, if_false, Bool.false_eq_true]
  | @misvalued s text e rest h =>
    rw [readOptions_setting, Setting.apply, s.read_eq, h]
    rfl
  | @unknown w rest hd hh ht hv hs =>
    have hnone : Setting.ofWord? w = none := by
      cases hw : Setting.ofWord? w with
      | none => rfl
      | some s => exact absurd (Setting.word_of_ofWord? hw) (hs s)
    simp only [readOptions, hh, ht, hv, hnone, hd, if_false, if_true, Bool.false_eq_true]

/-- Words are at their end, go on with a phrase that is in order, or offend. -/
theorem phrase_or_offends (ws : List String) :
    ws = [] ∨ (∃ p rest, ws = Phrase.words p ++ rest ∧ p.WellFormed) ∨ ∃ e, Offends ws e := by
  match ws with
  | [] => exact Or.inl rfl
  | w :: rest =>
    refine Or.inr ?_
    by_cases hh : asksForHelp w = true
    · exact Or.inr ⟨_, .help rest hh⟩
    by_cases ht : w = "--trace"
    · exact Or.inl ⟨.trace, rest, by rw [ht]; rfl, trivial⟩
    by_cases hv : w = "-v"
    · exact Or.inl ⟨.verbose, rest, by rw [hv]; rfl, trivial⟩
    by_cases hs : ∃ s : Setting, s.word = w
    · obtain ⟨s, rfl⟩ := hs
      match rest with
      | [] => exact Or.inr ⟨_, .valueless s⟩
      | text :: rest =>
        cases hp : s.parse text with
        | ok v => exact Or.inl ⟨.setting s text, rest, rfl, v, hp⟩
        | error e => exact Or.inr ⟨_, .misvalued rest hp⟩
    · by_cases hd : w.toList.head? = some '-'
      · exact Or.inr ⟨_, .unknown rest hd (Bool.eq_false_iff.mpr hh) ht hv (not_exists.mp hs)⟩
      · exact Or.inl ⟨.plain w, rest, rfl, hd⟩

/-- Words go on phrase by phrase, until they are at their end or offend. -/
theorem phrases_or_offends (ws : List String) :
    ∃ ps rest, ws = Phrase.allWords ps ++ rest ∧ (∀ p ∈ ps, p.WellFormed) ∧
      (rest = [] ∨ ∃ e, Offends rest e) := by
  -- on the number of words that are left
  induction hn : ws.length using Nat.strongRecOn generalizing ws with
  | ind n ih =>
    rcases phrase_or_offends ws with rfl | ⟨p, rest, rfl, hp⟩ | he
    · exact ⟨[], [], rfl, nofun, Or.inl rfl⟩
    · have hlt : rest.length < n := by
        rw [← hn, List.length_append]
        cases p <;> simp [Phrase.words]
      obtain ⟨ps, later, hw, hps, hend⟩ := ih rest.length hlt rest rfl
      refine ⟨p :: ps, later, ?_, List.forall_mem_cons.mpr ⟨hp, hps⟩, hend⟩
      rw [Phrase.allWords_cons, List.append_assoc, ← hw]
    · exact ⟨[], ws, rfl, nofun, Or.inr he⟩

/-- Words that offend behind phrases in order are refused for that offence. -/
theorem readOptions_error {e : UsageError} (h : ∀ p ∈ ps, Phrase.WellFormed p)
    (he : Offends rest e) (o : Options) :
    readOptions (Phrase.allWords ps ++ rest) o = .error e := by
  obtain ⟨o₁, ho⟩ := Phrase.exists_setAll h o
  rw [readOptions_allWords ho, readOptions_of_offends he]
  rfl

/-- Options are read exactly from phrases with nothing wrong. -/
theorem readOptions_eq_ok_iff :
    readOptions ws o = .ok (plain, o') ↔
      ∃ ps, ws = Phrase.allWords ps ∧ Phrase.setAll ps o = some o' ∧
        Phrase.plainWords ps = plain := by
  constructor
  · intro h
    obtain ⟨ps, rest, rfl, hps, rfl | ⟨e, he⟩⟩ := phrases_or_offends ws
    · obtain ⟨o₁, ho⟩ := Phrase.exists_setAll hps o
      rw [readOptions_allWords ho] at h
      obtain ⟨hp, rfl⟩ := Prod.mk.inj (Except.ok.inj h)
      exact ⟨ps, List.append_nil _, ho, by simpa using hp⟩
    · rw [readOptions_error hps he] at h
      cases h
  · rintro ⟨ps, rfl, hps, rfl⟩
    have h := readOptions_allWords hps []
    rw [List.append_nil] at h
    rw [h]
    simp [readOptions, Except.map]

/-- Words are refused exactly for what offends first behind phrases in order. -/
theorem readOptions_eq_error_iff {e : UsageError} :
    readOptions ws o = .error e ↔
      ∃ ps rest, ws = Phrase.allWords ps ++ rest ∧ (∀ p ∈ ps, p.WellFormed) ∧ Offends rest e := by
  constructor
  · intro h
    obtain ⟨ps, rest, rfl, hps, rfl | ⟨e', he⟩⟩ := phrases_or_offends ws
    · obtain ⟨o₁, ho⟩ := Phrase.exists_setAll hps o
      rw [readOptions_allWords ho] at h
      cases h
    · rw [readOptions_error hps he] at h
      obtain rfl := Except.error.inj h
      exact ⟨ps, rest, rfl, hps, he⟩
  · rintro ⟨ps, rest, rfl, hps, he⟩
    exact readOptions_error hps he o

/-- Help is met exactly behind phrases with nothing wrong. -/
theorem readOptions_eq_help_iff :
    readOptions ws o = .error .helpAmongOptions ↔
      ∃ ps o' w later, ws = Phrase.allWords ps ++ w :: later ∧ Phrase.setAll ps o = some o' ∧
        asksForHelp w = true := by
  constructor
  · intro h
    obtain ⟨ps, rest, rfl, hps, he⟩ := readOptions_eq_error_iff.mp h
    obtain ⟨o₁, ho⟩ := Phrase.exists_setAll hps o
    cases he with
    | help later hh => exact ⟨ps, o₁, _, later, rfl, ho, hh⟩
  · rintro ⟨ps, o', w, later, rfl, hps, hh⟩
    rw [readOptions_allWords hps, readOptions, if_pos hh]
    rfl

end KnitBench.CommandLine
