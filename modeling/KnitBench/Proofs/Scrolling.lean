import Mathlib.Data.List.DropRight
import Mathlib.Data.List.Infix
import KnitBench.Panel
import KnitBench.Traffic
import KnitBench.Proofs.Text.Bytes

/-! Lines that scroll: a line of some width shows the last characters of its fill and all that has
been added to it since. So do the record of messages and the history of the beeper, to which the
refreshed display adds blanks while the beeper is silent. -/

namespace KnitBench

namespace Text.Rolling

variable {width : Nat} {r : Rolling width}

/-- What is added to a line at once. -/
inductive Addition
  | byte (c : UInt8)
  | text (t : String)

/-- The bytes of an addition. -/
def Addition.bytes : Addition → List UInt8
  | byte c => [c]
  | text t => t.toUTF8.toList

def add (r : Rolling width) : Addition → Rolling width
  | .byte c => r.push c
  | .text t => r.pushText t

/-- A line filled with one character, after all that has been added to it. -/
def scrolled (width : Nat) (fill : UInt8) (added : List Addition) : Rolling width :=
  added.foldl add (filled width fill)

theorem chars_push_suffix (r : Rolling width) (c : UInt8) :
    (r.push c).chars <:+ r.chars ++ [c] := by
  refine List.suffix_append_self_iff.mpr ?_
  split
  · exact List.drop_suffix 1 r.chars
  · exact List.suffix_refl r.chars

/-- A line shows nothing but the end of what has come to it, whatever its width. -/
theorem chars_pushAll_suffix (r : Rolling width) (cs : List UInt8) :
    (r.pushAll cs).chars <:+ r.chars ++ cs := by
  induction cs generalizing r with
  | nil => exact (List.append_nil r.chars).symm ▸ List.suffix_refl r.chars
  | cons c cs ih =>
    have hc : (r.push c).chars ++ cs <:+ r.chars ++ [c] ++ cs :=
      List.suffix_append_self_iff.mpr (chars_push_suffix r c)
    rw [List.append_assoc] at hc
    exact (ih (r.push c)).trans hc

theorem length_pushAll (h : r.chars.length = width) (hw : 0 < width) (cs : List UInt8) :
    (r.pushAll cs).chars.length = width := by
  induction cs generalizing r with
  | nil => exact h
  | cons c cs ih => exact ih (length_push h hw c)

/-- A full line shows the last `width` characters of what has come to it. -/
theorem chars_pushAll (h : r.chars.length = width) (hw : 0 < width) (cs : List UInt8) :
    (r.pushAll cs).chars = (r.chars ++ cs).rtake width := by
  -- An end of a list is told by its length alone.
  have hs := List.suffix_iff_eq_drop.mp (chars_pushAll_suffix r cs)
  rwa [length_pushAll h hw] at hs

theorem add_eq (r : Rolling width) (a : Addition) : r.add a = r.pushAll a.bytes := by
  cases a <;> rfl

theorem chars_scrolled (hw : 0 < width) (fill : UInt8) (added : List Addition) :
    (scrolled width fill added).chars =
      (List.replicate width fill ++ added.flatMap Addition.bytes).rtake width := by
  have hall (r : Rolling width) : added.foldl add r = r.pushAll (added.flatMap Addition.bytes) := by
    rw [pushAll, List.foldl_flatMap]
    exact congrArg (List.foldl · r added) (funext₂ add_eq)
  rw [scrolled, hall, chars_pushAll (length_filled fill) hw]
  rfl

/-- The same line as text, one character for each byte. -/
theorem toList_text_scrolled (hw : 0 < width) (fill : UInt8) (added : List Addition) :
    (scrolled width fill added).text.toList =
      (List.replicate width (Char.ofNat fill.toNat) ++
        added.flatMap fun a => (ofBytes a.bytes).toList).rtake width := by
  rw [text, toList_ofBytes, chars_scrolled hw]
  simp only [toList_ofBytes, List.rtake, List.map_drop, List.map_append, List.map_replicate,
    List.map_flatMap, List.length_append, List.length_replicate, List.length_flatMap,
    List.length_map]

theorem last?_push (r : Rolling width) (c : UInt8) : (r.push c).last? = some c :=
  List.getLast?_concat

end Text.Rolling

/-! ### The record of messages -/

namespace Traffic

open Text

/-- The record after all the messages that have been added to it. -/
def recorded (messages : List (Heading × List UInt8)) : Traffic :=
  messages.foldl (fun t m => t.record m.1 m.2) blank

theorem ascii_byteForm (b : UInt8) : ∀ c ∈ byteForm b, c < 0x80 := by
  have hdigit : ∀ n < 16, UInt8.ofNat (hexDigit n).toNat < 0x80 := by decide
  have hb := b.toNat_lt
  intro c hc
  unfold byteForm at hc
  split at hc
  · rename_i hprint
    rw [List.mem_singleton.mp hc]
    exact UInt8.lt_of_le_of_lt hprint.2 (by decide)
  · simp only [hexDigits, List.map_cons, List.map_nil, List.mem_cons, List.not_mem_nil,
      or_false] at hc
    rcases hc with rfl | rfl | rfl
    · decide
    · exact hdigit _ (by omega)
    · exact hdigit _ (by omega)

theorem ascii_messageForm (heading : Heading) (message : List UInt8) :
    ∀ c ∈ messageForm heading message, c < 0x80 := by
  intro c hc
  simp only [messageForm, List.mem_cons, List.mem_append, List.mem_flatMap, List.not_mem_nil,
    or_false] at hc
  rcases hc with rfl | rfl | ⟨b, -, hc⟩ | rfl
  · cases heading <;> decide
  · decide
  · exact ascii_byteForm b c hc
  · decide

/-- A message is recorded by adding its text. -/
theorem line_record (t : Traffic) (heading : Heading) (message : List UInt8) :
    (t.record heading message).line = t.line.pushText (messageText heading message) := by
  rw [Rolling.pushText, messageText, toUTF8_ofBytes (ascii_messageForm heading message)]
  rfl

theorem line_recorded (messages : List (Heading × List UInt8)) :
    (recorded messages).line =
      Rolling.scrolled 110 0x20 (messages.map fun m => .text (messageText m.1 m.2)) := by
  rw [Rolling.scrolled, List.foldl_map]
  exact (List.foldl_hom line fun t m => (line_record t m.1 m.2).symm).symm

theorem text_recorded (messages : List (Heading × List UInt8)) :
    (recorded messages).text.toList =
      (List.replicate 110 ' ' ++
        messages.flatMap fun m => (messageText m.1 m.2).toList).rtake 110 := by
  have htext (m : Heading × List UInt8) :
      ofBytes (Rolling.Addition.text (messageText m.1 m.2)).bytes = messageText m.1 m.2 :=
    congrArg ofBytes (toUTF8_ofBytes (ascii_messageForm m.1 m.2))
  rw [text, line_recorded, Rolling.toList_text_scrolled (by decide), List.flatMap_map]
  simp only [htext]
  rfl

end Traffic

/-! ### The history of the beeper -/

namespace Panel

open Text

variable {p : Panel} {latest : UInt8}

/-- What is done to the indicators. -/
inductive Use
  | beep (duty : UInt8)
  | refresh
  | switch (index : UInt8) (on : Bool)

def use (p : Panel) : Use → Panel
  | .beep duty => p.beep duty
  | .refresh => p.refreshed
  | .switch index on => p.setLamp index on

/-- The indicators after all that has been done to them. -/
def used (uses : List Use) : Panel := uses.foldl use powerOn

/-- The symbols that come to the history after the symbol `latest`: one for each duty, and another
blank for each refresh while the latest symbol is a blank. -/
def symbols : (latest : UInt8) → List Use → List UInt8
  | _, [] => []
  | _, .beep duty :: uses => beeperSymbol duty :: symbols (beeperSymbol duty) uses
  | latest, .refresh :: uses =>
    if latest = 0x20 then 0x20 :: symbols latest uses else symbols latest uses
  | latest, .switch .. :: uses => symbols latest uses

theorem beeper_setLamp (p : Panel) (index : UInt8) (on : Bool) :
    (p.setLamp index on).beeper = p.beeper := by
  unfold setLamp
  split
  · rfl
  · split <;> rfl

/-- However much of the past has gone from the line, it shows the latest symbol, and no more than
that decides what a refresh does. -/
theorem beeper_foldl_use (h : p.beeper.last? = some latest) (uses : List Use) :
    (uses.foldl use p).beeper =
      ((symbols latest uses).map Rolling.Addition.byte).foldl Rolling.add p.beeper := by
  induction uses generalizing p latest with
  | nil => rfl
  | cons u uses ih =>
    cases u with
    | beep duty => exact ih (p := p.beep duty) (Rolling.last?_push p.beeper _)
    | refresh =>
      rw [List.foldl_cons, symbols]
      by_cases hl : latest = 0x20
      · -- The blank that is added leaves a blank the latest symbol.
        subst hl
        rw [if_pos rfl, use, refreshed, if_pos h]
        exact ih (p := { p with beeper := p.beeper.push 0x20 }) (Rolling.last?_push p.beeper _)
      · have hs : p.beeper.last? ≠ some 0x20 := fun hs => hl (Option.some.inj (h.symm.trans hs))
        rw [if_neg hl, use, refreshed, if_neg hs]
        exact ih h
    | switch index on =>
      have hb := beeper_setLamp p index on
      rw [List.foldl_cons, symbols, ← hb]
      exact ih (by rw [use, hb, h])

theorem text_used (uses : List Use) :
    (used uses).beeper.text.toList =
      (List.replicate 16 '_' ++ (ofBytes (symbols 0x5F uses)).toList).rtake 16 := by
  have hbeeper : (used uses).beeper =
      Rolling.scrolled 16 0x5F ((symbols 0x5F uses).map Rolling.Addition.byte) :=
    beeper_foldl_use rfl uses
  rw [hbeeper, Rolling.toList_text_scrolled (by decide), List.flatMap_map]
  simp only [Rolling.Addition.bytes, toList_ofBytes, List.map_singleton, ← List.map_eq_flatMap]
  rfl

end Panel

open Text in
/-- A line holds the last characters of its fill followed by everything added to it, oldest first.
So the record shows the last 110 characters of blanks followed by the texts of all messages, and the
history of the beeper the last 16 of underscores followed by the symbols recorded, with another
blank for each refresh while the latest symbol was a blank. -/
theorem lines_hold_last :
    (∀ (width : Nat) (fill : UInt8) (added : List Rolling.Addition), 0 < width →
      (Rolling.scrolled width fill added).chars =
        (List.replicate width fill ++ added.flatMap Rolling.Addition.bytes).rtake width) ∧
    (∀ messages : List (Heading × List UInt8),
      (Traffic.recorded messages).text.toList =
        (List.replicate 110 ' ' ++
          messages.flatMap fun m => (Traffic.messageText m.1 m.2).toList).rtake 110) ∧
    ∀ uses : List Panel.Use,
      (Panel.used uses).beeper.text.toList =
        (List.replicate 16 '_' ++ (ofBytes (Panel.symbols 0x5F uses)).toList).rtake 16 :=
  ⟨fun _ fill added hw => Rolling.chars_scrolled hw fill added, Traffic.text_recorded,
    Panel.text_used⟩

/-- A letter, and a text of four more. -/
def fiveLetters : List Text.Rolling.Addition := [.byte 0x61, .text "bcde"]

open Text.Rolling in
theorem lines_hold_last_narrow :
    0 < 3 ∧ (scrolled 3 0x20 fiveLetters).chars = [0x63, 0x64, 0x65] ∧
      (scrolled 3 0x20 fiveLetters).chars =
        (List.replicate 3 0x20 ++ fiveLetters.flatMap Addition.bytes).rtake 3 :=
  ⟨by decide, by decide +kernel, lines_hold_last.1 3 0x20 fiveLetters (by decide)⟩

end KnitBench
