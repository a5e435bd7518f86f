import KnitBench.Trial.Verdict

/-! How a terminal shows the report of a mismatch: its headline as it is, and both rows with exactly
those characters in reverse video that differ. -/

namespace KnitBench.Trial

variable {m : Mismatch} {cs ours : List Char} {text : String}

/-- What a terminal shows of a text: its characters, each with whether it is in reverse video. -/
def display : Bool → List Char → List (Char × Bool)
  | _, '\x1b' :: '[' :: '7' :: 'm' :: rest => display true rest
  | _, '\x1b' :: '[' :: '0' :: 'm' :: rest => display false rest
  | lit, c :: rest => (c, lit) :: display lit rest
  | _, [] => []

/-- A text of which nothing is in reverse video. -/
def unlit (text : String) : List (Char × Bool) := text.toList.map (·, false)

/-- One text with the characters in reverse video that differ from another text. -/
def contrast (ours theirs : List Char) : List (Char × Bool) :=
  (ours.zip theirs).map fun pair => (pair.1, pair.1 != pair.2)

/-- No character of a text starts a control sequence. -/
def Escapeless (cs : List Char) : Prop := ∀ c ∈ cs, c ≠ '\x1b'

instance : Decidable (Escapeless cs) := List.decidableBAll (· ≠ '\x1b') cs

namespace Mismatch

/-- The first line of a report, and the caption of the row expected. -/
def headline (m : Mismatch) : String :=
  let needles := if m.count = 1 then "needle" else "needles"
  s!"row {m.row} ({m.direction.name}) mismatch at needle {m.needle} " ++
    s!"({m.count} mismatching {needles})" ++
    s!"\n  expected [{m.start}..]: "

/-- The caption of the row as it is. -/
def caption (m : Mismatch) : String := s!"\n  actual   [{m.start}..]: "

theorem text_toList (m : Mismatch) :
    m.text.toList = m.headline.toList ++ (highlight m.expected.toList m.actual.toList ++
      (m.caption.toList ++ highlight m.actual.toList m.expected.toList)) := by
  simp only [text, headline, caption, String.toList_append, List.append_assoc, toString,
    String.toList_ofList]

end Mismatch

/-! ### Texts without escapes -/

theorem escapeless_append {ds : List Char} :
    Escapeless (cs ++ ds) ↔ Escapeless cs ∧ Escapeless ds :=
  List.forall_mem_append

theorem escapeless_nat (n : Nat) : Escapeless (toString n).toList := by
  intro c hc
  change c ∈ (String.ofList (Nat.toDigits 10 n)).toList at hc
  rw [String.toList_ofList] at hc
  have hd : c.isDigit = true := Nat.isDigit_of_mem_toDigits (by decide) (by decide) hc
  rintro rfl
  cases hd

theorem escapeless_rowText (row : List Needle) : Escapeless (Needle.rowText row).toList := by
  intro c hc
  rw [Needle.rowText, String.toList_ofList] at hc
  obtain ⟨needle, -, rfl⟩ := List.mem_map.mp hc
  cases needle <;> decide

theorem escapeless_headline (m : Mismatch) : Escapeless m.headline.toList := by
  have hname : Escapeless m.direction.name.toList := by cases m.direction <;> decide
  have hnoun : Escapeless (if m.count = 1 then "needle" else "needles").toList := by
    split <;> decide
  simp only [Mismatch.headline, String.toList_append, escapeless_append, and_assoc]
  exact ⟨by decide, escapeless_nat _, by decide, hname, by decide, escapeless_nat _, by decide,
    by decide, escapeless_nat _, by decide, hnoun, by decide, by decide, escapeless_nat _,
    by decide⟩

theorem escapeless_caption (m : Mismatch) : Escapeless m.caption.toList := by
  simp only [Mismatch.caption, String.toList_append, escapeless_append, and_assoc]
  exact ⟨by decide, escapeless_nat _, by decide⟩

/-! ### What is shown -/

theorem display_cons {c : Char} (hc : c ≠ '\x1b') (lit : Bool) (rest : List Char) :
    display lit (c :: rest) = (c, lit) :: display lit rest := by
  rw [display]
  · rintro _ rfl
    exact absurd rfl hc
  · rintro _ rfl
    exact absurd rfl hc

theorem display_append (h : Escapeless cs) (lit : Bool) (rest : List Char) :
    display lit (cs ++ rest) = cs.map (·, lit) ++ display lit rest := by
  induction cs with
  | nil => rfl
  | cons c cs ih =>
    obtain ⟨hc, hcs⟩ := List.forall_mem_cons.mp h
    rw [List.cons_append, display_cons hc, ih hcs]
    rfl

/-- Of two texts, one is shown in contrast to the other. -/
theorem display_highlight (h : Escapeless ours) (theirs rest : List Char) :
    display false (highlight ours theirs ++ rest) =
      contrast ours theirs ++ display false rest := by
  induction ours generalizing theirs with
  | nil => rfl
  | cons a ours ih =>
    obtain ⟨ha, hours⟩ := List.forall_mem_cons.mp h
    cases theirs with
    | nil => rfl
    | cons b theirs =>
      by_cases hab : a = b
      · have hsame : (a != b) = false := by rw [hab, bne_self_eq_false]
        have hcons : highlight (a :: ours) (b :: theirs) = a :: highlight ours theirs := by
          simp only [highlight, List.zip_cons_cons, List.flatMap_cons, if_pos hab,
            List.singleton_append]
        rw [hcons, List.cons_append, display_cons ha, ih hours]
        simp only [contrast, List.zip_cons_cons, List.map_cons, hsame, List.cons_append]
      · have hdiffer : (a != b) = true := bne_iff_ne.mpr hab
        have hcons : highlight (a :: ours) (b :: theirs) =
            reverseVideo ++ a :: (plainVideo ++ highlight ours theirs) := by
          simp only [highlight, List.zip_cons_cons, List.flatMap_cons, if_neg hab,
            List.append_assoc, List.cons_append]
        have hlit : display false (reverseVideo ++ a :: (plainVideo ++ highlight ours theirs) ++
            rest) = (a, true) :: display false (highlight ours theirs ++ rest) := by
          change display true (a :: (plainVideo ++ highlight ours theirs ++ rest)) = _
          rw [display_cons ha, List.append_assoc]
          rfl
        rw [hcons, hlit, ih hours]
        simp only [contrast, List.zip_cons_cons, List.map_cons, hdiffer, List.cons_append]

/-- The report of two texts without escapes. -/
theorem display_text (he : Escapeless m.expected.toList) (ha : Escapeless m.actual.toList) :
    display false m.text.toList =
      unlit m.headline ++ contrast m.expected.toList m.actual.toList ++
        unlit m.caption ++ contrast m.actual.toList m.expected.toList := by
  have hlast := display_highlight ha m.expected.toList []
  rw [List.append_nil, display, List.append_nil] at hlast
  rw [Mismatch.text_toList, display_append (escapeless_headline m), display_highlight he,
    display_append (escapeless_caption m), hlast, List.append_assoc, List.append_assoc]
  rfl

end KnitBench.Trial
