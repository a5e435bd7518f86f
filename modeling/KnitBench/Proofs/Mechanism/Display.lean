import KnitBench.Mechanism.Display
import KnitBench.Proofs.Mechanism.Travel
import KnitBench.Proofs.Text.Reading

/-! The display of the bed: four lines, in which the needle row stands between its margins, and
below it the marks of carriage and selector. The rails keep the carriage on the display, so needles
and carriage can be read off it. -/

namespace KnitBench

theorem Needle.char_injective : Function.Injective Needle.char := by
  intro a b h
  cases a <;> cases b <;> first | rfl | cases h

namespace Mechanism

variable {s : Setup} {m m' : Mechanism} {bed marks : List Char}

/-- What can become of the mechanism of a setup. -/
inductive Reachable (s : Setup) : Mechanism → Prop
  | initial : Reachable s (initial s)
  | latch {m : Mechanism} (r : Register) (h : Reachable s m) : Reachable s (m.latch r)
  | move {m : Mechanism} (d : Direction) (h : Reachable s m) : Reachable s (m.move d)
  | refreshed {m : Mechanism} (h : Reachable s m) : Reachable s m.refreshed

namespace Reachable

theorem setup_eq (h : Reachable s m) : m.setup = s := by
  induction h with
  | initial => rfl
  | latch _ _ ih | move _ _ ih | refreshed _ ih => exact ih

theorem aligned (h : Reachable s m) : m.Aligned := by
  induction h with
  | initial => exact aligned_initial s
  | latch r _ ih => exact aligned_latch ih r
  | move d _ ih => exact aligned_move ih d
  | refreshed _ ih => exact aligned_shown ih false

end Reachable

/-- Two rows of characters picture a mechanism: the needle row between two blank margins, and a row
of marks. The carriage always has its mark, and only one. The selector has one if it is on display
and not where the carriage is. Elsewhere the row of marks is blank. -/
structure Pictures (m : Mechanism) (bed marks : List Char) : Prop where
  bed_eq : bed =
    List.replicate 28 ' ' ++ m.needles.toList.map Needle.char ++ List.replicate 28 ' '
  carriage : ∃ c : Nat, (c : Int) = m.position + 28 ∧ ∀ i, marks[i]? = some '^' ↔ i = c
  selector : 'x' ∈ marks ↔
    (-28 ≤ m.selected ∧ m.selected < m.setup.model.needleCount + 28) ∧ m.selected ≠ m.position
  selector_at : ∀ i : Nat, marks[i]? = some 'x' → (i : Int) = m.selected + 28
  blank : ∀ i < marks.length, (i : Int) ≠ m.position + 28 → (i : Int) ≠ m.selected + 28 →
    marks[i]? = some ' '

/-- A picture tells the needles and the place of the carriage. -/
theorem Pictures.unique (h : m.Pictures bed marks) (h' : m'.Pictures bed marks) :
    m'.needles = m.needles ∧ m'.position = m.position := by
  constructor
  · have hbed := h'.bed_eq.symm.trans h.bed_eq
    have hrow := List.append_cancel_left (List.append_cancel_right hbed)
    exact Array.toList_inj.mp ((List.map_inj_right Needle.char_injective).mp hrow)
  · obtain ⟨c, hc, hmark⟩ := h.carriage
    obtain ⟨c', hc', hmark'⟩ := h'.carriage
    have hcc : c = c' := (hmark' c).mp ((hmark c).mpr rfl)
    omega

/-! ### The rows -/

theorem toNat_margin : margin.toNat = 28 := rfl

theorem columns_eq (m : Mechanism) : m.columns = m.setup.model.needleCount + 56 := rfl

theorem columns_eq_two_mul (m : Mechanism) : m.columns = 2 * m.halfColumns := by
  unfold columns halfColumns
  cases m.setup.model <;> rfl

theorem length_bedRow (m : Mechanism) : m.bedRow.length = m.columns := by
  simp [bedRow]

theorem length_markRow (m : Mechanism) : m.markRow.length = m.columns := by
  simp [markRow]

theorem getElem?_bedRow (m : Mechanism) (i : Nat) :
    m.bedRow[i]? = if i < m.columns then some (m.bedChar i) else none := by
  by_cases hi : i < m.columns <;> simp [bedRow, hi]

theorem getElem?_markRow_eq_some (m : Mechanism) (i : Nat) (c : Char) :
    m.markRow[i]? = some c ↔ i < m.columns ∧ m.markChar i = c := by
  by_cases hi : i < m.columns <;> simp [markRow, hi]

/-- Left margin, bed and right margin. -/
theorem bedRow_eq (h : m.needles.size = m.setup.model.needleCount) :
    m.bedRow =
      List.replicate 28 ' ' ++ m.needles.toList.map Needle.char ++ List.replicate 28 ' ' := by
  apply List.ext_getElem?
  intro i
  simp only [getElem?_bedRow, columns_eq, bedChar, toNat_margin, ← h, List.append_assoc,
    List.getElem?_append, List.getElem?_replicate, List.getElem?_map, List.length_replicate,
    List.length_map, Array.length_toList, Array.getElem?_toList]
  -- A column is left of the bed, on it, right of it, or off the display.
  grind

theorem markChar_cases (m : Mechanism) (i : Nat) :
    (m.markChar i = '^' ∧ (i : Int) = m.position + 28) ∨
      (m.markChar i = 'x' ∧ (i : Int) = m.selected + 28 ∧ (i : Int) ≠ m.position + 28) ∨
      (m.markChar i = ' ' ∧ (i : Int) ≠ m.selected + 28 ∧ (i : Int) ≠ m.position + 28) := by
  unfold markChar margin
  split
  · rename_i hp
    exact Or.inl ⟨rfl, hp.symm⟩
  · rename_i hp
    split
    · rename_i hs
      exact Or.inr (Or.inl ⟨rfl, hs.symm, Ne.symm hp⟩)
    · rename_i hs
      exact Or.inr (Or.inr ⟨rfl, Ne.symm hs, Ne.symm hp⟩)

theorem markChar_eq_caret (m : Mechanism) (i : Nat) :
    m.markChar i = '^' ↔ (i : Int) = m.position + 28 := by
  rcases m.markChar_cases i with ⟨h, hi⟩ | ⟨h, -, hi⟩ | ⟨h, -, hi⟩ <;> simp [h, hi]

theorem markChar_eq_cross (m : Mechanism) (i : Nat) :
    m.markChar i = 'x' ↔ (i : Int) = m.selected + 28 ∧ (i : Int) ≠ m.position + 28 := by
  rcases m.markChar_cases i with ⟨h, hi⟩ | ⟨h, hi, hp⟩ | ⟨h, hi, hp⟩ <;> simp_all

/-- Between the rails the carriage is on display. -/
theorem pictures_rows (h : m.Aligned) : m.Pictures m.bedRow m.markRow where
  bed_eq := bedRow_eq h.size_needles
  carriage := by
    obtain ⟨hl, hr⟩ := h.position_bounds
    refine ⟨(m.position + 28).toNat, by omega, ?_⟩
    intro i
    rw [getElem?_markRow_eq_some, markChar_eq_caret, columns_eq]
    omega
  selector := by
    rw [List.mem_iff_getElem?]
    constructor
    · rintro ⟨i, hi⟩
      rw [getElem?_markRow_eq_some, markChar_eq_cross, columns_eq] at hi
      omega
    · rintro ⟨⟨hl, hr⟩, hne⟩
      refine ⟨(m.selected + 28).toNat, ?_⟩
      rw [getElem?_markRow_eq_some, markChar_eq_cross, columns_eq]
      omega
  selector_at := by
    intro i hi
    rw [getElem?_markRow_eq_some, markChar_eq_cross] at hi
    exact hi.2.1
  blank := by
    intro i hi hp hs
    rw [getElem?_markRow_eq_some]
    refine ⟨m.length_markRow ▸ hi, ?_⟩
    rcases m.markChar_cases i with ⟨-, he⟩ | ⟨-, he, -⟩ | ⟨hc, -⟩
    · exact absurd he hp
    · exact absurd he hs
    · exact hc

/-! ### The display -/

theorem lineFeed_notMem_bedRow (m : Mechanism) : '\n' ∉ m.bedRow := by
  have hchar (k : Needle) : k.char ≠ '\n' := by cases k <;> decide
  intro h
  obtain ⟨i, -, hi⟩ := List.mem_map.mp h
  unfold bedChar at hi
  split at hi
  · cases hi
  · cases hk : m.needles[i - margin.toNat]? with
    | none =>
      rw [hk] at hi
      cases hi
    | some k =>
      rw [hk] at hi
      exact hchar k hi

theorem lineFeed_notMem_markRow (m : Mechanism) : '\n' ∉ m.markRow := by
  intro h
  obtain ⟨i, -, hi⟩ := List.mem_map.mp h
  rcases m.markChar_cases i with ⟨hc, -⟩ | ⟨hc, -⟩ | ⟨hc, -⟩ <;> rw [hc] at hi <;> cases hi

theorem lines_bedDisplay (m : Mechanism) :
    Text.lines m.bedDisplay =
      ["<- ".toList ++ m.bedRow.take m.halfColumns,
        "   ".toList ++ m.markRow.take m.halfColumns,
        "-> ".toList ++ m.bedRow.drop m.halfColumns,
        "   ".toList ++ m.markRow.drop m.halfColumns] := by
  apply Text.lines_of_intercalate
  · simp [bedDisplay, List.intercalate]
  · simp
  · have hbed := m.lineFeed_notMem_bedRow
    have hmarks := m.lineFeed_notMem_markRow
    have htake {row : List Char} (h : '\n' ∉ row) (n : Nat) : '\n' ∉ row.take n :=
      fun ht => h (List.mem_of_mem_take ht)
    have hdrop {row : List Char} (h : '\n' ∉ row) (n : Nat) : '\n' ∉ row.drop n :=
      fun hd => h (List.mem_of_mem_drop hd)
    simp [htake hbed, htake hmarks, hdrop hbed, hdrop hmarks]

/-- Under one setup the display tells the rows. -/
theorem rows_of_bedDisplay (hs : m'.setup = m.setup) (h : m'.bedDisplay = m.bedDisplay) :
    m'.bedRow = m.bedRow ∧ m'.markRow = m.markRow := by
  have hhalf : m'.halfColumns = m.halfColumns := by rw [halfColumns, halfColumns, hs]
  have hlines := m.lines_bedDisplay
  rw [← h, m'.lines_bedDisplay, hhalf] at hlines
  simp only [List.cons.injEq, List.append_cancel_left_eq, and_true] at hlines
  obtain ⟨hbed, hmarks, hbed', hmarks'⟩ := hlines
  constructor
  · rw [← List.take_append_drop m.halfColumns m'.bedRow, hbed, hbed', List.take_append_drop]
  · rw [← List.take_append_drop m.halfColumns m'.markRow, hmarks, hmarks', List.take_append_drop]

/-- Whatever has become of a mechanism, its bed is displayed on four lines: behind a prefix of three
characters, each shows half of a row. Both halves of the bed and of the marks picture the mechanism,
and so the display tells needles and carriage. -/
theorem bedDisplay_pictures (h : Reachable s m) :
    (∃ bed marks bed' marks' : List Char,
      Text.lines m.bedDisplay =
        ["<- ".toList ++ bed, "   ".toList ++ marks, "-> ".toList ++ bed', "   ".toList ++ marks'] ∧
      (∀ row ∈ [bed, marks, bed', marks'], row.length = s.model.needleCount / 2 + 28) ∧
      m.Pictures (bed ++ bed') (marks ++ marks')) ∧
    ∀ m', Reachable s m' → m'.bedDisplay = m.bedDisplay →
      m'.needles = m.needles ∧ m'.position = m.position := by
  have hsetup := h.setup_eq
  have hpictures := pictures_rows h.aligned
  constructor
  · refine ⟨_, _, _, _, m.lines_bedDisplay, ?_, ?_⟩
    · have hcolumns := m.columns_eq_two_mul
      have hhalf : m.halfColumns = s.model.needleCount / 2 + 28 := by
        rw [halfColumns, hsetup, toNat_margin]
      intro row hrow
      simp only [List.mem_cons, List.not_mem_nil, or_false] at hrow
      rcases hrow with rfl | rfl | rfl | rfl <;>
        simp only [List.length_take, List.length_drop, length_bedRow, length_markRow] <;> omega
    · rwa [List.take_append_drop, List.take_append_drop]
  · intro m' h' hdisplay
    obtain ⟨hbed, hmarks⟩ := rows_of_bedDisplay (h'.setup_eq.trans hsetup.symm) hdisplay
    have hpictures' := pictures_rows h'.aligned
    rw [hbed, hmarks] at hpictures'
    exact hpictures.unique hpictures'

/-- One quarter to the left of its first place the knit carriage is in column 3 of the display, with
its selector in column 27. -/
theorem bedDisplay_pictures_leftward :
    Reachable .standard ((initial .standard).move .left) ∧
      (∃ bed marks bed' marks' : List Char,
        Text.lines ((initial .standard).move .left).bedDisplay =
          ["<- ".toList ++ bed, "   ".toList ++ marks, "-> ".toList ++ bed',
            "   ".toList ++ marks'] ∧
        (∀ row ∈ [bed, marks, bed', marks'], row.length = 128) ∧
        (marks ++ marks')[3]? = some '^' ∧ (marks ++ marks')[27]? = some 'x') ∧
      (((initial .standard).move .left).latch 0xFFFF).bedDisplay =
        ((initial .standard).move .left).bedDisplay ∧
      (((initial .standard).move .left).latch 0xFFFF).position =
        ((initial .standard).move .left).position := by
  have hm : Reachable .standard ((initial .standard).move .left) := .move .left .initial
  have hp : ((initial .standard).move .left).position = -25 := by decide
  have hs : ((initial .standard).move .left).selected = -1 := by decide
  have h := bedDisplay_pictures hm
  obtain ⟨bed, marks, bed', marks', hlines, hlength, hpictures⟩ := h.1
  refine ⟨hm, ⟨bed, marks, bed', marks', hlines, hlength, ?_, ?_⟩, rfl,
    (h.2 _ (.latch 0xFFFF hm) rfl).2⟩
  · obtain ⟨c, hc, hmark⟩ := hpictures.carriage
    exact (hmark 3).mpr (by omega)
  · have hx : 'x' ∈ marks ++ marks' := hpictures.selector.mpr (by rw [hp, hs]; decide)
    obtain ⟨i, hi⟩ := List.mem_iff_getElem?.mp hx
    have hcolumn := hpictures.selector_at i hi
    have h27 : i = 27 := by omega
    exact h27 ▸ hi

end Mechanism

end KnitBench
