import KnitBench.Proofs.Trial.Judgement
import KnitBench.Proofs.Trial.Wording
import Mathlib.Data.Set.Card

/-! The comparison at the end of a pass. It finds fault exactly when a needle of the range is not as
the expected pattern, repeated from the start of the range on, has it. The report tells the first
such needle and how many there are, and shows both rows with these needles in reverse video. -/

namespace KnitBench.Trial

variable {t : Trial} {needles : Array Needle} {m : Mismatch} {o k first : Nat} {rest : List Nat}

/-- A needle of the range is not as expected. -/
def Differs (t : Trial) (needles : Array Needle) (k : Nat) : Prop :=
  t.setup.start ≤ k ∧ k ≤ t.setup.stop ∧
    needles[k]? ≠ t.options.expected.cells[(k - t.setup.start) % t.options.expected.cells.size]?

instance : Decidable (Differs t needles k) := inferInstanceAs (Decidable (_ ∧ _ ∧ _))

/-- The number of needles in the range. -/
def rangeSize (t : Trial) : Nat := t.setup.stop - t.setup.start + 1

/-- For each needle of the range, whether it differs. -/
def faults (t : Trial) (needles : Array Needle) : List Bool :=
  (List.range t.rangeSize).map fun o => decide (Differs t needles (t.setup.start + o))

/-- A report tells what is wrong with needles. -/
structure Reports (t : Trial) (needles : Array Needle) (m : Mismatch) : Prop where
  row : m.row = t.passes
  direction : m.direction = t.passDirection
  start : m.start = t.setup.start
  needle : IsLeast {k | Differs t needles k} m.needle
  count : m.count = {k | Differs t needles k}.ncard
  expected_length : m.expected.toList.length = t.rangeSize
  actual_length : m.actual.toList.length = t.rangeSize
  expected : ∀ k, t.setup.start ≤ k → k ≤ t.setup.stop →
    m.expected.toList[k - t.setup.start]? =
      (t.options.expected.cells[(k - t.setup.start) % t.options.expected.cells.size]?).map
        Needle.char
  actual : ∀ k, t.setup.start ≤ k → k ≤ t.setup.stop →
    m.actual.toList[k - t.setup.start]? = needles[k]?.map Needle.char
  /-- A terminal shows both rows below their captions, -/
  restored : (display false m.text.toList).map Prod.fst =
    (m.headline ++ m.expected ++ m.caption ++ m.actual).toList
  /-- with the needles that differ in reverse video, and nothing else. -/
  highlighted : display false m.text.toList =
    unlit m.headline ++ m.expected.toList.zip (t.faults needles) ++
      unlit m.caption ++ m.actual.toList.zip (t.faults needles)

/-! ### Needles that differ -/

theorem needleAt_eq (p : Pattern) (o : Nat) : p.cells[o % p.cells.size]? = some (p.needleAt o) :=
  Array.getElem?_eq_getElem (Nat.mod_lt o p.size_pos)

theorem differs_iff (ho : o < t.rangeSize) :
    Differs t needles (t.setup.start + o) ↔
      needles[t.setup.start + o]? ≠ some (t.options.expected.needleAt o) := by
  have hle : t.setup.start + o ≤ t.setup.stop := by
    have := t.setup.start_le_stop
    unfold rangeSize at ho
    omega
  rw [Differs, Nat.add_sub_cancel_left, needleAt_eq]
  exact ⟨fun h => h.2.2, fun h => ⟨Nat.le_add_right _ _, hle, h⟩⟩

/-- The needle at an offset in the range. -/
def knitted (t : Trial) (needles : Array Needle) (o : Nat) : Needle :=
  needles[t.setup.start + o]?.getD .idle

theorem getElem?_knitted (h : needles.size = t.setup.model.needleCount) (ho : o < t.rangeSize) :
    needles[t.setup.start + o]? = some (t.knitted needles o) := by
  have hlt : t.setup.start + o < needles.size := by
    have := t.setup.start_le_stop
    have := t.setup.stop_lt_needleCount
    unfold rangeSize at ho
    omega
  rw [knitted, Array.getElem?_eq_getElem hlt]
  rfl

theorem differs_iff_ne (h : needles.size = t.setup.model.needleCount) (ho : o < t.rangeSize) :
    Differs t needles (t.setup.start + o) ↔
      t.knitted needles o ≠ t.options.expected.needleAt o := by
  rw [differs_iff ho, getElem?_knitted h ho, ne_eq, Option.some.injEq]

theorem differences_eq_filter (h : needles.size = t.setup.model.needleCount) :
    t.differences needles = (List.range t.rangeSize).filter fun o =>
      t.knitted needles o != t.options.expected.needleAt o :=
  differences_eq fun _ ho => getElem?_knitted h (Nat.lt_succ_of_le ho)

theorem mem_differences (h : needles.size = t.setup.model.needleCount) :
    o ∈ t.differences needles ↔ Differs t needles (t.setup.start + o) := by
  rw [differences_eq_filter h, List.mem_filter, List.mem_range, bne_iff_ne]
  constructor
  · rintro ⟨ho, hne⟩
    exact (differs_iff_ne h ho).mpr hne
  · intro hd
    have ho : o < t.rangeSize := by
      have := hd.2.1
      unfold rangeSize
      omega
    exact ⟨ho, (differs_iff_ne h ho).mp hd⟩

theorem differences_pairwise (h : needles.size = t.setup.model.needleCount) :
    (t.differences needles).Pairwise (· < ·) := by
  rw [differences_eq_filter h]
  exact List.pairwise_lt_range.filter _

/-- The needles that differ, by their offsets in the range. -/
theorem setOf_differs (h : needles.size = t.setup.model.needleCount) :
    {k | Differs t needles k} = (t.setup.start + ·) '' {o | o ∈ t.differences needles} := by
  ext k
  constructor
  · intro hd
    have hk : t.setup.start + (k - t.setup.start) = k := Nat.add_sub_cancel' hd.1
    refine ⟨k - t.setup.start, (mem_differences h).mpr ?_, hk⟩
    rw [hk]
    exact hd
  · rintro ⟨o, ho, rfl⟩
    exact (mem_differences h).mp ho

theorem ncard_differs (h : needles.size = t.setup.model.needleCount) :
    {k | Differs t needles k}.ncard = (t.differences needles).length := by
  have hcoe : {o | o ∈ t.differences needles} = ((t.differences needles).toFinset : Set Nat) :=
    (List.coe_toFinset _).symm
  rw [setOf_differs h, Set.ncard_image_of_injective _ (add_right_injective _), hcoe,
    Set.ncard_coe_finset, List.toFinset_card_of_nodup ((differences_pairwise h).imp Nat.ne_of_lt)]

/-- The first difference found is the least. -/
theorem isLeast_differs (h : needles.size = t.setup.model.needleCount)
    (hd : t.differences needles = first :: rest) :
    IsLeast {k | Differs t needles k} (t.setup.start + first) := by
  have hp : (first :: rest).Pairwise (· < ·) := hd ▸ differences_pairwise h
  constructor
  · apply (mem_differences h).mp
    rw [hd]
    exact List.mem_cons_self
  · rw [setOf_differs h, hd]
    rintro _ ⟨o, ho, rfl⟩
    rcases List.mem_cons.mp ho with rfl | ho
    · exact Nat.le_refl _
    · have := List.rel_of_pairwise_cons hp ho
      dsimp only
      omega

theorem differences_eq_nil_iff (h : needles.size = t.setup.model.needleCount) :
    t.differences needles = [] ↔ ¬ ∃ k, Differs t needles k := by
  have hset : (∃ k, Differs t needles k) ↔ ∃ o, o ∈ t.differences needles := by
    change {k | Differs t needles k}.Nonempty ↔ {o | o ∈ t.differences needles}.Nonempty
    rw [setOf_differs h, Set.image_nonempty]
  rw [hset, List.eq_nil_iff_forall_not_mem, not_exists]

/-! ### Both rows -/

/-- A character for each needle of the range. -/
def rangeChars (t : Trial) (row : Nat → Needle) : List Char :=
  (List.range t.rangeSize).map fun o => (row o).char

theorem rows_eq_knitted (h : needles.size = t.setup.model.needleCount) :
    t.rows needles = ((List.range t.rangeSize).map (t.knitted needles),
      (List.range t.rangeSize).map t.options.expected.needleAt) :=
  rows_eq fun _ ho => getElem?_knitted h (Nat.lt_succ_of_le ho)

theorem toList_rowText (row : Nat → Needle) :
    (Needle.rowText ((List.range t.rangeSize).map row)).toList = t.rangeChars row := by
  rw [Needle.rowText, String.toList_ofList, List.map_map]
  rfl

theorem length_rangeChars (row : Nat → Needle) : (t.rangeChars row).length = t.rangeSize := by
  rw [rangeChars, List.length_map, List.length_range]

theorem getElem?_rangeChars (row : Nat → Needle) (ho : o < t.rangeSize) :
    (t.rangeChars row)[o]? = some (row o).char := by
  rw [rangeChars, List.getElem?_map, List.getElem?_range ho]
  rfl

theorem char_bne_iff (a b : Needle) : (a.char != b.char) = true ↔ a ≠ b := by
  cases a <;> cases b <;> decide

/-- Two rows over the range contrast where the needles differ. -/
theorem contrast_rangeChars {ours theirs : Nat → Needle}
    (h : ∀ o < t.rangeSize, Differs t needles (t.setup.start + o) ↔ ours o ≠ theirs o) :
    contrast (t.rangeChars ours) (t.rangeChars theirs) =
      (t.rangeChars ours).zip (t.faults needles) := by
  rw [contrast, faults, rangeChars, rangeChars, List.zip_map', List.zip_map', List.map_map]
  refine List.map_congr_left fun o ho => Prod.ext rfl ?_
  rw [Bool.eq_iff_iff, decide_eq_true_iff, h o (List.mem_range.mp ho)]
  exact char_bne_iff _ _

/-! ### The comparison -/

theorem checkPass_of_agree (h : needles.size = t.setup.model.needleCount)
    (hd : ¬ ∃ k, Differs t needles k) :
    (t.checkPass needles).value =
      (if 2 ≤ t.passes + 1 then some (.passed (t.passes + 1)) else none,
        { t with passes := t.passes + 1 }) := by
  rw [checkPass, mismatch?, (differences_eq_nil_iff h).mpr hd]
  rfl

/-- The report of a pass whose first difference is at an offset. -/
def report (t : Trial) (needles : Array Needle) (first : Nat) : Mismatch where
  row := t.passes
  direction := t.passDirection
  start := t.setup.start
  needle := t.setup.start + first
  expected := Needle.rowText ((List.range t.rangeSize).map t.options.expected.needleAt)
  actual := Needle.rowText ((List.range t.rangeSize).map (t.knitted needles))
  count := (t.differences needles).length

theorem checkPass_of_differences (h : needles.size = t.setup.model.needleCount)
    (hd : t.differences needles = first :: rest) :
    (t.checkPass needles).value = (some (.mismatched (t.report needles first)), t) := by
  rw [checkPass, mismatch?, report, hd, rows_eq_knitted h]
  rfl

theorem expected_report (first : Nat) :
    (t.report needles first).expected.toList = t.rangeChars t.options.expected.needleAt :=
  toList_rowText _

theorem actual_report (first : Nat) :
    (t.report needles first).actual.toList = t.rangeChars (t.knitted needles) :=
  toList_rowText _

theorem display_report (h : needles.size = t.setup.model.needleCount) (first : Nat) :
    display false (t.report needles first).text.toList =
      unlit (t.report needles first).headline ++
        (t.report needles first).expected.toList.zip (t.faults needles) ++
        unlit (t.report needles first).caption ++
        (t.report needles first).actual.toList.zip (t.faults needles) := by
  have he : contrast (t.rangeChars t.options.expected.needleAt) (t.rangeChars (t.knitted needles)) =
      (t.rangeChars t.options.expected.needleAt).zip (t.faults needles) :=
    contrast_rangeChars fun o ho => (differs_iff_ne h ho).trans ne_comm
  have ha : contrast (t.rangeChars (t.knitted needles)) (t.rangeChars t.options.expected.needleAt) =
      (t.rangeChars (t.knitted needles)).zip (t.faults needles) :=
    contrast_rangeChars fun o ho => differs_iff_ne h ho
  have hse : Escapeless (t.report needles first).expected.toList := escapeless_rowText _
  have hsa : Escapeless (t.report needles first).actual.toList := escapeless_rowText _
  rw [display_text hse hsa, expected_report, actual_report, he, ha]

theorem restored_report (h : needles.size = t.setup.model.needleCount) (first : Nat) :
    (display false (t.report needles first).text.toList).map Prod.fst =
      ((t.report needles first).headline ++ (t.report needles first).expected ++
        (t.report needles first).caption ++ (t.report needles first).actual).toList := by
  have hrow : ∀ row,
      ((t.rangeChars row).zip (t.faults needles)).map Prod.fst = t.rangeChars row := by
    intro row
    apply List.map_fst_zip
    rw [length_rangeChars, faults, List.length_map, List.length_range]
  have hplain : ∀ text : String, (unlit text).map Prod.fst = text.toList := by
    intro text
    rw [unlit, List.map_map]
    exact List.map_id _
  rw [display_report h, expected_report, actual_report, List.map_append, List.map_append,
    List.map_append, hrow, hrow, hplain, hplain, String.toList_append, String.toList_append,
    String.toList_append, expected_report, actual_report]

theorem reports_report (h : needles.size = t.setup.model.needleCount)
    (hd : t.differences needles = first :: rest) : Reports t needles (t.report needles first) := by
  have hoffset : ∀ k, t.setup.start ≤ k → k ≤ t.setup.stop → k - t.setup.start < t.rangeSize := by
    intro k _ hk
    unfold rangeSize
    omega
  refine ⟨rfl, rfl, rfl, isLeast_differs h hd, (ncard_differs h).symm, ?_, ?_, ?_, ?_,
    restored_report h first, display_report h first⟩
  · rw [expected_report, length_rangeChars]
  · rw [actual_report, length_rangeChars]
  · intro k hstart hstop
    rw [needleAt_eq, expected_report]
    exact getElem?_rangeChars _ (hoffset k hstart hstop)
  · intro k hstart hstop
    have hneedle := getElem?_knitted h (hoffset k hstart hstop)
    rw [Nat.add_sub_cancel' hstart] at hneedle
    rw [hneedle, actual_report]
    exact getElem?_rangeChars _ (hoffset k hstart hstop)

/-- A pass is found at fault exactly when a needle of the range is not as expected. The report tells
what is wrong, and the trial stays as it is. Otherwise one more pass has matched, and the trial has
passed once there are two. -/
theorem checkPass_mismatched_iff (h : needles.size = t.setup.model.needleCount) :
    ((∃ m, (t.checkPass needles).value.1 = some (.mismatched m)) ↔
      ∃ k, Differs t needles k) ∧
    (∀ m, (t.checkPass needles).value.1 = some (.mismatched m) →
      Reports t needles m ∧ (t.checkPass needles).value.2 = t) ∧
    ((¬ ∃ m, (t.checkPass needles).value.1 = some (.mismatched m)) →
      (t.checkPass needles).value =
        (if 2 ≤ t.passes + 1 then some (.passed (t.passes + 1)) else none,
          { t with passes := t.passes + 1 })) := by
  by_cases hd : ∃ k, Differs t needles k
  · obtain ⟨first, rest, hcons⟩ := List.exists_cons_of_ne_nil
      (mt (differences_eq_nil_iff h).mp (not_not.mpr hd))
    rw [checkPass_of_differences h hcons]
    refine ⟨iff_of_true ⟨_, rfl⟩ hd, ?_, fun hno => absurd ⟨_, rfl⟩ hno⟩
    rintro m hm
    cases hm
    exact ⟨reports_report h hcons, rfl⟩
  · have hno : ¬ ∃ m, (t.checkPass needles).value.1 = some (.mismatched m) := by
      rw [checkPass_of_agree h hd]
      rintro ⟨m, hm⟩
      split at hm <;> cases hm
    exact ⟨iff_of_false hno hd, fun m hm => absurd ⟨m, hm⟩ hno, fun _ => checkPass_of_agree h hd⟩

/-- Idle needles, where every other one is wanted. -/
theorem checkPass_idle_mismatched :
    ∃ m, ((begin .standard {}).checkPass (Array.replicate 200 .idle)).value.1 =
        some (.mismatched m) ∧
      Reports (begin .standard {}) (Array.replicate 200 .idle) m := by
  have hsize : (Array.replicate 200 Needle.idle).size =
      (begin .standard {}).setup.model.needleCount := rfl
  obtain ⟨hiff, hreports, -⟩ := checkPass_mismatched_iff hsize
  obtain ⟨m, hm⟩ := hiff.mpr ⟨0, by decide +kernel⟩
  exact ⟨m, hm, (hreports m hm).1⟩

end KnitBench.Trial
