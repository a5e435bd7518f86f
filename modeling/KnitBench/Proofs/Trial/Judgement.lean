import KnitBench.Trial

/-! What a trial makes of needles that have been knitted as its pattern asks. -/

namespace KnitBench

namespace Trial

variable {t : Trial} {s : Setup} {o : TrialOptions} {m : Mechanism} {needles : Array Needle}

/-- The needles of the range are as the pattern asks. -/
def Knitted (s : Setup) (o : TrialOptions) (needles : Array Needle) : Prop :=
  ∀ k ≤ s.stop - s.start, needles[s.start + k]? = some (o.pattern.needleAt k)

/-- The offsets at which the pattern to knit is not the one expected. -/
def differing (s : Setup) (o : TrialOptions) : List Nat :=
  (List.range (s.stop - s.start + 1)).filter fun k => o.pattern.needleAt k != o.expected.needleAt k

/-- A pattern over the whole range, as text. -/
def rangeText (s : Setup) (p : Pattern) : String :=
  Needle.rowText ((List.range (s.stop - s.start + 1)).map p.needleAt)

/-- The verdict on a pass that knits the pattern, if it decides. -/
def judgement (s : Setup) (o : TrialOptions) (passes : Nat) (d : Direction) : Option Verdict :=
  match differing s o with
  | [] => if passesWanted ≤ passes + 1 then some (.passed (passes + 1)) else none
  | first :: rest =>
    some (.mismatched {
      row := passes
      direction := d
      start := s.start
      needle := s.start + first
      expected := rangeText s o.expected
      actual := rangeText s o.pattern
      count := rest.length + 1 })

/-- A pattern that agrees with the one expected over the range decides with the last pass wanted. -/
theorem judgement_of_agree
    (h : ∀ k ≤ s.stop - s.start, o.pattern.needleAt k = o.expected.needleAt k) (passes : Nat)
    (d : Direction) :
    judgement s o passes d =
      if passesWanted ≤ passes + 1 then some (.passed (passes + 1)) else none := by
  have hnil : differing s o = [] := by
    refine List.filter_eq_nil_iff.mpr fun k hk => ?_
    have hle := List.mem_range.mp hk
    rw [h k (by omega)]
    simp
  rw [judgement, hnil]

/-- A pattern that differs decides with the first pass, and is told by its first difference. -/
theorem judgement_of_differ {first : Nat} (hle : first ≤ s.stop - s.start)
    (hne : o.pattern.needleAt first ≠ o.expected.needleAt first)
    (hfirst : ∀ k < first, o.pattern.needleAt k = o.expected.needleAt k) (passes : Nat)
    (d : Direction) :
    judgement s o passes d = some (.mismatched {
      row := passes
      direction := d
      start := s.start
      needle := s.start + first
      expected := rangeText s o.expected
      actual := rangeText s o.pattern
      count := (differing s o).length }) := by
  have hhead : (differing s o).head? = some first := by
    rw [differing, List.head?_filter, List.find?_range_eq_some]
    refine ⟨bne_iff_ne.mpr hne, List.mem_range.mpr (by omega), fun k hk => ?_⟩
    rw [hfirst k hk]
    simp
  unfold judgement
  cases hd : differing s o with
  | nil =>
    rw [hd] at hhead
    cases hhead
  | cons head rest =>
    rw [hd] at hhead
    obtain rfl := Option.some.inj hhead
    rfl

/-- Both rows that are compared, the needles of the range being as they are told. -/
theorem rows_eq {row : Nat → Needle}
    (h : ∀ k ≤ t.setup.stop - t.setup.start, needles[t.setup.start + k]? = some (row k)) :
    t.rows needles =
      ((List.range (t.setup.stop - t.setup.start + 1)).map row,
        (List.range (t.setup.stop - t.setup.start + 1)).map t.options.expected.needleAt) := by
  have hlast := h (t.setup.stop - t.setup.start) (Nat.le_refl _)
  rw [Nat.add_sub_cancel' t.setup.start_le_stop] at hlast
  have hstop : t.setup.stop < needles.size := (Array.getElem?_eq_some_iff.mp hlast).1
  refine Prod.ext ?_ rfl
  simp only [rows, if_pos hstop]
  refine List.ext_getElem? fun k => ?_
  by_cases hk : k < t.setup.stop - t.setup.start + 1
  · rw [List.getElem?_take_of_lt hk, List.getElem?_drop, Array.getElem?_toList, h k (by omega),
      List.getElem?_map, List.getElem?_range hk]
    rfl
  · rw [List.getElem?_take_eq_none (Nat.not_lt.mp hk), List.getElem?_eq_none]
    rw [List.length_map, List.length_range]
    omega

/-- The offsets at which the needles of the range, being as they are told, differ. -/
theorem differences_eq {row : Nat → Needle}
    (h : ∀ k ≤ t.setup.stop - t.setup.start, needles[t.setup.start + k]? = some (row k)) :
    t.differences needles = (List.range (t.setup.stop - t.setup.start + 1)).filter fun k =>
      row k != t.options.expected.needleAt k := by
  have numbered (n : Nat) (f : Nat → Needle × Needle) :
      ((List.range n).map f).zipIdx = (List.range n).map fun k => (f k, k) := by
    refine List.ext_getElem? fun k => ?_
    rw [List.getElem?_zipIdx, List.getElem?_map, List.getElem?_map]
    by_cases hk : k < n
    · rw [List.getElem?_range hk]
      simp
    · rw [List.getElem?_eq_none (by rw [List.length_range]; exact Nat.not_lt.mp hk)]
      rfl
  rw [differences, rows_eq h]
  dsimp only
  rw [List.zip_map', numbered, List.filter_map, List.map_map]
  exact List.map_id _

theorem differences_knitted (hs : t.setup = s) (ho : t.options = o) (hk : Knitted s o needles) :
    t.differences needles = differing s o := by
  subst hs ho
  exact differences_eq hk

theorem rows_knitted (hs : t.setup = s) (ho : t.options = o) (hk : Knitted s o needles) :
    t.rows needles =
      ((List.range (s.stop - s.start + 1)).map o.pattern.needleAt,
        (List.range (s.stop - s.start + 1)).map o.expected.needleAt) := by
  subst hs ho
  exact rows_eq hk

/-- What a comparison says of a pass that has knitted the pattern. -/
theorem value_checkPass (hs : t.setup = s) (ho : t.options = o) (hk : Knitted s o needles) :
    (t.checkPass needles).value = (judgement s o t.passes t.passDirection,
      if differing s o = [] then { t with passes := t.passes + 1 } else t) := by
  unfold checkPass mismatch? judgement
  rw [differences_knitted hs ho hk, rows_knitted hs ho hk, hs]
  cases differing s o with
  | nil => rfl
  | cons first rest => rfl

/-- Before the selector has gone past the range in the direction of the pass, nothing is compared.
-/
theorem value_afterMove_of_not (h : ¬ (m.direction = t.passDirection ∧ t.pastRange m.selected)) :
    (t.afterMove m).value = (none, t) := by
  unfold afterMove
  rw [if_neg fun hc => h hc.2.2.2]
  rfl

/-- What comes of the move that completes a pass. -/
theorem value_afterMove (hs : t.setup = s) (ho : t.options = o) (hk : Knitted s o m.needles)
    (hv : t.verdict = none) (hst : t.stage = .knitting) (hl : t.lineDelivered = true)
    (hd : m.direction = t.passDirection) (hp : t.pastRange m.selected = true) :
    (t.afterMove m).value.1 = judgement s o t.passes t.passDirection ∧
      (judgement s o t.passes t.passDirection = none →
        (t.afterMove m).value.2 = { t with
          passes := t.passes + 1
          lineDelivered := false
          passDirection := t.passDirection.reversed
          reversals := 0 }) := by
  have hc : t.verdict.isNone = true ∧ t.stage = .knitting ∧ t.lineDelivered = true ∧
      m.direction = t.passDirection ∧ t.pastRange m.selected = true :=
    ⟨by rw [hv]; rfl, hst, hl, hd, hp⟩
  have hdiff : judgement s o t.passes t.passDirection = none → differing s o = [] := by
    unfold judgement
    cases differing s o with
    | nil => exact fun _ => rfl
    | cons => nofun
  unfold afterMove
  rw [if_pos hc, Logged.value_bind, value_checkPass hs ho hk]
  dsimp only
  cases hj : judgement s o t.passes t.passDirection with
  | some v => exact ⟨rfl, nofun⟩
  | none =>
    rw [if_pos (hdiff hj)]
    exact ⟨rfl, fun _ => rfl⟩

end Trial

end KnitBench
