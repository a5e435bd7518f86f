import Mathlib.Data.List.DropRight
import Mathlib.Data.Set.Function
import KnitBench.Proofs.Wire.Delivery

/-! The stuffed forms among all strings of bytes: no delimiter, and a stand-in behind every escape.
Between messages and stuffed forms, stuffing and reading back undo each other. Whatever else is
read back, an escape that announces nothing is as good as not sent. -/

namespace KnitBench.Wire

variable {b c : UInt8} {y : List UInt8}

/-- A byte that stands for another one behind an escape. -/
def StandIn (b : UInt8) : Prop := b = delimiterStandIn ∨ b = escapeStandIn

/-- No delimiter, and a stand-in behind every escape. -/
structure Canonical (y : List UInt8) : Prop where
  ne_delimiter : ∀ b ∈ y, b ≠ delimiter
  paired : ∀ before after, y = before ++ escape :: after → ∃ c rest, after = c :: rest ∧ StandIn c

theorem StandIn.ne_escape (h : StandIn c) : c ≠ escape := by
  rcases h with rfl | rfl <;> decide

theorem StandIn.ne_delimiter (h : StandIn c) : c ≠ delimiter := by
  rcases h with rfl | rfl <;> decide

/-- A stand-in is what its byte is stuffed as. -/
theorem StandIn.stuffByte_unescape (h : StandIn c) : stuffByte (unescape c) = [escape, c] := by
  rcases h with rfl | rfl <;> decide

theorem stuffByte_of_ne (hd : b ≠ delimiter) (he : b ≠ escape) : stuffByte b = [b] := by
  rw [stuffByte, if_neg hd, if_neg he]

/-- A byte is stuffed as itself or as an escape with a stand-in. -/
theorem stuffByte_cases (b : UInt8) :
    (stuffByte b = [b] ∧ b ≠ delimiter ∧ b ≠ escape) ∨
      ∃ c, stuffByte b = [escape, c] ∧ StandIn c := by
  by_cases hd : b = delimiter
  · subst hd
    exact Or.inr ⟨delimiterStandIn, rfl, Or.inl rfl⟩
  · by_cases he : b = escape
    · subst he
      exact Or.inr ⟨escapeStandIn, rfl, Or.inr rfl⟩
    · exact Or.inl ⟨stuffByte_of_ne hd he, hd, he⟩

/-! ### Stuffed forms, pair by pair -/

theorem canonical_nil : Canonical [] := by
  refine ⟨nofun, ?_⟩
  intro before after h
  cases before <;> cases h

theorem canonical_cons (hb : b ≠ escape) : Canonical (b :: y) ↔ b ≠ delimiter ∧ Canonical y := by
  constructor
  · intro h
    obtain ⟨hd, hy⟩ := List.forall_mem_cons.mp h.ne_delimiter
    refine ⟨hd, hy, ?_⟩
    intro before after he
    exact h.paired (b :: before) after (by rw [he, List.cons_append])
  · rintro ⟨hd, h⟩
    refine ⟨List.forall_mem_cons.mpr ⟨hd, h.ne_delimiter⟩, ?_⟩
    intro before after he
    cases before with
    | nil => exact absurd (List.cons.inj he).1 hb
    | cons x before => exact h.paired before after (List.cons.inj he).2

theorem canonical_pair : Canonical (escape :: c :: y) ↔ StandIn c ∧ Canonical y := by
  constructor
  · intro h
    obtain ⟨x, rest, he, hx⟩ := h.paired [] (c :: y) rfl
    obtain ⟨rfl, rfl⟩ := List.cons.inj he
    obtain ⟨-, hcy⟩ := List.forall_mem_cons.mp h.ne_delimiter
    obtain ⟨-, hy⟩ := List.forall_mem_cons.mp hcy
    refine ⟨hx, hy, ?_⟩
    intro before after he
    exact h.paired (escape :: c :: before) after (by rw [he]; rfl)
  · rintro ⟨hc, h⟩
    have hcy : ∀ b ∈ c :: y, b ≠ delimiter :=
      List.forall_mem_cons.mpr ⟨hc.ne_delimiter, h.ne_delimiter⟩
    refine ⟨List.forall_mem_cons.mpr ⟨by decide, hcy⟩, ?_⟩
    intro before after he
    match before with
    | [] => exact ⟨c, y, (List.cons.inj he).2.symm, hc⟩
    | [x] => exact absurd (List.cons.inj (List.cons.inj he).2).1 hc.ne_escape
    | x :: x' :: before => exact h.paired before after (List.cons.inj (List.cons.inj he).2).2

theorem canonical_stuffByte_append (b : UInt8) : Canonical (stuffByte b ++ y) ↔ Canonical y := by
  rcases stuffByte_cases b with ⟨hs, hd, he⟩ | ⟨c, hs, hc⟩
  · rw [hs]
    exact (canonical_cons he).trans (and_iff_right hd)
  · rw [hs]
    exact canonical_pair.trans (and_iff_right hc)

theorem canonical_stuff (x : List UInt8) : Canonical (stuff x) := by
  induction x with
  | nil => exact canonical_nil
  | cons b x ih =>
    rw [stuff_cons]
    exact (canonical_stuffByte_append b).mpr ih

/-- Reading a stuffed form back and stuffing it again changes nothing. -/
theorem stuff_unstuff (h : Canonical y) : stuff (unstuff y) = y := by
  fun_induction unstuff y with
  | case1 => rfl
  | case2 =>
    obtain ⟨c, rest, he, -⟩ := h.paired [] [] rfl
    cases he
  | case3 b hb =>
    obtain ⟨hd, -⟩ := (canonical_cons hb).mp h
    rw [stuff_cons, stuffByte_of_ne hd hb]
    rfl
  | case4 c rest ih =>
    obtain ⟨hc, hrest⟩ := canonical_pair.mp h
    rw [stuff_cons, hc.stuffByte_unescape, ih hrest]
    rfl
  | case5 b c rest hb ih =>
    obtain ⟨hd, hrest⟩ := (canonical_cons hb).mp h
    rw [stuff_cons, stuffByte_of_ne hd hb, ih hrest]
    rfl

theorem canonical_iff : Canonical y ↔ stuff (unstuff y) = y := by
  constructor
  · exact stuff_unstuff
  · intro h
    rw [← h]
    exact canonical_stuff _

instance : DecidablePred Canonical := fun _ => decidable_of_iff _ canonical_iff.symm

theorem length_le_length_stuff (x : List UInt8) : x.length ≤ (stuff x).length := by
  induction x with
  | nil => exact Nat.le_refl 0
  | cons b x ih =>
    have hb : 1 ≤ (stuffByte b).length := by
      rcases stuffByte_cases b with ⟨hs, -⟩ | ⟨c, hs, -⟩ <;> simp [hs]
    rw [stuff_cons, List.length_append, List.length_cons]
    omega

/-! ### Strings that break off -/

/-- Whether the escapes at the end, which announce one another in pairs, leave one over. -/
def Dangling (y : List UInt8) : Prop := (y.rtakeWhile (· = escape)).length % 2 = 1

instance : DecidablePred Dangling := fun y =>
  inferInstanceAs (Decidable ((y.rtakeWhile (· = escape)).length % 2 = 1))

/-- A string of bytes without an escape at the end that announces nothing. -/
def trimmed (y : List UInt8) : List UInt8 := if Dangling y then y.dropLast else y

/-- The head of a list belongs to what the list ends in only if all of the list does. -/
theorem length_rtakeWhile_cons (p : UInt8 → Bool) (b : UInt8) (y : List UInt8) :
    ((b :: y).rtakeWhile p).length =
      if p b = true ∧ (y.rtakeWhile p).length = y.length then y.length + 1
      else (y.rtakeWhile p).length := by
  simp only [List.rtakeWhile, List.reverse_cons, List.takeWhile_append, List.length_reverse]
  by_cases hy : (y.reverse.takeWhile p).length = y.length
  · by_cases hb : p b = true <;> simp [hy, hb]
  · simp [hy]

theorem dangling_cons (hb : b ≠ escape) : Dangling (b :: y) ↔ Dangling y := by
  unfold Dangling
  rw [length_rtakeWhile_cons, if_neg]
  simp [hb]

/-- What an escape announces is no matter for the escapes behind it. -/
theorem dangling_pair : Dangling (escape :: c :: y) ↔ Dangling y := by
  have hle : (y.rtakeWhile (· = escape)).length ≤ y.length := (List.rtakeWhile_suffix _ y).length_le
  unfold Dangling
  rw [length_rtakeWhile_cons, length_rtakeWhile_cons, List.length_cons]
  by_cases hc : decide (c = escape) = true ∧ (y.rtakeWhile (· = escape)).length = y.length
  · rw [if_pos hc, if_pos ⟨decide_eq_true rfl, rfl⟩]
    omega
  · rw [if_neg hc, if_neg]
    rintro ⟨-, hl⟩
    omega

theorem not_dangling_nil : ¬ Dangling [] := by decide

theorem trimmed_cons (hb : b ≠ escape) : trimmed (b :: y) = b :: trimmed y := by
  unfold trimmed
  rw [if_congr (dangling_cons hb) rfl rfl]
  split
  · rename_i hy
    have hne : y ≠ [] := by
      rintro rfl
      exact not_dangling_nil hy
    exact List.dropLast_cons_of_ne_nil hne
  · rfl

theorem trimmed_pair : trimmed (escape :: c :: y) = escape :: c :: trimmed y := by
  unfold trimmed
  rw [if_congr dangling_pair rfl rfl]
  split
  · rename_i hy
    have hne : y ≠ [] := by
      rintro rfl
      exact not_dangling_nil hy
    rw [List.dropLast_cons_of_ne_nil (List.cons_ne_nil c y), List.dropLast_cons_of_ne_nil hne]
  · rfl

/-- An escape that announces nothing is as good as not sent. -/
theorem unstuff_trimmed (y : List UInt8) : unstuff (trimmed y) = unstuff y := by
  fun_induction unstuff y with
  | case1 => rfl
  | case2 => rfl
  | case3 b hb =>
    rw [trimmed_cons hb, unstuff_cons hb]
    rfl
  | case4 c rest ih =>
    rw [trimmed_pair, unstuff, if_pos rfl, ih]
  | case5 b c rest hb ih => rw [trimmed_cons hb, unstuff_cons hb, ih]

theorem length_unstuff_le (y : List UInt8) : (unstuff y).length ≤ y.length := by
  fun_induction unstuff y with
  | case1 => exact Nat.le_refl 0
  | case2 => exact Nat.zero_le 1
  | case3 b => exact Nat.le_refl 1
  | case4 c rest ih =>
    simp only [List.length_cons]
    omega
  | case5 b c rest hb ih => exact Nat.succ_le_succ ih

/-- Stuffing is one to one from all messages onto the stuffed forms, which are at most twice as
long, and reading back is its inverse in both directions. Read back, any string of bytes gives what
it gives without an escape at the end that announces nothing, and no more bytes than it has. -/
theorem bijOn_stuff_canonical :
    Set.BijOn stuff Set.univ {y | Canonical y} ∧
      (∀ x, x.length ≤ (stuff x).length ∧ (stuff x).length ≤ 2 * x.length ∧
        unstuff (stuff x) = x) ∧
      (∀ y, Canonical y ↔ stuff (unstuff y) = y) ∧
      ∀ y, unstuff y = unstuff (trimmed y) ∧ (unstuff y).length ≤ y.length := by
  refine ⟨⟨?_, ?_, ?_⟩, ?_, ?_, ?_⟩
  · intro x _
    exact canonical_stuff x
  · intro x _ x' _ he
    have hu := congrArg unstuff he
    rwa [unstuff_stuff, unstuff_stuff] at hu
  · intro y hy
    exact ⟨unstuff y, Set.mem_univ _, stuff_unstuff hy⟩
  · intro x
    exact ⟨length_le_length_stuff x, length_stuff_le x, unstuff_stuff x⟩
  · intro y
    exact canonical_iff
  · intro y
    exact ⟨(unstuff_trimmed y).symm, length_unstuff_le y⟩

/-- A pair and a byte that only looks like the end of one, then a third escape that is left over. -/
example : Canonical [escape, escapeStandIn, delimiterStandIn] ∧
    trimmed [0x10, escape, escape, escape] = [0x10, escape, escape] := by decide

end KnitBench.Wire
