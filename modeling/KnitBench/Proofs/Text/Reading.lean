import KnitBench.Text.Blank
import KnitBench.Text.Number

/-! How texts are read: cut into pieces at separators, and as numerals. A numeral is read exactly
when it spells a number below the bound, and as that number. -/

namespace KnitBench.Text

variable {bound v n : Nat} {cs : List Char} {text : String}

/-! ### Pieces -/

theorem splitAll_eq_splitOnP (sep : Char → Bool) (cs : List Char) :
    splitAll sep cs = cs.splitOnP sep := by
  induction cs with
  | nil => rfl
  | cons c cs ih =>
    rw [splitAll, ih, List.splitOnP_cons_eq_if_modifyHead]
    obtain ⟨piece, pieces, hp⟩ := List.exists_cons_of_ne_nil (List.splitOnP_ne_nil sep cs)
    rw [hp]
    rfl

/-- A line feed between two texts parts their lines. -/
theorem lines_append (a b : String) : lines (a ++ "\n" ++ b) = lines a ++ lines b := by
  have hn : (a ++ "\n" ++ b).toList = a.toList ++ '\n' :: b.toList := by
    rw [String.toList_append, String.toList_append, List.append_assoc]
    rfl
  unfold lines
  rw [hn, splitAll_eq_splitOnP, splitAll_eq_splitOnP, splitAll_eq_splitOnP,
    List.splitOnP_append_cons _ _ (by rfl)]

/-- Rows without line feeds, one below the other, are the lines of their text. -/
theorem lines_of_intercalate {rows : List (List Char)} (ht : text.toList = ['\n'].intercalate rows)
    (hne : rows ≠ []) (hrows : ∀ row ∈ rows, '\n' ∉ row) : lines text = rows := by
  rw [lines, splitAll_eq_splitOnP, ht]
  exact List.splitOn_intercalate '\n' hrows hne

/-! ### Numerals -/

/-- A text spells a number: decimal digits, at least one, and perhaps a plus sign in front. -/
def Spells (text : String) (n : Nat) : Prop :=
  ∃ digits : List Char, digits ≠ [] ∧ (∀ c ∈ digits, c.isDigit = true) ∧
    (text.toList = digits ∨ text.toList = '+' :: digits) ∧ Nat.ofDigitChars 10 digits 0 = n

/-- More digits make no smaller number. -/
theorem le_ofDigitChars (v : Nat) (cs : List Char) : v ≤ Nat.ofDigitChars 10 cs v := by
  induction cs generalizing v with
  | nil => exact Nat.le_refl v
  | cons c cs ih =>
    have h := ih (10 * v + (c.toNat - 48))
    change v ≤ Nat.ofDigitChars 10 cs (10 * v + (c.toNat - 48))
    omega

theorem readDigits_eq_ok_iff (hv : v < bound) :
    readDigits bound v cs = .ok n ↔
      (∀ c ∈ cs, c.isDigit = true) ∧ Nat.ofDigitChars 10 cs v = n ∧ n < bound := by
  induction cs generalizing v with
  | nil =>
    rw [readDigits, Except.ok.injEq]
    constructor
    · rintro rfl
      exact ⟨nofun, rfl, hv⟩
    · rintro ⟨-, h, -⟩
      exact h
  | cons c cs ih =>
    rw [readDigits, List.forall_mem_cons, and_assoc]
    by_cases hc : c.isDigit = true
    · rw [if_pos hc, and_iff_right hc]
      by_cases hnext : 10 * v + (c.toNat - 48) < bound
      · rw [if_pos hnext]
        exact ih hnext
      · rw [if_neg hnext]
        refine iff_of_false nofun ?_
        rintro ⟨-, rfl, hb⟩
        exact hnext (Nat.lt_of_le_of_lt (le_ofDigitChars _ cs) hb)
    · rw [if_neg hc]
      exact iff_of_false nofun fun h => hc h.1

/-- Digits without a sign are read as they stand. -/
theorem spells_iff_of_head (h : text.toList.head? ≠ some '+') :
    Spells text n ↔ text.toList ≠ [] ∧ (∀ c ∈ text.toList, c.isDigit = true) ∧
      Nat.ofDigitChars 10 text.toList 0 = n := by
  constructor
  · rintro ⟨digits, hne, hd, ht | ht, hn⟩
    · rw [ht]
      exact ⟨hne, hd, hn⟩
    · rw [ht] at h
      exact absurd rfl h
  · rintro ⟨hne, hd, hn⟩
    exact ⟨text.toList, hne, hd, Or.inl rfl, hn⟩

/-- Behind a plus sign stand the digits. -/
theorem spells_iff_of_plus (h : text.toList = '+' :: cs) :
    Spells text n ↔ cs ≠ [] ∧ (∀ c ∈ cs, c.isDigit = true) ∧ Nat.ofDigitChars 10 cs 0 = n := by
  constructor
  · rintro ⟨digits, hne, hd, ht | ht, hn⟩
    · have hp := hd '+' (by rw [← ht, h]; exact List.mem_cons_self)
      cases hp
    · obtain ⟨-, rfl⟩ := List.cons.inj (h.symm.trans ht)
      exact ⟨hne, hd, hn⟩
  · rintro ⟨hne, hd, hn⟩
    exact ⟨cs, hne, hd, Or.inr h, hn⟩

theorem readNumeral_eq_ok_iff (hb : 0 < bound) :
    readNumeral bound text = .ok n ↔ Spells text n ∧ n < bound := by
  unfold readNumeral
  split
  · rename_i ht
    refine iff_of_false nofun ?_
    rintro ⟨hs, -⟩
    exact ((spells_iff_of_head (by rw [ht]; nofun)).mp hs).1 ht
  · rename_i ht
    refine iff_of_false nofun ?_
    rintro ⟨hs, -⟩
    exact ((spells_iff_of_plus ht).mp hs).1 rfl
  · rename_i cs hne ht
    rw [readDigits_eq_ok_iff hb, spells_iff_of_plus ht, and_iff_right hne, and_assoc]
  · rename_i hne _ hplus
    have hhead : text.toList.head? ≠ some '+' := by
      intro h
      obtain ⟨cs, hcs⟩ := List.head?_eq_some_iff.mp h
      exact hplus cs hcs
    rw [readDigits_eq_ok_iff hb, spells_iff_of_head hhead, and_iff_right hne, and_assoc]

end KnitBench.Text
