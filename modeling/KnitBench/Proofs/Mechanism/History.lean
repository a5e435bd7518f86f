import KnitBench.Proofs.Mechanism.Cam
import KnitBench.Proofs.Mechanism.Counter

/-! What armatures and needles remember of the past. An armature holds what the last move did to it
that brought the cam near enough, a needle what the last move left of it that brought it to the
selector. Nothing else changes either. -/

namespace KnitBench.Mechanism

variable {s : Setup} {m : Mechanism} {hs front : List Handling} {h : Handling} {r : Register}
  {d e : Direction} {p : List Handling → Direction → Prop} {i k n : Nat}

/-! ### The last move of a kind -/

/-- Some move is of a kind, told by what has been done before it and by its direction. -/
def Ever (p : List Handling → Direction → Prop) (hs : List Handling) : Prop :=
  ∃ front d back, hs = front ++ .move d :: back ∧ p front d

/-- The move `d` after `front` is the last one of a kind. -/
def Last (p : List Handling → Direction → Prop) (hs front : List Handling) (d : Direction) : Prop :=
  ∃ back, hs = front ++ .move d :: back ∧ p front d ∧
    ∀ between e rest, back = between ++ .move e :: rest → ¬ p (front ++ .move d :: between) e

/-- A history that goes on splits at its end or before it. -/
theorem concat_eq_append_cons {back : List Handling} :
    hs ++ [h] = front ++ .move d :: back ↔
      (front = hs ∧ h = .move d ∧ back = []) ∨
        ∃ back', hs = front ++ .move d :: back' ∧ back = back' ++ [h] := by
  constructor
  · intro he
    rcases back.eq_nil_or_concat with rfl | ⟨back', last, rfl⟩
    · obtain ⟨hf, hd⟩ := List.append_inj' he rfl
      exact Or.inl ⟨hf.symm, List.singleton_inj.mp hd, rfl⟩
    · rw [List.concat_eq_append, ← List.cons_append, ← List.append_assoc] at he
      obtain ⟨hf, hd⟩ := List.append_inj' he rfl
      exact Or.inr ⟨back', hf, by rw [List.concat_eq_append, hd]⟩
  · rintro (⟨rfl, rfl, rfl⟩ | ⟨back', rfl, rfl⟩)
    · rfl
    · rw [List.append_assoc, List.cons_append]

theorem ever_concat : Ever p (hs ++ [h]) ↔ (∃ d, h = .move d ∧ p hs d) ∨ Ever p hs := by
  constructor
  · rintro ⟨front, d, back, he, hp⟩
    rcases concat_eq_append_cons.mp he with ⟨rfl, hd, -⟩ | ⟨back', hs', -⟩
    · exact Or.inl ⟨d, hd, hp⟩
    · exact Or.inr ⟨front, d, back', hs', hp⟩
  · rintro (⟨d, rfl, hp⟩ | ⟨front, d, back, rfl, hp⟩)
    · exact ⟨hs, d, [], rfl, hp⟩
    · exact ⟨front, d, back ++ [h], by simp, hp⟩

/-- A move of the kind is the last one when it is made. -/
theorem last_concat_of (hp : p hs d) :
    Last p (hs ++ [.move d]) front e ↔ front = hs ∧ e = d := by
  constructor
  · rintro ⟨back, he, -, hn⟩
    rcases concat_eq_append_cons.mp he with ⟨hf, hd, -⟩ | ⟨back', hs', rfl⟩
    · exact ⟨hf, (Handling.move.inj hd).symm⟩
    · exact absurd hp (by rw [hs']; exact hn back' d [] rfl)
  · rintro ⟨rfl, rfl⟩
    exact ⟨[], rfl, hp, by simp⟩

/-- Whatever is of no such kind leaves the last one. -/
theorem last_concat_of_not (hn : ∀ d, h = .move d → ¬ p hs d) :
    Last p (hs ++ [h]) front e ↔ Last p hs front e := by
  constructor
  · rintro ⟨back, he, hp, hl⟩
    rcases concat_eq_append_cons.mp he with ⟨rfl, hd, -⟩ | ⟨back', hs', rfl⟩
    · exact absurd hp (hn e hd)
    · exact ⟨back', hs', hp, fun between e rest hb => hl between e (rest ++ [h]) (by simp [hb])⟩
  · rintro ⟨back, rfl, hp, hl⟩
    refine ⟨back ++ [h], by simp, hp, fun between e' rest hb => ?_⟩
    rcases concat_eq_append_cons.mp hb with ⟨rfl, hd, -⟩ | ⟨rest', hb', -⟩
    · exact hn e' hd
    · exact hl between e' rest' hb'

/-- What only moves of a kind set, and keep otherwise, tells what the last of them has set. -/
theorem held_iff {f : List Handling → Bool} {v : List Handling → Direction → Bool}
    (hlatch : ∀ hs r, f (hs ++ [.latch r]) = f hs)
    (hset : ∀ hs d, p hs d → f (hs ++ [.move d]) = v hs d)
    (hkeep : ∀ hs d, ¬ p hs d → f (hs ++ [.move d]) = f hs) (hs : List Handling) :
    f hs = true ↔
      (∃ front d, Last p hs front d ∧ v front d = true) ∨ ¬ Ever p hs ∧ f [] = true := by
  induction hs using List.reverseRecOn with
  | nil =>
    have hl (front : List Handling) (d : Direction) : ¬ Last p [] front d := by
      rintro ⟨back, he, -⟩
      simp at he
    have hv : ¬ Ever p [] := by
      rintro ⟨front, d, back, he, -⟩
      simp at he
    simp [hl, hv]
  | append_singleton hs h ih =>
    have keep (hf : f (hs ++ [h]) = f hs) (hn : ∀ d, h = .move d → ¬ p hs d) :
        f (hs ++ [h]) = true ↔ (∃ front d, Last p (hs ++ [h]) front d ∧ v front d = true) ∨
          ¬ Ever p (hs ++ [h]) ∧ f [] = true := by
      have hv : ¬ ∃ d, h = .move d ∧ p hs d := fun ⟨d, hd, hp⟩ => hn d hd hp
      simp only [last_concat_of_not hn, ever_concat, hv, false_or, hf, ih]
    cases h with
    | latch r => exact keep (hlatch hs r) nofun
    | move d =>
      by_cases hp : p hs d
      · have hv : Ever p (hs ++ [.move d]) := ever_concat.mpr (Or.inl ⟨d, rfl, hp⟩)
        simp only [last_concat_of hp, hset hs d hp, hv, not_true, false_and, or_false]
        constructor
        · exact fun ht => ⟨hs, d, ⟨rfl, rfl⟩, ht⟩
        · rintro ⟨_, _, ⟨rfl, rfl⟩, ht⟩
          exact ht
      · refine keep (hkeep hs d hp) fun e he => ?_
        cases he
        exact hp

/-! ### Armatures -/

/-- The register that a handling puts on the solenoids, if it does. -/
def Handling.latch? : Handling → Option Register
  | latch r => some r
  | move _ => none

/-- The level that the register put on last commands for solenoid `i`. Before the first one no
solenoid is released. -/
def commanded (s : Setup) (hs : List Handling) (i : Nat) : Bool :=
  (s.model.solenoidBits ((hs.filterMap Handling.latch?).getLast?.getD 0)).getLsbD i

/-- How far the move `d` after `hs` leaves the cam from the armature of solenoid `i`, in quarter
steps. -/
def camOffset (s : Setup) (i : Nat) (hs : List Handling) (d : Direction) : Nat :=
  let phase : Int := (handled s (hs ++ [.move d])).phase
  let n : Int := s.model.solenoidCount
  ((phase + 4 * (n - i)) % (4 * n) - 2 * n).natAbs

/-- The move draws armature `i`: the cam is near, and the solenoid has power. -/
def Draws (s : Setup) (i : Nat) (hs : List Handling) (d : Direction) : Prop :=
  camOffset s i hs d ≤ 6 ∧ commanded s hs i = false

/-- The move releases armature `i`: the cam is very near, and the solenoid has no power. -/
def Releases (s : Setup) (i : Nat) (hs : List Handling) (d : Direction) : Prop :=
  camOffset s i hs d ≤ 2 ∧ commanded s hs i = true

/-- The move sets armature `i` one way or the other. -/
def Sets (s : Setup) (i : Nat) (hs : List Handling) (d : Direction) : Prop :=
  Draws s i hs d ∨ Releases s i hs d

theorem register_handled (s : Setup) (hs : List Handling) :
    (handled s hs).register = (hs.filterMap Handling.latch?).getLast?.getD 0 := by
  induction hs using List.reverseRecOn with
  | nil => rfl
  | append_singleton hs h ih =>
    rw [handled_concat, List.filterMap_append]
    cases h with
    | latch r => exact (congrArg (Option.getD · 0) List.getLast?_concat).symm
    | move d =>
      rw [show [Handling.move d].filterMap Handling.latch? = [] from rfl, List.append_nil, ← ih]
      rfl

theorem camOffset_eq (hi : i < s.model.solenoidCount) (hs : List Handling) (d : Direction) :
    camOffset s i hs d =
      camDistance s.model.solenoidCount (handled s (hs ++ [.move d])).phase i := by
  unfold camOffset camDistance
  obtain hn | hn := s.model.solenoidCount_cases <;> rw [hn] at hi ⊢ <;> dsimp only <;> omega

theorem getLsbD_armatures_initial (s : Setup) (i : Nat) :
    (initial s).armatures.getLsbD i = decide (i < s.model.solenoidCount) := by
  have hn := s.model.solenoidCount_le
  rw [initial, BitVec.getLsbD_ofNat, Nat.one_shiftLeft, Nat.testBit_two_pow_sub_one,
    ← Bool.decide_and, decide_eq_decide]
  omega

theorem setup_handled (s : Setup) (hs : List Handling) : (handled s hs).setup = s :=
  (Counts.handled s hs).setup_eq

/-- A move does to an armature what the cam makes of its solenoid's level. -/
theorem getLsbD_armatures_handled_move (hi : i < s.model.solenoidCount) (hs : List Handling)
    (d : Direction) : (handled s (hs ++ [.move d])).armatures.getLsbD i =
      followed (camOffset s i hs d) (commanded s hs i) ((handled s hs).armatures.getLsbD i) := by
  have hm := getLsbD_armatures_move (m := handled s hs) d (by rwa [setup_handled])
  rw [setup_handled, register_handled] at hm
  rw [camOffset_eq hi, handled_concat]
  exact hm

theorem followed_of_sets (h : Sets s i hs d) (armature : Bool) :
    followed (camOffset s i hs d) (commanded s hs i) armature = commanded s hs i := by
  unfold followed engageReach releaseReach
  rcases h with ⟨hd, hc⟩ | ⟨hd, hc⟩
  · rw [hc]
    simp [hd]
  · rw [if_pos hd]

theorem followed_of_not_sets (h : ¬ Sets s i hs d) (armature : Bool) :
    followed (camOffset s i hs d) (commanded s hs i) armature = armature := by
  unfold Sets Draws Releases at h
  unfold followed engageReach releaseReach
  rw [not_or, not_and, not_and] at h
  cases hc : commanded s hs i with
  | false =>
    have hd : ¬ camOffset s i hs d ≤ 6 := fun hd => h.1 hd hc
    rw [if_neg (by omega), if_neg fun ht => hd ht.1]
  | true =>
    have hd : ¬ camOffset s i hs d ≤ 2 := fun hd => h.2 hd hc
    rw [if_neg hd, if_neg (by simp)]

theorem releases_iff_of_sets (h : Sets s i hs d) :
    Releases s i hs d ↔ commanded s hs i = true := by
  constructor
  · exact And.right
  · intro hc
    rcases h with ⟨-, hd⟩ | hr
    · rw [hc] at hd
      cases hd
    · exact hr

theorem Last.holds (h : Last p hs front d) : p front d := h.elim fun _ hb => hb.2.1

/-- An armature is released exactly when the last move that set it released it, or none has. -/
theorem getLsbD_armatures_handled (hi : i < s.model.solenoidCount) (hs : List Handling) :
    (handled s hs).armatures.getLsbD i = true ↔
      (∃ front d, Last (Sets s i) hs front d ∧ Releases s i front d) ∨ ¬ Ever (Sets s i) hs := by
  have hinit : (handled s []).armatures.getLsbD i = true := by
    rw [handled, List.foldl_nil, getLsbD_armatures_initial, decide_eq_true hi]
  have hheld := held_iff (p := Sets s i) (v := fun hs _ => commanded s hs i)
    (f := fun hs => (handled s hs).armatures.getLsbD i)
    (fun hs r => by rw [handled_concat]; rfl)
    (fun hs d h => by rw [getLsbD_armatures_handled_move hi, followed_of_sets h])
    (fun hs d h => by rw [getLsbD_armatures_handled_move hi, followed_of_not_sets h]) hs
  rw [hheld]
  simp only [hinit, and_true]
  refine or_congr_left (exists₂_congr fun front d => and_congr_right fun hl => ?_)
  exact (releases_iff_of_sets hl.holds).symm

/-- No cam has more armatures than solenoids. -/
theorem getLsbD_armatures_handled_of_le (hi : s.model.solenoidCount ≤ i) (hs : List Handling) :
    (handled s hs).armatures.getLsbD i = false := by
  induction hs using List.reverseRecOn with
  | nil =>
    rw [handled, List.foldl_nil, getLsbD_armatures_initial, decide_eq_false (Nat.not_lt.mpr hi)]
  | append_singleton hs h ih =>
    rw [handled_concat]
    cases h with
    | latch r => exact ih
    | move d =>
      by_cases h16 : i < 16
      · change (followAll (handled s hs).setup.model.solenoidCount _ _ _).getLsbD i = false
        rw [setup_handled, followAll, getLsbD_fold_follow _ h16, if_neg (Nat.not_lt.mpr hi), ih]
      · exact BitVec.getLsbD_of_ge _ _ (Nat.le_of_not_lt h16)

/-! ### Needles -/

/-- The move brings needle `k` to the selector. -/
def Reaches (s : Setup) (k : Nat) (hs : List Handling) (d : Direction) : Prop :=
  (handled s (hs ++ [.move d])).selected = k

/-- The armature that leaves needle `k` after a move in direction `d` is drawn. -/
def Drawn (s : Setup) (k : Nat) (hs : List Handling) (d : Direction) : Prop :=
  (handled s (hs ++ [.move d])).armatures.getLsbD
    (s.carriage.armatureIndex s.model s.belt d k) = false

theorem size_needles_handled (s : Setup) (hs : List Handling) :
    (handled s hs).needles.size = s.model.needleCount := by
  rw [(Counts.handled s hs).aligned.size_needles, setup_handled]

/-- A move leaves the needle that it brings to the selector as its armature is. -/
theorem needles_handled_move (hk : k < s.model.needleCount) (h : Reaches s k hs d) :
    (handled s (hs ++ [.move d])).needles[k]? = some .selected ↔ Drawn s k hs d := by
  unfold Reaches Drawn at *
  rw [handled_concat] at h ⊢
  have hm := needles_move_selected (m := handled s hs) h (by rwa [size_needles_handled])
  rw [setup_handled] at hm
  change ((handled s hs).move d).needles[k]? = _ ↔
    ((handled s hs).move d).armatures.getLsbD (s.solenoidOf d k) = false
  rw [hm]
  cases ((handled s hs).move d).armatures.getLsbD (s.solenoidOf d k) <;> simp [needleOf]

/-- A needle is selected exactly when the last move that brought it to the selector found its
armature drawn. -/
theorem needles_handled (hk : k < s.model.needleCount) (hs : List Handling) :
    (handled s hs).needles[k]? = some .selected ↔
      ∃ front d, Last (Reaches s k) hs front d ∧ Drawn s k front d := by
  classical
  have hinit : (handled s []).needles[k]? = some .idle := by
    simp [handled, initial, hk]
  have hheld := held_iff (p := Reaches s k) (v := fun hs d => decide (Drawn s k hs d))
    (f := fun hs => decide ((handled s hs).needles[k]? = some .selected))
    (fun hs r => by rw [handled_concat]; rfl)
    (fun hs d h => decide_eq_decide.mpr (needles_handled_move hk h))
    (fun hs d h => by
      unfold Reaches at h
      rw [handled_concat] at h ⊢
      rw [handle, needles_move_of_ne h]) hs
  simpa [hinit] using hheld

/-- What the past has left, after whatever has been done to a mechanism. An armature is released
exactly when the last move that set it released it, or no move has set it yet; beyond the solenoids
there is none. And the row has a needle for each place of the bed, which shows `|` exactly when it
has been at the selector and found its armature drawn the last time, and else a point. -/
theorem handled_remembers (s : Setup) (hs : List Handling) :
    (∀ i < s.model.solenoidCount, (handled s hs).armatures.getLsbD i = true ↔
      (∃ front d, Last (Sets s i) hs front d ∧ Releases s i front d) ∨ ¬ Ever (Sets s i) hs) ∧
    (∀ i, s.model.solenoidCount ≤ i → (handled s hs).armatures.getLsbD i = false) ∧
    (handled s hs).needles.size = s.model.needleCount ∧
    ∀ k < s.model.needleCount,
      ((handled s hs).needles[k]?.map Needle.char = some '|' ↔
        ∃ front d, Last (Reaches s k) hs front d ∧ Drawn s k front d) ∧
      ((handled s hs).needles[k]?.map Needle.char = some '.' ↔
        ¬ ∃ front d, Last (Reaches s k) hs front d ∧ Drawn s k front d) := by
  refine ⟨fun i hi => getLsbD_armatures_handled hi hs,
    fun i hi => getLsbD_armatures_handled_of_le hi hs, size_needles_handled s hs, fun k hk => ?_⟩
  rw [← needles_handled hk]
  have hsome : k < (handled s hs).needles.size := by rwa [size_needles_handled]
  rw [Array.getElem?_eq_getElem hsome]
  cases (handled s hs).needles[k] <;> simp [Needle.char]

/-- The carriage goes a quarter needle to the right, and another one after the controller has
released all solenoids: the cam draws armature 8, and releases it again. -/
def drawnAndReleased : List Handling := [.move .right, .latch 0xFFFF, .move .right]

theorem handled_remembers_released :
    8 < Setup.standard.model.solenoidCount ∧
      (handled .standard drawnAndReleased).armatures.getLsbD 8 = true ∧
      ((∃ front d, Last (Sets .standard 8) drawnAndReleased front d ∧
        Releases .standard 8 front d) ∨ ¬ Ever (Sets .standard 8) drawnAndReleased) := by
  have hi : 8 < Setup.standard.model.solenoidCount := by decide
  have ha : (handled .standard drawnAndReleased).armatures.getLsbD 8 = true := by decide +kernel
  exact ⟨hi, ha, ((handled_remembers .standard drawnAndReleased).1 8 hi).mp ha⟩

end KnitBench.Mechanism
