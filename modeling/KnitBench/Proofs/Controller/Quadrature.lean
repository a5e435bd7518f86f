import KnitBench.Proofs.Controller.Safety
import KnitBench.Proofs.Mechanism.Counter

/-! The reference controller as a decoder of the encoder's two channels. As long as neither hall
sensor reads a pole and the position has room in its word, it counts the turns of the channels
through their Gray code, however they zigzag. A mechanism on its wires turns them by what its
carriage travels. -/

namespace KnitBench

open ReferenceController

namespace Mechanism

theorem quarter_channels (m : Mechanism) :
    (m.levels.channels.quarter.val : Int) = m.quarters % 4 := m.quarter_levels

/-- A mechanism sets the digital lines, and a slice of time goes by. -/
def shown (m : Mechanism) : List Stimulus :=
  [.raise .encoderV2 (Controller.digital m.levels.v2),
    .raise .encoderV1 (Controller.digital m.levels.v1),
    .raise .beltPhase (Controller.digital m.levels.belt), .slice]

/-- What comes over the wires while this and that is done to a mechanism. -/
def showing (m : Mechanism) : List Handling → List Stimulus
  | [] => []
  | h :: hs => (m.handle h).shown ++ (m.handle h).showing hs

theorem count_slice_showing (m : Mechanism) (hs : List Handling) :
    (m.showing hs).count .slice = hs.length := by
  induction hs generalizing m with
  | nil => rfl
  | cons h hs ih =>
    rw [showing, List.count_append, ih, List.length_cons, Nat.add_comm]
    rfl

/-- A handling takes the carriage a quarter of a needle at most. -/
theorem quarters_handle {m : Mechanism} (ha : m.Aligned) (h : Handling) :
    (m.handle h).quarters = m.quarters ∨ (m.handle h).quarters = m.quarters + 1 ∨
      (m.handle h).quarters = m.quarters - 1 := by
  cases h with
  | latch r => exact Or.inl rfl
  | move d =>
    have hm := Mechanism.quarters_move ha d
    have hs := advanced_mem ha d
    change (m.move d).quarters = _ ∨ (m.move d).quarters = _ ∨ (m.move d).quarters = _
    cases d <;> simp only [Direction.step] at hs <;> omega

theorem aligned_handle {m : Mechanism} (ha : m.Aligned) (h : Handling) : (m.handle h).Aligned := by
  cases h with
  | latch r => exact aligned_latch ha r
  | move d => exact aligned_move ha d

end Mechanism

namespace ReferenceController

open Mechanism

variable {c : ReferenceController}

theorem afterAll_shown_mechanism (c : ReferenceController) (m : Mechanism) :
    c.afterAll m.shown = c.observing m.levels :=
  congrArg (fun c : ReferenceController => c.step.value) (raiseLevels_eq m.levels c)

/-- What the carriage travels is what the controller counts. -/
theorem count_afterAll_showing {m : Mechanism} (hs : List Handling) (ha : m.Aligned)
    (h : c.Unsensed) (hq : c.tracker.quarter = m.levels.channels.quarter) :
    (c.afterAll (m.showing hs)).tracker.count - c.tracker.count =
      (hs.foldl Mechanism.handle m).quarters - m.quarters := by
  induction hs generalizing c m with
  | nil => exact (Int.sub_self _).trans (Int.sub_self _).symm
  | cons h' hs ih =>
    have hm := m.quarter_channels
    have hm' := (m.handle h').quarter_channels
    have hc := c.tracker.val_quarter
    rw [hq] at hc
    have hone := quarters_handle ha h'
    -- The controller may be whole turns of the code away from the mechanism.
    have hstep := (tracker_observing (l := (m.handle h').levels)
      (y := c.tracker.count + ((m.handle h').quarters - m.quarters)) h (by omega) (by omega)).1
    have hlater := ih (c := c.observing (m.handle h').levels) (aligned_handle ha h')
      (unsensed_observing h _) (encoder_step _).2
    rw [showing, afterAll_append, afterAll_shown_mechanism, List.foldl_cons]
    omega

/-- After a slice of time or a reset the channels on the lines have been decoded. -/
theorem quarter_after {x : Stimulus} (hx : x = .slice ∨ x = .reset) (c : ReferenceController) :
    (c.after x).tracker.quarter = (c.after x).levels.channels.quarter := by
  rcases hx with rfl | rfl
  · have he := c.encoder_step
    exact he.2.trans (congrArg (fun l : Levels => l.channels.quarter) he.1.symm)
  · rfl

end ReferenceController

namespace Words

open Mechanism

variable {c : ReferenceController} {model : Model} {xs : List Stimulus}

/-- From a state reached on, what follows is reckoned as with numbers of any size, or fails where
there is no room, but not in a billion slices. -/
theorem reckons_on (hc : afterAll (powerOn model) xs = .ok c) (ys : List Stimulus) :
    (∀ w, afterAll c ys = .error w → ¬c.RoomFor ys w) ∧
    ((xs ++ ys).count .slice ≤ 10 ^ 9 → afterAll c ys = .ok (c.afterAll ys)) ∧
    ∀ c', afterAll c ys = .ok c' → c' = c.afterAll ys := by
  obtain rfl := eq_reached_of_ok hc
  have hy := yields_afterAll (sound_reached model xs) ys
  exact ⟨fun w he => hy.not_room he,
    fun hn => hy.eq_ok fun w => (roomFor_of_count hn w).of_append, fun c' he => hy.eq_of_ok he⟩

/-- Once channels have been shown, position and clock are in their words. -/
theorem holds_of_shown {ps : List Channels} (hne : ps ≠ [])
    (h : afterAll (reached model xs) (ps.flatMap Channels.shown) = .ok c) :
    Word.signed.Holds c.tracker.position ∧ Word.clock.Holds (c.cycle : Nat) := by
  obtain ⟨ys, hys⟩ := Channels.exists_flatMap_shown hne
  rw [hys, afterAll_append] at h
  obtain ⟨c', hc', h⟩ := Word.exists_of_bind h
  rw [afterAll_singleton] at h
  obtain rfl := (yields_afterAll (sound_reached model xs) ys).eq_of_ok hc'
  exact holds_of_step ((sound_reached model xs).afterAll ys).south h

/-- Whatever has happened to a controller from power-on, after a slice of time or a reset it has
decoded the channels that it has on its lines. If then its sensors read no pole, it counts exactly
the turns of any sequence of channels of which one at most changes at a time, those to the right up
and those to the left down; its direction is that of the last turn, and as many turns to one side as
to the other leave it where it was. So, from matching channels on, it counts what the carriage of a
mechanism travels, whatever is done to the mechanism, and the rails included. It does so as long as
there is room for the position and the clock, and there is for a billion slices since power-on. -/
theorem decodes_quadrature (model : Model) (xs : List Stimulus) (x : Stimulus)
    (hx : x = .slice ∨ x = .reset) (hc : afterAll (powerOn model) (xs ++ [x]) = .ok c)
    (hu : c.Unsensed) :
    c.tracker.quarter = c.levels.channels.quarter ∧
    (∀ ps, (c.levels.channels :: ps).IsChain Channels.Adjacent →
      let shown := ps.flatMap Channels.shown
      let ds := c.levels.channels.turns ps
      (∀ w, afterAll c shown = .error w → ¬c.RoomFor shown w) ∧
      ((xs ++ [x]).count .slice + ps.length ≤ 10 ^ 9 → ∃ c', afterAll c shown = .ok c') ∧
      ∀ c', afterAll c shown = .ok c' →
        c'.tracker.count = c.tracker.count + ds.count .right - ds.count .left ∧
        c'.tracker.direction = ds.getLast?.or c.tracker.direction ∧
        (ds.count .right = ds.count .left →
          c'.tracker.position = c.tracker.position ∧ c'.tracker.quarter = c.tracker.quarter)) ∧
    (∀ s earlier hs, c.levels.channels = (handled s earlier).levels.channels →
      let m := handled s earlier
      (∀ w, afterAll c (m.showing hs) = .error w → ¬c.RoomFor (m.showing hs) w) ∧
      ((xs ++ [x]).count .slice + hs.length ≤ 10 ^ 9 → ∃ c', afterAll c (m.showing hs) = .ok c') ∧
      ∀ c', afterAll c (m.showing hs) = .ok c' →
        c'.tracker.count - c.tracker.count =
          (handled s (earlier ++ hs)).quarters - m.quarters) := by
  have hq : c.tracker.quarter = c.levels.channels.quarter := by
    rw [eq_reached_of_ok hc, reached_concat]
    exact quarter_after hx _
  refine ⟨hq, ?_, ?_⟩
  · intro ps hps shown ds
    obtain ⟨hfail, hok, heq⟩ := reckons_on hc shown
    refine ⟨hfail, fun hn => ⟨_, hok ?_⟩, fun c' he => ?_⟩
    · rwa [List.count_append, Channels.count_slice_shown]
    · have hcounted := counted_afterAll hu hq hps
      rw [heq c' he]
      exact ⟨hcounted.count_eq, hcounted.direction_eq, hcounted.returns⟩
  · intro s earlier hs hl m
    obtain ⟨hfail, hok, heq⟩ := reckons_on hc (m.showing hs)
    refine ⟨hfail, fun hn => ⟨_, hok ?_⟩, fun c' he => ?_⟩
    · rwa [List.count_append, count_slice_showing]
    · have hm : handled s (earlier ++ hs) = hs.foldl Mechanism.handle m := List.foldl_append
      rw [heq c' he, hm]
      exact count_afterAll_showing hs (Counts.handled s earlier).aligned hu (by rw [hq, hl])

/-- The encoder shakes, and a slice of time is yet to come. -/
def shaken : List Stimulus := [.raise .encoderV1 1, .slice, .raise .encoderV1 0]

/-- The channels turn to the right and back, past where they were, and return. -/
def zigzag : List Channels :=
  [⟨false, true⟩, ⟨false, false⟩, ⟨true, false⟩, ⟨true, true⟩, ⟨true, false⟩, ⟨false, false⟩]

/-- The controller follows a zigzag, and a carriage that is pushed against the left rail. -/
theorem decodes_quadrature_zigzag :
    ∃ c c' c'', afterAll (powerOn .kh930) (shaken ++ [.slice]) = .ok c ∧ c.Unsensed ∧
      (c.levels.channels :: zigzag).IsChain Channels.Adjacent ∧
      afterAll c (zigzag.flatMap Channels.shown) = .ok c' ∧
      c'.tracker.position = c.tracker.position ∧ c'.tracker.direction = some .right ∧
      afterAll c ((handled .standard []).showing (List.replicate 20 (.move .left))) = .ok c'' ∧
      c''.tracker.count - c.tracker.count = -16 := by
  have hc : afterAll (powerOn .kh930) (shaken ++ [.slice]) =
      .ok (reached .kh930 (shaken ++ [.slice])) :=
    (yields_reached .kh930 _).eq_ok (roomFor_of_count (by decide))
  have hu : (reached .kh930 (shaken ++ [.slice])).Unsensed := unsensed_of_idle (by decide)
  have hz : ((reached .kh930 (shaken ++ [.slice])).levels.channels :: zigzag).IsChain
      Channels.Adjacent := by decide
  obtain ⟨-, hturns, hfed⟩ := decodes_quadrature .kh930 shaken .slice (Or.inl rfl) hc hu
  obtain ⟨-, hok, hcounts⟩ := hturns zigzag hz
  obtain ⟨c', hc'⟩ := hok (by decide)
  obtain ⟨-, hd, hback⟩ := hcounts c' hc'
  obtain ⟨-, hok, hcounts⟩ := hfed .standard [] (List.replicate 20 (.move .left)) rfl
  obtain ⟨c'', hc''⟩ := hok (by decide)
  have hq : (handled .standard (List.replicate 20 (.move .left))).quarters -
      (handled .standard []).quarters = -16 := by
    rw [(Counts.handled .standard _).quarters_eq, (Counts.handled .standard []).quarters_eq]
    decide +kernel
  exact ⟨_, c', c'', hc, hu, hz, hc', (hback (by decide)).1, hd.trans (by decide), hc'',
    (hcounts c'' hc'').trans hq⟩

/-- Pushed to the right for long enough, the carriage is where its position has no room. -/
theorem afterAll_rightward {k : Nat} (hk : 2 ^ 33 ≤ k) (hk' : k ≤ 10 ^ 14) :
    afterAll (reached .kh930 [.slice])
      ((Channels.rightward ⟨false, false⟩ k).flatMap Channels.shown) = .error .signed := by
  have hlength := Channels.length_rightward ⟨false, false⟩ k
  have hturns := Channels.turns_rightward ⟨false, false⟩ k
  have hchain := Channels.isChain_rightward ⟨false, false⟩ k
  generalize Channels.rightward ⟨false, false⟩ k = ps at hlength hturns hchain ⊢
  have hy := yields_afterAll (sound_reached .kh930 [.slice]) (ps.flatMap Channels.shown)
  rcases hy with hok | ⟨w, he, hr⟩
  · have hne : ps ≠ [] := by
      rintro rfl
      rw [List.length_nil] at hlength
      omega
    have hcounted := (counted_afterAll (c := reached .kh930 [.slice]) (unsensed_of_idle (by decide))
      (by decide) hchain).count_eq
    have hl : (reached .kh930 [.slice]).levels.channels = ⟨false, false⟩ := by decide
    have hstart : (reached .kh930 [.slice]).tracker.count = 0 := by decide
    rw [hl, hturns, hstart, List.count_replicate_self, List.count_replicate, if_neg (by decide)]
      at hcounted
    have hlt := (holds_of_shown hne hok).1.2
    rw [Tracker.position_eq, hcounted] at hlt
    change _ < 2 ^ 31 at hlt
    omega
  · rcases signed_or_clock hr with rfl | rfl
    · exact he
    · have hcount : (Stimulus.slice :: ps.flatMap Channels.shown).count Stimulus.slice = k + 1 := by
        rw [List.count_cons_self, Channels.count_slice_shown, hlength]
      have hclock : (powerOn .kh930).RoomFor (.slice :: ps.flatMap Channels.shown) .clock :=
        roomFor_clock (by omega)
      have hrest : (reached .kh930 [.slice]).RoomFor (ps.flatMap Channels.shown) .clock :=
        RoomFor.of_append hclock
      exact absurd hrest hr

/-- Standing still for long enough, the carriage is where it was, but the clock has no room. -/
theorem afterAll_replicate {n : Nat} (hn : 461168601842738 ≤ n) (p : Channels) (c) :
    afterAll (reached .kh930 [.slice]) ((List.replicate n p).flatMap Channels.shown) ≠ .ok c := by
  intro hok
  have hne : List.replicate n p ≠ [] := by
    rw [ne_eq, List.replicate_eq_nil_iff]
    omega
  have hlt := (holds_of_shown hne hok).2.2
  have hm := (measured_reached .kh930
    ([.slice] ++ (List.replicate n p).flatMap Channels.shown)).cycle_eq
  rw [reached_append, List.count_append, Channels.count_slice_shown, List.length_replicate,
    ← (yields_afterAll (sound_reached .kh930 [.slice]) _).eq_of_ok hok] at hm
  change c.cycle = 40000 * (1 + n) at hm
  change _ < 2 ^ 64 at hlt
  omega

/-- A controller that has had a slice of time and sees no pole: the carriage is pushed to the right
over more needles than its position has room for, or the encoder stands still for longer than the
clock goes. -/
theorem outgrown_rightward :
    let c := reached .kh930 [.slice]
    afterAll (powerOn .kh930) [.slice] = .ok c ∧ c.Unsensed ∧
      (c.levels.channels :: Channels.rightward ⟨false, false⟩ (2 ^ 33)).IsChain Channels.Adjacent ∧
      afterAll c ((Channels.rightward ⟨false, false⟩ (2 ^ 33)).flatMap Channels.shown) =
        .error .signed ∧
      ∀ c', afterAll c ((List.replicate 461168601842738 c.levels.channels).flatMap
        Channels.shown) ≠ .ok c' := by
  intro c
  have hl : c.levels.channels = ⟨false, false⟩ := by decide
  refine ⟨(yields_reached .kh930 [.slice]).eq_ok (roomFor_of_count (by decide)),
    unsensed_of_idle (by decide), ?_, afterAll_rightward (Nat.le_refl _) (by decide),
    afterAll_replicate (Nat.le_refl _) _⟩
  rw [hl]
  exact Channels.isChain_rightward _ _

end Words

end KnitBench
