import KnitBench.Proofs.Controller.Detection

/-! When the tracker tells the carriage, without resets, by the places at which its sensors have
been read. Once they have been read at the magnet that tells the carriage from all others, it is
known, unless it is a garter carriage that strayed between its two magnets: that one passes for a
lace carriage for good. -/

namespace KnitBench

open ReferenceController

namespace Setup

/-- Among the places where the carriage has been, in order, is one too far outside for a north pole
to belong to the south pole, behind the first magnet and not behind the telling one. -/
def Strays (s : Setup) (places : List Int) : Prop :=
  ∃ before p after, places = before ++ p :: after ∧ s.firstMagnet ∈ before ∧
    s.tellingMagnet ∉ before ∧ (Tracker.pairingReach : Int) < s.shortOf p s.firstMagnet

instance (s : Setup) (places : List Int) : Decidable (s.Strays places) :=
  decidable_of_iff (∃ n : Fin places.length, s.firstMagnet ∈ places.take n ∧
      s.tellingMagnet ∉ places.take n ∧
      (Tracker.pairingReach : Int) < s.shortOf places[n] s.firstMagnet) <| by
    constructor
    · rintro ⟨n, h⟩
      exact ⟨places.take n, places[n], places.drop (n + 1), by simp, h⟩
    · rintro ⟨before, p, after, rfl, h⟩
      exact ⟨⟨before.length, by simp⟩, by simpa using h⟩

variable {s : Setup} {places : List Int} {p : Int}

theorem strays_concat : s.Strays (places ++ [p]) ↔ s.Strays places ∨
    (s.firstMagnet ∈ places ∧ s.tellingMagnet ∉ places ∧
      (Tracker.pairingReach : Int) < s.shortOf p s.firstMagnet) := by
  constructor
  · rintro ⟨before, q, after, he, hf, ht, hq⟩
    rcases List.eq_nil_or_concat after with rfl | ⟨after, q', rfl⟩
    · obtain ⟨rfl, hpq⟩ := List.append_inj' he rfl
      obtain rfl := List.singleton_inj.mp hpq
      exact Or.inr ⟨hf, ht, hq⟩
    · have he : places ++ [p] = (before ++ q :: after) ++ [q'] := by simpa using he
      exact Or.inl ⟨before, q, after, (List.append_inj' he rfl).1, hf, ht, hq⟩
  · rintro (⟨before, q, after, rfl, h⟩ | h)
    · exact ⟨before, q, after ++ [p], by simp, h⟩
    · exact ⟨places, p, [], rfl, h⟩

theorem Strays.firstMagnet_mem (h : s.Strays places) : s.firstMagnet ∈ places := by
  obtain ⟨before, p, after, rfl, hf, -⟩ := h
  exact List.mem_append_left _ hf

/-- Behind the telling magnet the carriage does not stray any more. -/
theorem strays_append (h : s.tellingMagnet ∈ places) (more : List Int) :
    s.Strays (places ++ more) ↔ s.Strays places := by
  induction more generalizing places with
  | nil => rw [List.append_nil]
  | cons p more ih =>
    rw [← List.singleton_append, ← List.append_assoc, ih (List.mem_append_left _ h), strays_concat]
    exact or_iff_left fun hp => hp.2.1 h

/-- A carriage that comes to the telling magnet does not stray there. -/
theorem strays_stood (places later : List Int) :
    s.Strays (places ++ s.tellingMagnet :: later) ↔ s.Strays places := by
  have hnear : ¬ (Tracker.pairingReach : Int) < s.shortOf s.tellingMagnet s.firstMagnet := by
    unfold Tracker.pairingReach tellingMagnet firstMagnet
    cases hc : s.carriage <;> cases hs : s.side <;> simp only [shortOf, hs] <;> omega
  rw [List.append_cons, strays_append (by simp), strays_concat]
  exact or_iff_left fun h => hnear h.2.2

end Setup

namespace ReferenceController.Tracker

variable {s : Setup} {t : Tracker} {l : Levels} {places : List Int} {pending : Prop} {x y : Int}

/-- What the tracker knows at travel `x` when its sensors have been read at some places, with or
without the reading at hand. -/
inductive Recognition (s : Setup) (places : List Int) (pending : Prop) (x : Int) (t : Tracker) :
    Prop
  | unseen (hf : s.firstMagnet ∉ places) (ht : s.tellingMagnet ∉ places)
      (hc : t.carriage = none) (hs : t.southSeen = none) (hb : Before s pending s.firstMagnet x t)
  | half (hg : s.carriage = .garter) (hf : s.firstMagnet ∈ places) (ht : s.tellingMagnet ∉ places)
      (hn : ¬ s.Strays places) (hc : t.carriage = some .lace)
      (hs : t.southSeen = some (s.side, s.firstMagnet + halfShift s))
      (hp : t.position = x / 4 + halfShift s) (hb : Before s pending s.tellingMagnet x t)
  | lost (hg : s.carriage = .garter) (hn : s.Strays places) (hc : t.carriage = some .lace)
      (hs : t.southSeen = none)
  | seen (ht : s.tellingMagnet ∈ places) (hn : ¬ s.Strays places)
      (hc : t.carriage = some s.carriage) (hp : t.position = x / 4)

theorem tellingMagnet_eq (h : s.carriage ≠ .garter) : s.tellingMagnet = s.firstMagnet := by
  unfold Setup.tellingMagnet
  split
  · exact absurd ‹_› h
  · exact absurd ‹_› h
  · rfl

/-- Outside its first magnet a carriage is at none of the two. -/
theorem ne_of_shortOf (h : 0 < s.shortOf x (s.arrival s.firstMagnet)) :
    x / 4 ≠ s.firstMagnet ∧ x / 4 ≠ s.tellingMagnet := by
  unfold Setup.tellingMagnet Setup.firstMagnet at *
  cases hc : s.carriage <;> cases hs : s.side <;>
    simp only [Setup.shortOf, Setup.arrival, hc, hs] at h ⊢ <;> omega

theorem tellingMagnet_ne (h : s.carriage = .garter) : s.tellingMagnet ≠ s.firstMagnet := by
  unfold Setup.tellingMagnet Setup.firstMagnet
  cases s.side <;> rw [h] <;> dsimp only <;> omega

theorem not_before_arrival {p : Int} : ¬ Before s False p (s.arrival p) t := by
  rintro (h | ⟨h, -⟩)
  · unfold Setup.shortOf at h
    cases hs : s.side <;> simp only [hs] at h <;> omega
  · exact h

/-- The first reading at the first magnet. -/
theorem recognition_first (hf : s.firstMagnet ∉ places) (ht : s.tellingMagnet ∉ places)
    (hc : t.carriage = none) (hs : t.southSeen = none)
    (hd : t.direction = some s.side.firstDirection) :
    let p := s.firstMagnet
    Recognition s (places ++ [p]) False (s.arrival p)
      (t.sense s.model (Mechanism.hallAt s p)).value := by
  intro p
  have hmem : s.firstMagnet ∈ places ++ [p] := by simp [p]
  have hn : ¬ s.Strays (places ++ [p]) := by
    rw [Setup.strays_concat]
    rintro (h | ⟨h, -⟩)
    · exact hf h.firstMagnet_mem
    · exact hf h
  have hv : (t.sense s.model (Mechanism.hallAt s p)).value =
      (t.meet s.model s.side (firstPole s)).value := by
    rw [value_sense, forgetSouth_of_none hs, signal_firstMagnet]
    rfl
  rw [hv]
  have hl : Located s True False (s.arrival p) (t.meet s.model s.side (firstPole s)).value :=
    located_meet_first hc hd
  cases hl with
  | unseen _ _ hb =>
    rcases hb with ⟨hn, -⟩ | hb
    · exact absurd trivial hn
    · exact absurd hb not_before_arrival
  | half hg hc hs hp hb =>
    exact .half hg hmem (by simpa using ⟨ht, tellingMagnet_ne hg⟩) hn hc hs hp hb
  | lost _ _ _ hn => exact absurd trivial hn
  | seen hc' hp =>
    have hg : s.carriage ≠ .garter := fun hg => by
      have hm : s.model ≠ .kh270 := fun hm => by
        have hr := s.runs_cases
        simp [hm, hg] at hr
      rw [firstPole, hg, value_meet_south hc hm] at hc'
      cases hc'
    rw [← tellingMagnet_eq hg] at hmem
    exact .seen hmem hn hc' hp

/-- Before its second magnet a garter carriage strays on the outside only. -/
theorem reach_lt_iff {pending : Prop} (hg : s.carriage = .garter)
    (hb : Before s pending s.tellingMagnet x t) :
    (pairingReach : Int) < s.shortOf (x / 4) s.firstMagnet ↔
      3 < (x / 4 - s.firstMagnet).natAbs := by
  have hx : 0 < s.shortOf x (s.arrival s.tellingMagnet) ∨ x = s.arrival s.tellingMagnet :=
    hb.imp_right fun h => h.2.1
  unfold pairingReach
  cases hs : s.side <;>
    simp only [Setup.shortOf, Setup.arrival, Setup.tellingMagnet, Setup.firstMagnet, hg,
      hs] at hx ⊢ <;> omega

theorem ne_tellingMagnet (h : 0 < s.shortOf x (s.arrival s.tellingMagnet)) :
    x / 4 ≠ s.tellingMagnet := by
  unfold Setup.shortOf Setup.arrival at h
  cases hs : s.side <;> simp only [hs] at h <;> omega

/-- A reading behind the first magnet of a garter carriage that has not strayed. -/
theorem recognition_half (hg : s.carriage = .garter) (hf : s.firstMagnet ∈ places)
    (ht : s.tellingMagnet ∉ places) (hn : ¬ s.Strays places) (hc : t.carriage = some .lace)
    (hs : t.southSeen = some (s.side, s.firstMagnet + halfShift s))
    (hp : t.position = x / 4 + halfShift s) (hb : Before s True s.tellingMagnet x t) :
    Recognition s (places ++ [x / 4]) False x
      (t.sense s.model (Mechanism.hallAt s (x / 4))).value := by
  have hf' : s.firstMagnet ∈ places ++ [x / 4] := List.mem_append_left _ hf
  by_cases hfar : 3 < (x / 4 - s.firstMagnet).natAbs
  · have hn' : s.Strays (places ++ [x / 4]) :=
      Setup.strays_concat.mpr (Or.inr ⟨hf, ht, (reach_lt_iff hg hb).mpr hfar⟩)
    rw [value_sense_astray hc hs hp hfar]
    exact .lost hg hn' hc rfl
  · have hn' : ¬ s.Strays (places ++ [x / 4]) := by
      rw [Setup.strays_concat]
      rintro (h | ⟨-, -, h⟩)
      · exact hn h
      · exact hfar ((reach_lt_iff hg hb).mp h)
    rcases hb with hb | ⟨-, hx, hd⟩
    · have ht' : s.tellingMagnet ∉ places ++ [x / 4] := by
        simpa using ⟨ht, (ne_tellingMagnet hb).symm⟩
      rw [value_sense_between hc hs hp hg hfar hb]
      exact .half hg hf' ht' hn' hc hs hp (Or.inl hb)
    · have ht' : s.tellingMagnet ∈ places ++ [x / 4] := by simp [hx, arrival_div]
      rw [value_sense_second hc hs hp hg hx hd]
      exact .seen ht' hn' (by rw [hg]) rfl

/-- What a reading of the sensors tells. -/
theorem recognition_sense (h : Recognition s places True x t) :
    Recognition s (places ++ [x / 4]) False x
      (t.sense s.model (Mechanism.hallAt s (x / 4))).value := by
  cases h with
  | unseen hf ht hc hs hb =>
    rcases hb with hb | ⟨-, rfl, hd⟩
    · obtain ⟨hnf, hnt⟩ := ne_of_shortOf hb
      rw [value_sense, forgetSouth_of_none hs, signal_eq_none hb]
      refine .unseen ?_ ?_ hc hs (Or.inl hb)
      · simpa using ⟨hf, hnf.symm⟩
      · simpa using ⟨ht, hnt.symm⟩
    · rw [arrival_div]
      exact recognition_first hf ht hc hs hd
  | half hg hf ht hn hc hs hp hb => exact recognition_half hg hf ht hn hc hs hp hb
  | lost hg hn hc hs =>
    have hn' : s.Strays (places ++ [x / 4]) := Setup.strays_concat.mpr (Or.inl hn)
    rw [value_sense, forgetSouth_of_none hs]
    cases s.signal (x / 4) with
    | none => exact .lost hg hn' hc hs
    | some sensed =>
      simp only [Option.elim_some]
      rw [value_meet_lace hc (Or.inr fun a => by simp [hs])]
      exact .lost hg hn' hc hs
  | seen ht hn hc hp =>
    obtain ⟨south, hs⟩ := exists_value_sense hc (x / 4)
    rw [hs]
    refine .seen (List.mem_append_left _ ht) ?_ hc hp
    rwa [Setup.strays_append ht]

/-- A step of the encoder leaves what is known. -/
theorem recognition_decode (h : Recognition s places False x t)
    (hq : (t.quarter.val : Int) = x % 4) (hl : ((Levels.quarter l.v1 l.v2).val : Int) = y % 4)
    (hy : y = x ∨ y = x + 1 ∨ y = x - 1) :
    Recognition s places True y (t.decode l).value := by
  rw [value_decode hq hl hy]
  cases h with
  | unseen hf ht hc hs hb => exact .unseen hf ht hc hs (hb.decode hy rfl)
  | half hg hf ht hn hc hs hp hb =>
    exact .half hg hf ht hn hc hs (by dsimp only; omega) (hb.decode hy rfl)
  | lost hg hn hc hs => exact .lost hg hn hc hs
  | seen ht hn hc hp => exact .seen ht hn hc (by dsimp only; omega)

/-- What a slice of time makes known: its sensors are read where the carriage has been before. -/
theorem recognition_track (h : Recognition s places True x t) (hq : (t.quarter.val : Int) = x % 4)
    (hl : ((Levels.quarter l.v1 l.v2).val : Int) = y % 4) (hy : y = x ∨ y = x + 1 ∨ y = x - 1) :
    Recognition s (places ++ [x / 4]) True y
      (t.track s.model l (Mechanism.hallAt s (x / 4))).value := by
  have hd := recognition_decode (recognition_sense h) (by rw [(encoder_sense ..).1, hq]) hl hy
  obtain ⟨b, hb⟩ := t.exists_value_track s.model l (Mechanism.hallAt s (x / 4))
  rw [hb]
  cases hd with
  | unseen hf ht hc hs hb => exact .unseen hf ht hc hs hb
  | half hg hf ht hn hc hs hp hb => exact .half hg hf ht hn hc hs hp hb
  | lost hg hn hc hs => exact .lost hg hn hc hs
  | seen ht hn hc hp => exact .seen ht hn hc hp

theorem recognition_initial (s : Setup) : Recognition s [] True (4 * s.initialPosition) {} := by
  have h := shortOf_initialPosition s
  exact .unseen (by simp) (by simp) rfl rfl (Or.inl (by omega))

end ReferenceController.Tracker

end KnitBench
