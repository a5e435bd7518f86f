import KnitBench.Proofs.Controller.Finish
import KnitBench.Proofs.Controller.Words

/-! What the reference controller reckons in machine words is what it reckons with numbers of any
size, as long as there is room for the clock and for what is reckoned from the position of the
carriage: one lemma for each of its operations. -/

namespace KnitBench

namespace ReferenceController

namespace Tracker

variable {t : Tracker} {m : Model} {sensor : Side} {level : UInt16} {hall : HallReading}
  {l : Levels} {k : Nat}

/-- Meeting a pole changes nothing, or has a carriage detected. Only a lace carriage leaves a south
pole behind, where it is detected. -/
theorem value_meet_eq (t : Tracker) (m : Model) (sensor : Side) (pole : Pole) :
    (t.meet m sensor pole).value = t ∨
      ∃ c south, (t.meet m sensor pole).value = { t with
          position := anchor m c sensor t.direction
          carriage := some c
          belt := none
          southSeen := south } ∧
        (south = t.southSeen ∨ south = none ∨
          c = .lace ∧ south = some (sensor, anchor m c sensor t.direction)) := by
  cases h : t.carriage with
  | none =>
    cases pole with
    | north => exact Or.inr ⟨_, t.southSeen, value_meet_north h, Or.inl rfl⟩
    | south =>
      by_cases hm : m = .kh270
      · left
        simp [meet, h, hm]
      · exact Or.inr ⟨_, _, value_meet_south h hm, Or.inr (Or.inr ⟨rfl, rfl⟩)⟩
  | some c =>
    by_cases hc : c = .lace
    · subst hc
      cases pole with
      | south => exact Or.inl (value_meet_lace h (Or.inl rfl))
      | north =>
        by_cases hs : ∃ a, t.southSeen = some (sensor, a)
        · obtain ⟨a, hs⟩ := hs
          exact Or.inr ⟨_, none, value_meet_pair h hs, Or.inr (Or.inl rfl)⟩
        · exact Or.inl (value_meet_lace h (Or.inr fun a ha => hs ⟨a, ha⟩))
    · exact Or.inl (value_meet_known h hc)

/-- A carriage is told near an end of the bed. -/
theorem natAbs_anchor_le (m : Model) (c : Carriage) (sensor : Side) (d : Option Direction) :
    (anchor m c sensor d).natAbs ≤ 264 := by
  unfold anchor
  have hn := m.needleCount_lt
  cases c <;> cases sensor <;> dsimp only <;> omega

theorem anchor_lace (m : Model) (sensor : Side) (d : Option Direction) :
    0 ≤ anchor m .lace sensor d ∧ anchor m .lace sensor d ≤ 256 := by
  have h₀ := m.needleCount_pos
  have h₁ := m.needleCount_lt
  unfold anchor
  cases sensor <;> dsimp only <;> omega

/-- The selector is not far from the carriage. -/
theorem natAbs_selected_le (t : Tracker) (c : Carriage) (d : Direction) :
    (t.selected c d).natAbs ≤ t.position.natAbs + 24 := by
  unfold selected Carriage.selectOffset
  cases c <;> cases d <;> simp only [Carriage.homePosition, Direction.step] <;> omega

/-- A south pole that is remembered was met at an end of the bed. -/
def SouthNear (t : Tracker) : Prop := ∀ side a, t.southSeen = some (side, a) → 0 ≤ a ∧ a ≤ 256

/-- What is reckoned from the position fits its word, and still does `k` needles on. The margins are
more than the length of a bed. The phase of the belt is four times as large as the position, and is
reckoned only while the belt is still to be told. -/
structure InReach (m : Model) (k : Nat) (t : Tracker) : Prop where
  position : t.position.natAbs + k ≤ 2 ^ 31 - 511
  phase : t.carriage.isSome → t.belt = none → m ≠ .kh270 → t.position.natAbs + k ≤ 2 ^ 29 - 63

theorem InReach.forgetSouth (h : t.InReach m k) : t.forgetSouth.InReach m k := by
  obtain ⟨south, hf⟩ := exists_forgetSouth t
  rw [hf]
  exact ⟨h.position, h.phase⟩

theorem InReach.readSensor (h : t.InReach m k) (hk : k ≤ 64) :
    (t.readSensor m sensor level).value.InReach m k := by
  unfold Tracker.readSensor
  cases Pole.ofLevel m sensor level with
  | none => exact h
  | some pole =>
    rw [Option.elim_some]
    rcases value_meet_eq t m sensor pole with hv | ⟨c, south, hv, -⟩
    · rw [hv]
      exact h
    · rw [hv]
      have ha := natAbs_anchor_le m c sensor t.direction
      constructor
      · dsimp only
        omega
      · intros
        dsimp only
        omega

theorem InReach.sense (h : t.InReach m k) (hk : k ≤ 64) :
    (t.sense m hall).value.InReach m k :=
  (h.forgetSouth.readSensor hk).readSensor hk

theorem InReach.decode (h : t.InReach m (k + 1)) : (t.decode l).value.InReach m k := by
  have hp := h.position
  rcases value_decode_cases t l with ⟨quarter, hv⟩ | ⟨quarter, d, position, hv, hd⟩
  · rw [hv]
    constructor
    · dsimp only
      omega
    · intro hc ht hm
      have hb := h.phase hc ht hm
      dsimp only
      omega
  · rw [hv]
    have hs : d.step = 1 ∨ d.step = -1 := by cases d <;> decide
    constructor
    · dsimp only
      omega
    · intro hc ht hm
      have hb := h.phase hc ht hm
      dsimp only
      omega

theorem InReach.position_track (h : t.InReach m 1) :
    (t.track m l hall).value.position.natAbs ≤ 2 ^ 31 - 511 := by
  obtain ⟨belt, ht⟩ := t.exists_value_track m l hall
  rw [ht]
  exact (h.sense (by decide)).decode.position

theorem SouthNear.forgetSouth (h : t.SouthNear) : t.forgetSouth.SouthNear := by
  unfold Tracker.forgetSouth
  split
  · split
    · nofun
    · exact h
  · exact h

theorem SouthNear.readSensor (h : t.SouthNear) : (t.readSensor m sensor level).value.SouthNear := by
  unfold Tracker.readSensor
  cases Pole.ofLevel m sensor level with
  | none => exact h
  | some pole =>
    rw [Option.elim_some]
    rcases value_meet_eq t m sensor pole with hv | ⟨c, south, hv, rfl | rfl | ⟨rfl, rfl⟩⟩
    · rw [hv]
      exact h
    · rw [hv]
      exact h
    · rw [hv]
      nofun
    · rw [hv]
      rintro side a ⟨⟩
      exact anchor_lace ..

theorem SouthNear.track (h : t.SouthNear) : (t.track m l hall).value.SouthNear := by
  have hs : (t.sense m hall).value.SouthNear := h.forgetSouth.readSensor.readSensor
  obtain ⟨belt, ht⟩ := t.exists_value_track m l hall
  rw [ht]
  rcases value_decode_cases (t.sense m hall).value l with
    ⟨quarter, hv⟩ | ⟨quarter, d, position, hv, -⟩
  · rw [hv]
    exact hs
  · rw [hv]
    exact hs

end Tracker

end ReferenceController

namespace Words

open ReferenceController Message

variable {room : Word → Prop} {t : Tracker} {m : Model} {l : Levels} {hall : HallReading}
  {sensor : Side} {level : UInt16} {c : ReferenceController} {carriage : Carriage} {d : Direction}

theorem yields_forgetSouth (hs : t.SouthNear)
    (hp : room .signed → t.position.natAbs < 2 ^ 31 - 511) :
    Yields room (forgetSouth t) t.forgetSouth := by
  cases h : t.southSeen with
  | none =>
    rw [Tracker.forgetSouth_of_none h, forgetSouth, h]
    exact .pure t
  | some seen =>
    obtain ⟨side, seenAt⟩ := seen
    have ha := hs side seenAt h
    have near (hr : room .signed) : (t.position - seenAt).natAbs < 2 ^ 31 := by
      have h := hp hr
      omega
    rw [Tracker.forgetSouth_of_some h, forgetSouth, h]
    refine .bind (.signed fun hr => ?_) (.bind (.signed fun hr => ?_) ?_)
    · have hn := near hr
      omega
    · have hn := near hr
      omega
    · have hreach : (Tracker.pairingReach : Int) < (t.position - seenAt).natAbs ↔
          3 < (t.position - seenAt).natAbs := Nat.cast_lt
      simp only [hreach]
      exact .pure _

theorem yields_readSensor (hp : room .signed → t.InReach m 1) :
    Yields room (readSensor m sensor level t) (t.readSensor m sensor level).value := by
  refine .bind (.signed fun hr => ?_) (.pure _)
  have h : (t.readSensor m sensor level).value.InReach m 1 := (hp hr).readSensor (by decide)
  have hn := h.position
  omega

theorem yields_sense (hs : t.SouthNear) (hp : room .signed → t.InReach m 1) :
    Yields room (sense m hall t) (t.sense m hall).value :=
  .bind (yields_forgetSouth hs fun hr => (hp hr).position) <|
    .bind (yields_readSensor fun hr => (hp hr).forgetSouth) <|
      yields_readSensor fun hr => (hp hr).forgetSouth.readSensor (by decide)

theorem yields_decode (hp : room .signed → t.position.natAbs < 2 ^ 31 - 511) :
    Yields room (decode l t) (t.decode l).value := by
  have hsub : ∀ q r : Fin 4, (((q.val + 4 : Int) - r.val) % 4).toNat = (q - r).val := by decide
  have hquarter : ∀ q r : Fin 4,
      q = r ∧ q - r = 0 ∨ q - r = 1 ∨ q - r = 2 ∨ q - r = 3 := by decide
  unfold decode Tracker.decode
  dsimp only
  generalize Levels.quarter l.v1 l.v2 = q
  have hq := q.isLt
  have ht := t.quarter.isLt
  refine .bind (.byte (by omega) (by omega)) (.bind (.byte (by omega) (by omega)) ?_)
  rw [hsub]
  -- Two steps away the code cannot tell which way the carriage went, and leaves the count alone.
  rcases hquarter q t.quarter with ⟨rfl, h⟩ | h | h | h
  · rw [h]
    exact .pure t
  · rw [h]
    refine .bind (.signed fun hr => ?_) (.pure _)
    have hn := hp hr
    split <;> omega
  · rw [h]
    exact .pure _
  · rw [h]
    refine .bind (.signed fun hr => ?_) (.pure _)
    have hn := hp hr
    split <;> omega

theorem yields_expectedBelt (hp : room .signed → t.position.natAbs ≤ 2 ^ 29 - 63) {shift : Nat}
    (hs : shift ≤ 8) :
    Yields room (expectedBelt m carriage shift t) (t.expectedBelt m carriage shift) := by
  have hh := carriage.homePosition_bounds
  have ht := t.quarter.isLt
  have hcycle : (0 : Int) < (4 * m.solenoidCount : Nat) ∧
      ((4 * m.solenoidCount : Nat) : Int) ≤ 64 := by
    obtain h | h := m.solenoidCount_cases <;> omega
  unfold expectedBelt Tracker.expectedBelt beltLevel
  refine .bind (.signed fun hr => ?_) (.bind (.signed fun hr => ?_) (.bind (.signed fun hr => ?_)
    (.bind (.signed fun hr => ?_) ?_)))
  · have hn := hp hr
    omega
  · have hn := hp hr
    omega
  · have hn := hp hr
    omega
  · have hn := hp hr
    omega
  · dsimp only
    generalize 4 * (t.position - carriage.homePosition - shift) + (t.quarter.val : Int) = quarters
    have h₀ := Int.emod_nonneg quarters hcycle.1.ne'
    have h₁ := Int.emod_lt_of_pos quarters hcycle.1
    generalize quarters % ((4 * m.solenoidCount : Nat) : Int) = phase at h₀ h₁ ⊢
    have hl : (phase + beltLead).toNat = phase.toNat + beltLead := by omega
    refine .bind (.full (by omega) (by unfold beltLead; omega)) ?_
    rw [hl]
    exact .pure _

theorem yields_inferBelt (hp : room .signed → t.InReach m 0) (level : Bool) :
    Yields room (inferBelt m level t) (t.inferBelt m level).value := by
  have hn : m.solenoidCount / 2 ≤ 8 := by
    obtain h | h := m.solenoidCount_cases <;> omega
  unfold inferBelt Tracker.inferBelt
  cases hc : t.carriage with
  | none => exact .pure t
  | some c =>
    cases hb : t.belt with
    | some b => exact .pure t
    | none =>
      dsimp only
      by_cases hm : m = .kh270
      · rw [if_pos hm, if_pos hm]
        exact .pure t
      · have hp' (hr : room .signed) : t.position.natAbs ≤ 2 ^ 29 - 63 :=
          (hp hr).phase (Option.isSome_of_eq_some hc) hb hm
        rw [if_neg hm, if_neg hm]
        refine .bind (yields_expectedBelt hp' (Nat.zero_le 8))
          (.bind (yields_expectedBelt hp' hn) ?_)
        cases t.expectedBelt m c 0 == level <;>
          cases t.expectedBelt m c (m.solenoidCount / 2) == level <;> exact .pure _

theorem yields_track (hs : t.SouthNear) (hp : room .signed → t.InReach m 1) :
    Yields room (track m l hall t) (t.track m l hall).value := by
  have hsense (hr : room .signed) : (t.sense m hall).value.InReach m 1 := (hp hr).sense (by decide)
  exact .bind (yields_sense hs hp) (.bind (yields_decode fun hr => (hsense hr).position)
    (yields_inferBelt (fun hr => (hsense hr).decode) _))

theorem yields_selected (hp : room .signed → t.position.natAbs ≤ 2 ^ 31 - 511) :
    Yields room (Word.signed.hold (t.selected carriage d)) (t.selected carriage d) := by
  have hs := t.natAbs_selected_le carriage d
  refine .signed fun hr => ?_
  have h := hp hr
  omega

theorem yields_workLine (hp : room .signed → c.tracker.position.natAbs ≤ 2 ^ 31 - 511) :
    Yields room (workLine c) c.workLine.value := by
  by_cases hk : c.mode = .knitting ∧ c.line.ready = true
  · cases hc : c.tracker.carriage with
    | none =>
      rw [workLine, ReferenceController.workLine, if_pos hk, if_pos hk, hc]
      exact .pure c
    | some carriage =>
      cases hd : c.tracker.direction with
      | none =>
        rw [workLine, ReferenceController.workLine, if_pos hk, if_pos hk, hc, hd]
        exact .pure c
      | some d =>
        rw [value_workLine hk.1 hk.2 hc hd, workLine, if_pos hk, hc, hd]
        exact .bind (yields_selected hp) (.pure _)
  · rw [workLine, ReferenceController.workLine, if_neg hk, if_neg hk]
    exact .pure c

theorem yields_wrapped (m : Model) {needle first second : Int}
    (hp : room .signed → needle.natAbs < 2 ^ 31 - 16) (h₁ : 0 ≤ first ∧ first ≤ 8)
    (h₂ : 0 ≤ second ∧ second ≤ 8) :
    Yields room (wrapped m needle first second)
      ((needle + (first + second)) % m.solenoidCount).toNat := by
  rw [← Int.add_assoc]
  refine .bind (.signed fun hr => ?_) (.bind (.signed fun hr => ?_) (.pure _))
  · have h := hp hr
    omega
  · have h := hp hr
    omega

theorem yields_armatureIndex (m : Model) (carriage : Carriage) (belt : BeltPhase) (d : Direction)
    {needle : Int} (hp : room .signed → needle.natAbs < 2 ^ 31 - 16) :
    Yields room (armatureIndex carriage m belt d needle)
      (carriage.armatureIndex m belt d needle) := by
  have hhalf (p : Prop) [Decidable p] :
      let shift : Int := if p then ((m.solenoidCount / 2 : Nat) : Int) else 0
      0 ≤ shift ∧ shift ≤ 8 := by
    obtain h | h := m.solenoidCount_cases <;> split <;> omega
  unfold armatureIndex Carriage.armatureIndex Carriage.armatureShift
  cases m with
  | kh270 => exact yields_wrapped .kh270 hp (by decide) (hhalf _)
  | kh910 => exact yields_wrapped .kh910 hp (hhalf _) (hhalf _)
  | kh930 => exact yields_wrapped .kh930 hp (hhalf _) (hhalf _)

theorem yields_single {i : Nat} (hi : i < 16) : Yields room (single i) (1#16 <<< i) :=
  .bind (.place (Int.natCast_nonneg i) (by omega)) (.pure _)

theorem yields_power {needle : Int} (hp : room .signed → needle.natAbs < 2 ^ 31 - 16)
    (r : Register) :
    Yields room (power c carriage d needle r)
      (if c.wants needle then
        r.put (c.model.registerBit (c.solenoidFor carriage d needle)) false
      else r) := by
  have hb : c.model.registerBit (c.solenoidFor carriage d needle) < 16 :=
    Model.registerBit_lt (c.solenoidFor_lt carriage d needle)
  unfold power
  split
  · refine .bind (a := c.solenoidFor carriage d needle) (yields_armatureIndex _ _ _ _ hp) ?_
    exact .bind (.half (by omega) (by omega)) (.bind (yields_single hb) (.pure _))
  · exact .pure r

theorem yields_lineRegister (hp : room .signed → c.tracker.position.natAbs ≤ 2 ^ 31 - 511) :
    Yields room (lineRegister c carriage d) (c.lineRegister carriage d) := by
  have hn : c.model.solenoidCount ≤ 16 := c.model.solenoidCount_le
  have hs := c.tracker.natAbs_selected_le carriage d
  have needle (i : Nat) (hi : i < c.model.solenoidCount) :
      c.tracker.selected carriage d + d.step + i * d.step = c.windowNeedle carriage d i ∧
        (c.windowNeedle carriage d i).natAbs ≤ c.tracker.position.natAbs + 40 := by
    unfold windowNeedle
    cases d <;> simp only [Direction.step] at hs ⊢ <;> omega
  refine .bind (yields_selected hp) (.bind (.signed fun hr => ?_) (.bind (.signed fun hr => ?_) ?_))
  · have h := hp hr
    cases d <;> simp only [Direction.step] at hs ⊢ <;> omega
  · have h := hp hr
    cases d <;> simp only [Direction.step] at hs ⊢ <;> omega
  · refine .foldlM (fun i hi r => ?_) _
    obtain ⟨he, hb⟩ := needle i hi
    rw [he]
    refine yields_power (fun hr => ?_) r
    have h := hp hr
    omega

theorem yields_wantedRegister (hp : room .signed → c.tracker.position.natAbs ≤ 2 ^ 31 - 511) :
    Yields room (wantedRegister c) c.wantedRegister := by
  unfold wantedRegister ReferenceController.wantedRegister
  by_cases ht : c.mode = .test
  · rw [if_pos ht, if_pos ht]
    exact .pure _
  · rw [if_neg ht, if_neg ht]
    by_cases hk : c.mode = .knitting ∧ c.line.ready = true
    · rw [if_pos hk, if_pos hk]
      cases c.tracker.carriage with
      | none => exact .pure _
      | some carriage =>
        cases c.tracker.direction with
        | none => exact .pure _
        | some d => exact yields_lineRegister hp
    · rw [if_neg hk, if_neg hk]
      exact .pure _

theorem yields_driveSolenoids (hp : room .signed → c.tracker.position.natAbs ≤ 2 ^ 31 - 511) :
    Yields room (driveSolenoids c) c.driveSolenoids :=
  .bind (yields_wantedRegister hp) (.pure _)

theorem yields_step (hs : c.tracker.SouthNear) (hc : room .clock → c.cycle + cyclesPerStep < 2 ^ 64)
    (hp : room .signed → c.tracker.InReach c.model 1) : Yields room (step c) c.step.value := by
  have htracked (hr : room .signed) : c.tracked.tracker.position.natAbs ≤ 2 ^ 31 - 511 :=
    (hp hr).position_track
  have hworked (hr : room .signed) : c.worked.tracker.position.natAbs ≤ 2 ^ 31 - 511 := by
    obtain ⟨mode, line, lamp0, lamp1, outbox, hv⟩ := c.tracked.exists_workLine
    rw [worked, hv]
    exact htracked hr
  have hclock : Yields room (Word.clock.hold (c.cycle + cyclesPerStep : Nat))
      ((c.cycle + cyclesPerStep : Nat) : Int) := by
    refine .clock fun hr => ?_
    have h := hc hr
    omega
  have hline : Yields room (workLine c.tracked) c.worked := yields_workLine htracked
  exact .bind hclock (.bind (yields_track hs hp) (.bind hline
    (.bind (yields_driveSolenoids hworked) (.pure _))))

theorem yields_putSingle (c : ReferenceController) (payload : List UInt8) :
    Yields room (putSingle c payload) (c.onTestCommand .setSingleCmd payload).value := by
  match payload with
  | [] | [_] => exact .pure _
  | index :: on :: rest =>
    have hput (bit : Nat) (level : Bool) (r : Register) : r.put bit level =
      if level then r ||| 1#16 <<< bit else r &&& ~~~(1#16 <<< bit) := rfl
    unfold putSingle onTestCommand
    dsimp only
    by_cases hi : index < 16
    · rw [if_pos hi, if_pos hi]
      simp only [hput, decide_eq_true_eq]
      exact .bind (yields_single hi) (.pure _)
    · rw [if_neg hi, if_neg hi]
      exact .pure _

theorem yields_onMessage (c : ReferenceController) (message : List UInt8) :
    Yields room (onMessage c message) (c.onMessage message).value := by
  unfold onMessage
  split
  · rename_i payload hm hu
    obtain ⟨b, hs, hb⟩ := exists_of_understood hu
    have hv : c.onMessage message = c.onTestCommand .setSingleCmd payload := by
      simp only [ReferenceController.onMessage, hs, hb, hm, if_true]
    rw [hv]
    exact yields_putSingle c payload
  · exact .pure _

theorem yields_receive (c : ReferenceController) (b : UInt8) :
    Yields room (receive c b) (c.receive b).value := by
  unfold receive ReferenceController.receive
  rcases c.receiver.push b with ⟨message | message, receiver⟩
  · exact .pure _
  · exact yields_onMessage _ message

/-! ### What has been held -/

theorem holds_of_readSensor {t' : Tracker} (h : readSensor m sensor level t = .ok t') :
    Word.signed.Holds t'.position := by
  obtain ⟨position, hp, ht⟩ := Word.exists_of_bind h
  obtain ⟨rfl, hn⟩ := Word.holds_of_hold hp
  cases ht
  exact hn

theorem holds_of_decode {t' : Tracker} (ht : Word.signed.Holds t.position)
    (h : decode l t = .ok t') : Word.signed.Holds t'.position := by
  unfold decode at h
  obtain ⟨raised, -, h⟩ := Word.exists_of_bind h
  obtain ⟨ahead, -, h⟩ := Word.exists_of_bind h
  split at h
  · obtain ⟨position, hp, h⟩ := Word.exists_of_bind h
    obtain ⟨rfl, hn⟩ := Word.holds_of_hold hp
    cases h
    exact hn
  · obtain ⟨position, hp, h⟩ := Word.exists_of_bind h
    obtain ⟨rfl, hn⟩ := Word.holds_of_hold hp
    cases h
    exact hn
  · cases h
    exact ht

/-- Before the belt is looked at, the position has been put into its word. -/
theorem exists_of_track {t' : Tracker} (h : track m l hall t = .ok t') :
    ∃ t₁ t₂, sense m hall t = .ok t₁ ∧ decode l t₁ = .ok t₂ ∧ inferBelt m l.belt t₂ = .ok t' ∧
      Word.signed.Holds t₂.position := by
  obtain ⟨t₁, hs, h⟩ := Word.exists_of_bind h
  obtain ⟨t₂, hd, hi⟩ := Word.exists_of_bind h
  obtain ⟨_, -, hread⟩ := Word.exists_of_bind hs
  obtain ⟨_, -, hread⟩ := Word.exists_of_bind hread
  exact ⟨t₁, t₂, hs, hd, hi, holds_of_decode (holds_of_readSensor hread) hd⟩

/-- To look for the belt, four times the way from the carriage's home is put into a word. -/
theorem holds_of_inferBelt {t' : Tracker} {belt : Bool} (hc : t.carriage = some carriage)
    (hb : t.belt = none) (hm : m ≠ .kh270) (h : inferBelt m belt t = .ok t') :
    Word.signed.Holds (4 * (t.position - carriage.homePosition)) := by
  unfold inferBelt at h
  rw [hc, hb] at h
  dsimp only at h
  rw [if_neg hm] at h
  obtain ⟨regular, hr, -⟩ := Word.exists_of_bind h
  obtain ⟨away, ha, hr⟩ := Word.exists_of_bind hr
  obtain ⟨away', ha', hr⟩ := Word.exists_of_bind hr
  obtain ⟨quarters, hq, -⟩ := Word.exists_of_bind hr
  obtain ⟨rfl, -⟩ := Word.holds_of_hold ha
  obtain ⟨rfl, -⟩ := Word.holds_of_hold ha'
  have hn := (Word.holds_of_hold hq).2
  rwa [Nat.cast_zero, Int.sub_zero] at hn

end Words

end KnitBench
