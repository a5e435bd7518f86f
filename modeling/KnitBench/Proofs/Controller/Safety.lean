import KnitBench.Proofs.Controller.Reckoning
import KnitBench.Proofs.Controller.Replies
import KnitBench.Proofs.Controller.Turning

/-! Nothing that may happen to the reference controller makes it fail, but for want of room: for the
clock, or for what is reckoned from the position of the carriage. The position itself may have room
when what is reckoned from it has none. -/

namespace KnitBench

namespace ReferenceController

open Message

variable {model : Model} {c c' : ReferenceController} {xs : List Stimulus}

namespace Tracker

variable {t : Tracker} {m : Model} {sensor : Side} {level : UInt16}

/-! ### How far a tracker may count -/

/-- A carriage is told near an end of the bed, so that a sensor does not take the count far off. -/
theorem natAbs_count_readSensor_le :
    (t.readSensor m sensor level).value.count.natAbs ≤ max t.count.natAbs 1059 := by
  unfold readSensor
  cases Pole.ofLevel m sensor level with
  | none => exact Nat.le_max_left ..
  | some pole =>
    rw [Option.elim_some]
    rcases value_meet_eq t m sensor pole with hv | ⟨c, south, hv, -⟩
    · rw [hv]
      exact Nat.le_max_left ..
    · have ha := natAbs_anchor_le m c sensor t.direction
      have hq := t.quarter.isLt
      rw [hv]
      refine Nat.le_trans ?_ (Nat.le_max_right ..)
      change (4 * anchor m c sensor t.direction + (t.quarter.val : Int)).natAbs ≤ 1059
      omega

theorem natAbs_count_sense_le (t : Tracker) (m : Model) (hall : HallReading) :
    (t.sense m hall).value.count.natAbs ≤ max t.count.natAbs 1059 := by
  obtain ⟨south, hf⟩ := t.exists_forgetSouth
  have hleft : (t.forgetSouth.readSensor m .left hall.left).value.count.natAbs ≤
      max t.count.natAbs 1059 := by
    rw [hf]
    exact natAbs_count_readSensor_le
  have hright : (t.sense m hall).value.count.natAbs ≤
      max (t.forgetSouth.readSensor m .left hall.left).value.count.natAbs 1059 :=
    natAbs_count_readSensor_le
  omega

/-- At most two quarters are counted at once, and then without knowing the way. -/
theorem natAbs_count_decode_le (t : Tracker) (l : Levels) :
    (t.decode l).value.count.natAbs ≤ t.count.natAbs + 2 := by
  have hsub : ∀ q r : Fin 4, q = r ∧ q - r = 0 ∨
      q - r = 1 ∧ (q.val = r.val + 1 ∨ q.val = 0 ∧ r.val = 3) ∨
      q - r = 2 ∧ (q.val = r.val + 2 ∨ r.val = q.val + 2) ∨
      q - r = 3 ∧ (r.val = q.val + 1 ∨ q.val = 3 ∧ r.val = 0) := by decide
  unfold decode count
  dsimp only
  generalize Levels.quarter l.v1 l.v2 = q
  rcases hsub q t.quarter with ⟨rfl, h⟩ | ⟨h, hq⟩ | ⟨h, hq⟩ | ⟨h, hq⟩
  · rw [h]
    exact Nat.le_add_right ..
  · rw [h]
    dsimp only [Logged.value_pure]
    split <;> omega
  · rw [h]
    simp only [Logged.value_bind, Logged.value_pure]
    omega
  · rw [h]
    dsimp only [Logged.value_pure]
    split <;> omega

theorem natAbs_count_track_le (t : Tracker) (m : Model) (l : Levels) (hall : HallReading) :
    (t.track m l hall).value.count.natAbs ≤ max t.count.natAbs 1059 + 2 := by
  obtain ⟨belt, ht⟩ := t.exists_value_track m l hall
  have hcount : (t.track m l hall).value.count = ((t.sense m hall).value.decode l).value.count := by
    rw [ht]
    rfl
  have hs := t.natAbs_count_sense_le m hall
  have hd := (t.sense m hall).value.natAbs_count_decode_le l
  rw [hcount]
  omega

end Tracker

/-! ### Runs -/

/-- What holds of a controller whatever happens to it. -/
structure Sound (c : ReferenceController) : Prop where
  south : c.tracker.SouthNear
  start_le_stop : c.start ≤ c.stop
  ranged : c.Ranged

theorem sound_powerOn (model : Model) : (powerOn model).Sound :=
  ⟨nofun, Nat.le_refl 0, ranged_powerOn model⟩

namespace Sound

theorem onMessage (h : c.Sound) (message : List UInt8) : (c.onMessage message).value.Sound := by
  have hr := reranges_onMessage c message
  refine ⟨?_, hr.start_le_stop h.start_le_stop, hr.ranged h.ranged⟩
  rw [(answers_onMessage c message).tracker_eq]
  exact h.south

theorem receive (h : c.Sound) (b : UInt8) : (c.receive b).value.Sound :=
  kept_receive (fun _ _ h => ⟨h.south, h.start_le_stop, h.ranged⟩) (fun _ m h => h.onMessage m) h b

theorem step (h : c.Sound) : c.step.value.Sound := by
  have hr := reranges_worked c
  have ht : c.worked.tracker.SouthNear := by
    rw [c.encoder_worked.2]
    exact h.south.track
  obtain ⟨os, -, hs⟩ := c.exists_value_step
  rw [hs]
  exact ⟨ht, hr.start_le_stop h.start_le_stop, hr.ranged h.ranged⟩

theorem after (h : c.Sound) (x : Stimulus) : (c.after x).Sound := by
  cases x with
  | byte b => exact h.receive b
  | raise line value => cases line <;> exact ⟨h.south, h.start_le_stop, h.ranged⟩
  | slice => exact h.step
  | reset => exact ⟨nofun, Nat.le_refl 0, ranged_of_mode_ne nofun⟩
  | poll =>
    obtain ⟨outbox, hc⟩ := c.exists_poll
    rw [ReferenceController.after, hc]
    exact ⟨h.south, h.start_le_stop, h.ranged⟩

theorem afterAll (h : c.Sound) (xs : List Stimulus) : (c.afterAll xs).Sound := by
  induction xs generalizing c with
  | nil => exact h
  | cons x xs ih => exact ih (h.after x)

end Sound

theorem sound_reached (model : Model) (xs : List Stimulus) : (reached model xs).Sound :=
  (sound_powerOn model).afterAll xs

/-- What is counted of a run: its slices of time for the clock, and two quarters for each. -/
structure Measured (n : Nat) (c : ReferenceController) : Prop where
  cycle_eq : c.cycle = 40000 * n
  natAbs_count_le : c.tracker.count.natAbs ≤ 1059 + 2 * n

theorem cycle_step (c : ReferenceController) : c.step.value.cycle = c.cycle + cyclesPerStep := by
  obtain ⟨os, -, hs⟩ := c.exists_value_step
  obtain ⟨mode, line, lamp0, lamp1, outbox, hw⟩ := exists_workLine c.tracked
  rw [hs, worked, hw]
  rfl

theorem tracker_step (c : ReferenceController) :
    c.step.value.tracker = (c.tracker.track c.model c.levels c.hall).value := by
  obtain ⟨os, -, hs⟩ := c.exists_value_step
  rw [hs]
  exact c.encoder_worked.2

theorem Measured.after {n : Nat} (h : Measured n c) (x : Stimulus) :
    Measured (n + [x].count .slice) (c.after x) := by
  have same (hc : (c.after x).cycle = c.cycle) (ht : (c.after x).tracker = c.tracker) :
      Measured n (c.after x) := ⟨hc.trans h.cycle_eq, by rw [ht]; exact h.natAbs_count_le⟩
  cases x with
  | byte b =>
    exact kept_receive (P := Measured n) (fun _ _ h => ⟨h.1, h.2⟩)
      (fun c m h => ⟨(answers_onMessage c m).cycle_eq.trans h.1,
        by rw [(answers_onMessage c m).tracker_eq]; exact h.2⟩) h b
  | raise line value => cases line <;> exact same rfl rfl
  | slice =>
    have ht := c.tracker.natAbs_count_track_le c.model c.levels c.hall
    have hn := h.natAbs_count_le
    refine ⟨?_, ?_⟩
    · rw [ReferenceController.after, cycle_step, h.cycle_eq]
      rfl
    · rw [ReferenceController.after, tracker_step]
      change _ ≤ 1059 + 2 * (n + 1)
      omega
  | reset =>
    refine ⟨h.cycle_eq, ?_⟩
    have hq := (Levels.quarter c.levels.v1 c.levels.v2).isLt
    change (4 * (0 : Int) + ((Levels.quarter c.levels.v1 c.levels.v2).val : Int)).natAbs ≤ _
    omega
  | poll =>
    obtain ⟨outbox, hc⟩ := c.exists_poll
    exact same (by rw [ReferenceController.after, hc]) (by rw [ReferenceController.after, hc])

theorem measured_reached (model : Model) (xs : List Stimulus) :
    Measured (xs.count .slice) (reached model xs) := by
  induction xs using List.reverseRecOn with
  | nil => exact ⟨rfl, Nat.zero_le _⟩
  | append_singleton xs x ih =>
    rw [reached_concat, List.count_append]
    exact ih.after x

/-- A run of so few slices keeps position and clock in their words. -/
theorem Measured.holds {n : Nat} (h : Measured n c) (hn : n ≤ 4000000000) :
    Word.signed.Holds c.tracker.position ∧ Word.clock.Holds (c.cycle : Nat) := by
  have hcount := h.natAbs_count_le
  have hcycle := h.cycle_eq
  have hp := c.tracker.position_eq
  refine ⟨?_, ?_⟩
  · change -2 ^ 31 ≤ _ ∧ _ < 2 ^ 31
    omega
  · change 0 ≤ _ ∧ _ < 2 ^ 64
    omega

/-- The controller has room for what another slice of time puts into a word. -/
def Roomy (c : ReferenceController) : Word → Prop
  | .clock => c.cycle + cyclesPerStep < 2 ^ 64
  | .signed => c.tracker.InReach c.model 1
  | .byte | .half | .full | .place => True

/-- There is room in a word for each slice of a run. -/
def RoomFor (c : ReferenceController) (xs : List Stimulus) (w : Word) : Prop :=
  ∀ earlier, earlier ++ [.slice] <+: xs → (c.afterAll earlier).Roomy w

/-- Only the clock and what is reckoned from the position may lack room. -/
theorem signed_or_clock {w : Word} (h : ¬c.RoomFor xs w) : w = .signed ∨ w = .clock := by
  cases w with
  | signed => exact Or.inl rfl
  | clock => exact Or.inr rfl
  | byte | half | full | place => exact absurd (fun _ _ => trivial) h

/-- Room for a run is room for its rest. -/
theorem RoomFor.of_append {ys : List Stimulus} {w : Word}
    (h : (powerOn model).RoomFor (xs ++ ys) w) : (reached model xs).RoomFor ys w := by
  intro earlier he
  rw [← reached_append]
  refine h _ ?_
  rw [List.append_assoc]
  exact (List.prefix_append_right_inj xs).mpr he

/-- The clock has room until its cycles fill their word. -/
theorem roomFor_clock (hn : 40000 * xs.count .slice < 2 ^ 64) :
    (powerOn model).RoomFor xs .clock := by
  intro earlier he
  have hle := he.sublist.count_le Stimulus.slice
  rw [List.count_append, List.count_singleton_self] at hle
  change (reached model earlier).cycle + 40000 < 2 ^ 64
  rw [(measured_reached model earlier).cycle_eq]
  omega

/-- In a run of so few slices there is room for everything. -/
theorem roomFor_of_count (hn : xs.count .slice ≤ 10 ^ 9) (w : Word) :
    (powerOn model).RoomFor xs w := by
  cases w with
  | signed =>
    intro earlier he
    have hle := ((List.prefix_append ..).trans he).sublist.count_le Stimulus.slice
    have hcount := (measured_reached model earlier).natAbs_count_le
    have hp := (reached model earlier).tracker.position_eq
    have hnear : (reached model earlier).tracker.position.natAbs + 1 ≤ 2 ^ 29 - 63 := by omega
    exact ⟨hnear.trans (by decide), fun _ _ _ => hnear⟩
  | clock => exact roomFor_clock (by omega)
  | byte | half | full | place => exact fun _ _ => trivial

/-! ### A carriage of the KH270 -/

namespace Tracker

/-- The KH270 does not look for the belt. -/
theorem value_inferBelt_kh270 (t : Tracker) (level : Bool) :
    (t.inferBelt .kh270 level).value = t := by
  unfold inferBelt
  split
  · rfl
  · rfl

end Tracker

/-- What is known of the carriage besides its place stays, and what could change it. -/
structure KeepsCarriage (c c' : ReferenceController) : Prop where
  model_eq : c'.model = c.model
  hall_eq : c'.hall = c.hall
  receiver_eq : c'.receiver = c.receiver
  carriage_eq : c'.tracker.carriage = c.tracker.carriage
  belt_eq : c'.tracker.belt = c.tracker.belt

namespace KeepsCarriage

theorem refl (c : ReferenceController) : KeepsCarriage c c := ⟨rfl, rfl, rfl, rfl, rfl⟩

theorem trans {c'' : ReferenceController} (h : KeepsCarriage c c') (h' : KeepsCarriage c' c'') :
    KeepsCarriage c c'' where
  model_eq := h'.model_eq.trans h.model_eq
  hall_eq := h'.hall_eq.trans h.hall_eq
  receiver_eq := h'.receiver_eq.trans h.receiver_eq
  carriage_eq := h'.carriage_eq.trans h.carriage_eq
  belt_eq := h'.belt_eq.trans h.belt_eq

theorem observing (hu : c.Unsensed) (hm : c.model = .kh270) (l : Levels) :
    KeepsCarriage c (c.observing l) := by
  have ht := (c.seeing l).tracker_step
  obtain ⟨os, -, hs⟩ := (c.seeing l).exists_value_step
  obtain ⟨mode, line, lamp0, lamp1, outbox, hw⟩ := exists_workLine (c.seeing l).tracked
  obtain ⟨south, hsense⟩ := c.tracker.exists_sense_of_unsensed hu.1 hu.2
  have htrack : (c.observing l).tracker =
      ((c.tracker.sense c.model c.hall).value.decode l).value := by
    refine ht.trans ?_
    change (((c.tracker.sense c.model c.hall).value.decode l).value.inferBelt c.model l.belt).value
      = _
    rw [hm, Tracker.value_inferBelt_kh270]
  have hd : (c.observing l).tracker.carriage = c.tracker.carriage ∧
      (c.observing l).tracker.belt = c.tracker.belt := by
    rw [htrack, hsense]
    rcases Tracker.value_decode_cases { c.tracker with southSeen := south } l with
      ⟨quarter, hv⟩ | ⟨quarter, d, position, hv, -⟩
    · rw [hv]
      exact ⟨rfl, rfl⟩
    · rw [hv]
      exact ⟨rfl, rfl⟩
  refine ⟨?_, ?_, ?_, hd.1, hd.2⟩ <;>
    · rw [ReferenceController.observing, hs, worked, hw]
      rfl

theorem afterAll {ps : List Channels} (hu : c.Unsensed) (hm : c.model = .kh270) :
    KeepsCarriage c (c.afterAll (ps.flatMap Channels.shown)) := by
  induction ps generalizing c with
  | nil => exact refl c
  | cons p ps ih =>
    rw [List.flatMap_cons, afterAll_append, afterAll_shown]
    have hfirst := observing hu hm ⟨p.v1, p.v2, c.levels.belt⟩
    exact hfirst.trans (ih (unsensed_observing hu _) (hfirst.model_eq.trans hm))

end KeepsCarriage

/-- Bytes on the serial line, one after another. -/
theorem afterAll_bytes (c : ReferenceController) (bytes : List UInt8) :
    c.afterAll (bytes.map .byte) = (Controller.receiveAll bytes c).value := by
  induction bytes generalizing c with
  | nil => rfl
  | cons b bytes ih => exact ih (c.after (.byte b))

/-- A carriage is detected at the left end of a KH270 and pushed so many quarters to the right. Then
the controller is told to serve a KH910. -/
def pushed (k : Nat) : List Stimulus :=
  [.raise .hallLeft HallReading.north, .slice, .raise .hallLeft HallReading.rest] ++
    (Channels.rightward ⟨false, false⟩ k).flatMap Channels.shown ++
    (Wire.frame (reqInit .kh910)).map .byte

theorem count_slice_pushed (k : Nat) :
    (pushed k ++ [Stimulus.slice]).count Stimulus.slice = k + 2 := by
  have hbytes : ((Wire.frame (reqInit .kh910)).map Stimulus.byte).count .slice = 0 :=
    List.count_eq_zero.mpr (by simp)
  rw [pushed, List.count_append, List.count_append, List.count_append, hbytes,
    Channels.count_slice_shown, Channels.length_rightward]
  change 1 + k + 0 + 1 = k + 2
  omega

/-- Pushed away and told another machine, the controller still has its carriage, and looks for the
belt. -/
theorem reached_pushed (k : Nat) :
    let c := reached .kh270 (pushed k)
    c.model = .kh910 ∧ c.Unsensed ∧ c.tracker.carriage = some .knit270 ∧ c.tracker.belt = none ∧
      c.tracker.quarter = c.levels.channels.quarter ∧ c.tracker.count = k - 24 := by
  intro c
  let c₁ := reached .kh270 [.raise .hallLeft HallReading.north, .slice,
    .raise .hallLeft HallReading.rest]
  let c₂ := c₁.afterAll ((Channels.rightward ⟨false, false⟩ k).flatMap Channels.shown)
  have hm₁ : c₁.model = .kh270 := by decide +kernel
  have hu₁ : c₁.Unsensed := by decide +kernel
  have hl₁ : c₁.levels.channels = ⟨false, false⟩ := by decide +kernel
  have hq₁ : c₁.tracker.quarter = c₁.levels.channels.quarter := by decide +kernel
  have hcount₁ : c₁.tracker.count = -24 := by decide +kernel
  have hc₁ : c₁.tracker.carriage = some .knit270 := by decide +kernel
  have hb₁ : c₁.tracker.belt = none := by decide +kernel
  have hr₁ : c₁.receiver = .empty := rfl
  have hchain : (c₁.levels.channels :: Channels.rightward ⟨false, false⟩ k).IsChain
      Channels.Adjacent := by
    rw [hl₁]
    exact Channels.isChain_rightward _ k
  have hcounted := (counted_afterAll hu₁ hq₁ hchain).count_eq
  have hkept : KeepsCarriage c₁ c₂ := .afterAll hu₁ hm₁
  have hq₂ : c₂.tracker.quarter = c₂.levels.channels.quarter := quarter_afterAll_shown hq₁ _
  have hcount₂ : c₂.tracker.count = k - 24 := by
    rw [hl₁, Channels.turns_rightward, hcount₁, List.count_replicate_self,
      List.count_replicate] at hcounted
    rw [hcounted, if_neg (by decide)]
    omega
  have hcode : ([Model.kh910.code] : List UInt8).head?.bind Model.ofCode? = some .kh910 :=
    Model.kh910.ofCode?_code
  obtain ⟨lamp0, outbox, hv⟩ := exists_value_onInit (c := c₂) hcode
  have hc : c = { c₂ with model := .kh910, line := {}, mode := .ready, lamp0, outbox } := by
    have hfold : c = c₂.afterAll ((Wire.frame (reqInit .kh910)).map .byte) := by
      simp only [c, c₂, c₁, reached, pushed, afterAll_append]
    rw [hfold, afterAll_bytes, receiveAll_frame (fits_reqInit _) (hkept.receiver_eq.trans hr₁),
      reqInit, onMessage_make]
    exact hv
  rw [hc]
  exact ⟨rfl, unsensed_of_idle hkept.hall_eq, hkept.carriage_eq.trans hc₁, hkept.belt_eq.trans hb₁,
    hq₂, hcount₂⟩

end ReferenceController

namespace Words

open ReferenceController

variable {room : Word → Prop} {c c' : ReferenceController} {model : Model} {xs : List Stimulus}

theorem yields_after (h : c.Sound) (x : Stimulus) (hr : ∀ w, room w → x = .slice → c.Roomy w) :
    Yields room (after c x) (c.after x) := by
  cases x with
  | byte b => exact yields_receive c b
  | slice => exact yields_step h.south (fun hw => hr .clock hw rfl) fun hw => hr .signed hw rfl
  | raise | reset | poll => exact .pure _

theorem yields_afterAll (h : c.Sound) (xs : List Stimulus) :
    Yields (c.RoomFor xs) (afterAll c xs) (c.afterAll xs) := by
  induction xs using List.reverseRecOn with
  | nil => exact .pure _
  | append_singleton xs x ih =>
    rw [afterAll_append, ReferenceController.afterAll_append]
    refine .bind (ih.mono fun w hr earlier he => hr earlier (he.trans (List.prefix_append _ _))) ?_
    rw [afterAll_singleton]
    refine yields_after (h.afterAll xs) x fun w hr hx => ?_
    subst hx
    exact hr xs (List.prefix_refl _)

theorem yields_reached (model : Model) (xs : List Stimulus) :
    Yields ((powerOn model).RoomFor xs) (afterAll (powerOn model) xs) (reached model xs) :=
  yields_afterAll (sound_powerOn model) xs

/-- What is reached in words is what is reached with numbers of any size. -/
theorem eq_reached_of_ok (h : afterAll (powerOn model) xs = .ok c) : c = reached model xs :=
  (yields_reached model xs).eq_of_ok h

/-- After a slice of time position and clock are in their words. -/
theorem holds_of_step (hs : c.tracker.SouthNear) (h : step c = .ok c') :
    Word.signed.Holds c'.tracker.position ∧ Word.clock.Holds (c'.cycle : Nat) := by
  have hstep : Yields (fun _ => False) (step c) c.step.value := yields_step hs nofun nofun
  have hc' := hstep.eq_of_ok h
  obtain ⟨cycle, hcycle, h⟩ := Word.exists_of_bind h
  obtain ⟨t', ht, -⟩ := Word.exists_of_bind h
  obtain ⟨t₁, t₂, -, -, hbelt, hp⟩ := exists_of_track ht
  have htracked : Yields (fun _ => False) (track c.model c.levels c.hall c.tracker)
      (c.tracker.track c.model c.levels c.hall).value := yields_track hs nofun
  have hinferred : Yields (fun _ => False) (inferBelt c.model c.levels.belt t₂)
      (t₂.inferBelt c.model c.levels.belt).value := yields_inferBelt nofun _
  obtain ⟨belt, hb⟩ := Tracker.exists_value_inferBelt t₂ c.model c.levels.belt
  have hposition : t'.position = t₂.position := by rw [hinferred.eq_of_ok hbelt, hb]
  refine ⟨?_, ?_⟩
  · rwa [hc', tracker_step, ← htracked.eq_of_ok ht, hposition]
  · rw [hc', cycle_step]
    exact (Word.holds_of_hold hcycle).2

/-- A carriage that is known, with a belt that is not, has its way from home told in quarters. -/
theorem holds_of_step_belt {carriage : Carriage} (hs : c.tracker.SouthNear) (hu : c.Unsensed)
    (hq : c.tracker.quarter = c.levels.channels.quarter) (hm : c.model ≠ .kh270)
    (hc : c.tracker.carriage = some carriage) (hb : c.tracker.belt = none)
    (h : step c = .ok c') :
    Word.signed.Holds (4 * (c.tracker.position - carriage.homePosition)) := by
  obtain ⟨_, -, h⟩ := Word.exists_of_bind h
  obtain ⟨t', ht, -⟩ := Word.exists_of_bind h
  obtain ⟨t₁, t₂, hsense, hdecode, hbelt, -⟩ := exists_of_track ht
  have hsensed : Yields (fun _ => False) (sense c.model c.hall c.tracker)
      (c.tracker.sense c.model c.hall).value := yields_sense hs nofun
  obtain ⟨south, hv⟩ := c.tracker.exists_sense_of_unsensed hu.1 hu.2
  obtain rfl := (hsensed.eq_of_ok hsense).trans hv
  have hdecoded : Yields (fun _ => False) (decode c.levels { c.tracker with southSeen := south })
      (({ c.tracker with southSeen := south } : Tracker).decode c.levels).value :=
    yields_decode nofun
  obtain rfl := (hdecoded.eq_of_ok hdecode).trans (Tracker.value_decode_same hq)
  exact holds_of_inferBelt (t := { c.tracker with southSeen := south }) hc hb hm hbelt

/-- What is reckoned from the position outgrows its word before the position does. -/
theorem afterAll_pushed {k : Nat} (hk : 2147483771 ≤ k) (hk' : k ≤ 3999999998) :
    afterAll (powerOn .kh270) (pushed k ++ [.slice]) = .error .signed := by
  rcases yields_reached .kh270 (pushed k ++ [.slice]) with hok | ⟨w, he, hr⟩
  · rw [afterAll_append] at hok
    obtain ⟨c, hc, hstep⟩ := Word.exists_of_bind hok
    rw [afterAll_singleton] at hstep
    obtain rfl := eq_reached_of_ok hc
    obtain ⟨hm, hu, hcarriage, hb, hq, hcount⟩ := reached_pushed k
    have hn := (holds_of_step_belt (sound_reached _ _).south hu hq (by rw [hm]; decide) hcarriage hb
      hstep).2
    have hp := (reached .kh270 (pushed k)).tracker.position_eq
    have hh := Carriage.knit270.homePosition_bounds
    change _ < 2 ^ 31 at hn
    omega
  · rcases signed_or_clock hr with rfl | rfl
    · exact he
    · refine absurd (roomFor_clock ?_) hr
      rw [count_slice_pushed]
      omega

/-- Whatever bytes, levels, slices of time, resets and polls come to a controller from power-on: it
reckons in its words as with numbers of any size, and does not fail unless there is no room for the
clock or for what is reckoned from the position. In a billion slices there is room for both, and in
so many that they take thirteen days also for what its time is reckoned from. The quarter that it
takes off another is one of four. Whichever carriage has been detected, the bit of each solenoid
lies within the register, and on the KH270 from bit 3 to bit 14. The range is not turned round, and
lies on the bed while the controller knits. -/
theorem safe_reached (model : Model) (xs : List Stimulus) :
    let c := reached model xs
    (afterAll (powerOn model) xs = .ok c ∨ ∃ w, afterAll (powerOn model) xs = .error w ∧
      (w = .signed ∨ w = .clock) ∧ ¬(powerOn model).RoomFor xs w) ∧
    (xs.count .slice ≤ 10 ^ 9 → afterAll (powerOn model) xs = .ok c) ∧
    (xs.count .slice ≤ 461168601 → Word.clock.Holds (c.cycle * 1000000 : Nat)) ∧
    c.tracker.quarter.val < 4 ∧
    (∀ carriage d needle,
      c.model.registerBit (c.solenoidFor carriage d needle) < 16 ∧
        (c.model = .kh270 → 3 ≤ c.model.registerBit (c.solenoidFor carriage d needle) ∧
          c.model.registerBit (c.solenoidFor carriage d needle) ≤ 14)) ∧
    c.start ≤ c.stop ∧ (c.mode = .knitting → c.stop < c.model.needleCount) := by
  intro c
  have hy := yields_reached model xs
  have hs : c.Sound := sound_reached model xs
  refine ⟨hy.imp_right fun ⟨w, he, hr⟩ => ⟨w, he, signed_or_clock hr, hr⟩,
    fun hn => hy.eq_ok (roomFor_of_count hn), fun hn => ?_, c.tracker.quarter.isLt, ?_,
    hs.start_le_stop, fun hk => (hs.ranged hk).2⟩
  · rw [(measured_reached model xs).cycle_eq]
    change 0 ≤ _ ∧ _ < 2 ^ 64
    omega
  · intro carriage d needle
    have hi := c.solenoidFor_lt carriage d needle
    refine ⟨Model.registerBit_lt hi, fun hm => ?_⟩
    rw [hm] at hi ⊢
    exact Model.registerBit_kh270 hi

/-- A knit carriage is detected at the left end of a KH930. Then the controller is told to serve a
KH270 and to knit all of its needles, and the carriage sets out to the left. -/
def retold : List Stimulus :=
  let bitmap : LineBitmap := Vector.replicate _ 0xFF
  let messages := [Message.reqInit .kh270, Message.reqStart 0 111 0, Message.cnfLine 0 0 0 bitmap]
  [.raise .hallLeft HallReading.north, .slice] ++ (messages.flatMap Wire.frame).map .byte ++
    [.raise .encoderV1 1, .poll, .slice]

theorem safe_reached_retold :
    let c := reached .kh930 retold
    c.model = .kh270 ∧ c.mode = .knitting ∧ c.tracker.carriage = some .knit ∧
      c.register = some 0#16 ∧ retold.count .slice ≤ 10 ^ 9 ∧
      afterAll (powerOn .kh930) retold = .ok c ∧ Word.clock.Holds (c.cycle * 1000000 : Nat) ∧
      3 ≤ c.model.registerBit (c.solenoidFor .knit .left 22) ∧ c.stop < c.model.needleCount := by
  intro c
  have hm : c.model = .kh270 := by decide +kernel
  have hk : c.mode = .knitting := by decide +kernel
  have hn : retold.count .slice ≤ 461168601 := by decide +kernel
  have hn' : retold.count .slice ≤ 10 ^ 9 := hn.trans (by decide)
  obtain ⟨-, hok, htime, -, hbit, -, hstop⟩ := safe_reached .kh930 retold
  exact ⟨hm, hk, by decide +kernel, by decide +kernel, hn', hok hn', htime hn,
    ((hbit _ _ _).2 hm).1, hstop hk⟩

/-- Position and clock are within their words after all that happens to a carriage pushed far away,
but not what is reckoned from the position as soon as a belt is looked for. Nor can the time be
reckoned as long as the clock goes on. -/
theorem outgrown_pushed :
    (∀ earlier, earlier <+: pushed 2400000000 ++ [.slice] →
      Word.signed.Holds (reached .kh270 earlier).tracker.position ∧
        Word.clock.Holds ((reached .kh270 earlier).cycle : Nat)) ∧
    afterAll (powerOn .kh270) (pushed 2400000000 ++ [.slice]) = .error .signed ∧
    Word.clock.Holds ((reached .kh910 (List.replicate 461168602 .slice)).cycle : Nat) ∧
    ¬Word.clock.Holds
      ((reached .kh910 (List.replicate 461168602 .slice)).cycle * 1000000 : Nat) := by
  refine ⟨fun earlier he => ?_, afterAll_pushed (by decide) (by decide), ?_⟩
  · have hle := he.sublist.count_le Stimulus.slice
    rw [count_slice_pushed] at hle
    exact (measured_reached .kh270 earlier).holds (by omega)
  · have hm := measured_reached .kh910 (List.replicate 461168602 .slice)
    rw [List.count_replicate_self] at hm
    refine ⟨(hm.holds (by decide)).2, ?_⟩
    rw [hm.cycle_eq]
    decide

end Words

end KnitBench
