import KnitBench.Proofs.Message.Corruption
import KnitBench.Proofs.Trial.Talk

/-! What a trial takes of the messages of the controller. A message is taken exactly when its check
byte is right and it has its place in the conversation. -/

namespace KnitBench

namespace StateReport

variable {payload : List UInt8}

/-- A report of nine bytes or more is read; its first byte tells the error. -/
theorem exists_read (h : 9 ≤ payload.length) :
    ∃ r : StateReport, read payload = .ok r ∧ payload.head? = some r.error := by
  match payload, h with
  | _ :: _ :: _ :: _ :: _ :: _ :: _ :: _ :: _ :: _, _ => exact ⟨_, rfl, rfl⟩

theorem read_of_length_lt (h : payload.length < 9) :
    read payload = .error (.shortPayload .indState payload.length) := by
  unfold read
  split
  · simp only [List.length_cons] at h
    omega
  · rfl

end StateReport

namespace Trial

open Message

variable {t t' : Trial} {code : Code} {message payload : List UInt8}

/-- A status is all right when its byte is there and zero. -/
theorem expectOk_eq_ok_iff : expectOk code payload = .ok () ↔ payload.head? = some 0 := by
  cases payload with
  | nil => simp [expectOk]
  | cons status rest =>
    rw [expectOk, List.head?_cons, Option.some_inj]
    split <;> simp [*]

/-- A report is all right when it is complete and tells of no error. -/
theorem expectHealthy_eq_ok_iff :
    expectHealthy payload = .ok () ↔ 9 ≤ payload.length ∧ payload.head? = some 0 := by
  by_cases hl : 9 ≤ payload.length
  · obtain ⟨r, hr, he⟩ := StateReport.exists_read hl
    have hh : expectHealthy payload = expectOk .indState [r.error] := by
      rw [expectHealthy, hr]
      rfl
    rw [hh, expectOk_eq_ok_iff, he]
    exact (and_iff_right hl).symm
  · have hh : expectHealthy payload = .error (.shortPayload .indState payload.length) := by
      rw [expectHealthy, StateReport.read_of_length_lt (Nat.lt_of_not_le hl)]
      rfl
    rw [hh]
    exact iff_of_false (by rintro ⟨⟩) fun h => hl h.1

/-- A request for the next line is taken. It then waits behind those before it. -/
theorem request_of_next (h : payload.head? = some t.nextLine) :
    t.request payload = (.ok (), { t with
      nextLine := t.nextLine + 1
      pending := t.pending ++ [(t.options.delay, t.nextLine)] }) := by
  obtain ⟨rest, rfl⟩ := List.head?_eq_some_iff.mp h
  rw [request, if_pos rfl]

/-- Any other request is refused. -/
theorem exists_request_of_not_next (h : payload.head? ≠ some t.nextLine) :
    ∃ fault, t.request payload = (.error fault, t) := by
  cases payload with
  | nil => exact ⟨_, rfl⟩
  | cons line rest =>
    rw [request, if_neg fun hl => h (congrArg some hl)]
    exact ⟨_, rfl⟩

/-- The messages that a trial takes, each with the trial after it. All of them are stamped with
their check byte, and bytes behind those that are named do not matter. -/
inductive Takes (t : Trial) : List UInt8 → Trial → Prop
  /-- Remarks and test results are taken at any stage. -/
  | remark (code : Code) (payload : List UInt8) (hc : code = .debug ∨ code = .testRes) :
      Takes t (make code payload) t
  /-- The controller has taken its machine. -/
  | initialised (payload : List UInt8) (hs : t.stage = .awaiting) (he : payload.head? = some 0) :
      Takes t (make .cnfInit payload) t
  /-- It is ready, and is asked to knit the range. -/
  | ready (payload : List UInt8) (hs : t.stage = .awaiting) (hl : 9 ≤ payload.length)
      (he : payload.head? = some 0) :
      Takes t (make .indState payload) { t with
        outgoing := t.outgoing ++
          [reqStart (UInt8.ofNat t.setup.start) (UInt8.ofNat t.setup.stop) 0]
        stage := .knitting }
  | healthy (payload : List UInt8) (hs : t.stage = .knitting) (hl : 9 ≤ payload.length)
      (he : payload.head? = some 0) : Takes t (make .indState payload) t
  | started (payload : List UInt8) (hs : t.stage = .knitting) (he : payload.head? = some 0) :
      Takes t (make .cnfStart payload) t
  /-- It asks for the next line, and waits for the answer. -/
  | requested (payload : List UInt8) (hs : t.stage = .knitting)
      (hl : payload.head? = some t.nextLine) :
      Takes t (make .reqLine payload) { t with
        nextLine := t.nextLine + 1
        pending := t.pending ++ [(t.options.delay, t.nextLine)] }

theorem Takes.hear_eq (h : t.Takes message t') : (t.hear message).value = (.ok (), t') := by
  cases h with
  | remark code payload hc =>
    rw [hear_make]
    rcases hc with rfl | rfl <;> cases t.stage <;> rfl
  | initialised payload hs he =>
    rw [hear_make, hs]
    exact congrArg (·, t) (expectOk_eq_ok_iff.mpr he)
  | ready payload hs hl he =>
    rw [hear_make, hs]
    simp only [expectHealthy_eq_ok_iff.mpr ⟨hl, he⟩]
    rfl
  | healthy payload hs hl he =>
    rw [hear_make, hs]
    exact congrArg (·, t) (expectHealthy_eq_ok_iff.mpr ⟨hl, he⟩)
  | started payload hs he =>
    rw [hear_make, hs]
    exact congrArg (·, t) (expectOk_eq_ok_iff.mpr he)
  | requested payload hs hl =>
    have hv : (t.hear (make .reqLine payload)).value = t.request payload := by
      rw [hear_make, hs]
      rfl
    exact hv.trans (request_of_next hl)

/-- What is no message of a known command, in order, is refused. -/
theorem exists_hear_of_ne_make (h : ∀ code payload, message ≠ make code payload) :
    ∃ fault, (t.hear message).value = (.error fault, t) := by
  unfold hear
  split
  · exact ⟨_, rfl⟩
  · rename_i b payload hs
    cases hb : Code.ofByte? b with
    | none => cases t.stage <;> exact ⟨_, rfl⟩
    | some code =>
      refine absurd ?_ (h code payload)
      rw [make, Code.byte_of_ofByte? hb]
      exact split_eq_ok_iff.mp hs

/-- A message is taken, or the trial is after it as it was. -/
theorem takes_or_refuses (t : Trial) (message : List UInt8) :
    (∃ t', t.Takes message t') ∨ ∃ fault, (t.hear message).value = (.error fault, t) := by
  by_cases h : ∃ code payload, message = make code payload
  · obtain ⟨code, payload, rfl⟩ := h
    rw [hear_make]
    split
    · exact Or.inl ⟨t, .remark _ payload (Or.inl rfl)⟩
    · exact Or.inl ⟨t, .remark _ payload (Or.inr rfl)⟩
    · rename_i hs
      cases he : expectOk .cnfInit payload with
      | error fault => exact Or.inr ⟨fault, rfl⟩
      | ok => exact Or.inl ⟨t, .initialised payload hs (expectOk_eq_ok_iff.mp he)⟩
    · rename_i hs
      cases he : expectHealthy payload with
      | error fault => exact Or.inr ⟨fault, rfl⟩
      | ok =>
        obtain ⟨hl, h0⟩ := expectHealthy_eq_ok_iff.mp he
        exact Or.inl ⟨_, .ready payload hs hl h0⟩
    · rename_i hs
      cases he : expectHealthy payload with
      | error fault => exact Or.inr ⟨fault, rfl⟩
      | ok =>
        obtain ⟨hl, h0⟩ := expectHealthy_eq_ok_iff.mp he
        exact Or.inl ⟨t, .healthy payload hs hl h0⟩
    · rename_i hs
      cases he : expectOk .cnfStart payload with
      | error fault => exact Or.inr ⟨fault, rfl⟩
      | ok => exact Or.inl ⟨t, .started payload hs (expectOk_eq_ok_iff.mp he)⟩
    · rename_i hs
      by_cases hl : payload.head? = some t.nextLine
      · exact Or.inl ⟨_, .requested payload hs hl⟩
      · obtain ⟨fault, hr⟩ := exists_request_of_not_next hl
        exact Or.inr ⟨fault, hr⟩
    · exact Or.inr ⟨_, rfl⟩
  · exact Or.inr (exists_hear_of_ne_make fun code payload he => h ⟨code, payload, he⟩)

theorem takes_of_hear (h : (t.hear message).value = (.ok (), t')) : t.Takes message t' := by
  rcases t.takes_or_refuses message with ⟨u, hu⟩ | ⟨fault, hr⟩
  · obtain rfl : u = t' := congrArg Prod.snd (hu.hear_eq.symm.trans h)
    exact hu
  · rw [hr] at h
    cases h

/-- At whatever stage a trial is, and whatever bytes come for a message: it takes exactly the
messages that are listed, and is after them as the list says; every other one it refuses with a
fault, and is as it was. -/
theorem hear_cases (t : Trial) (message : List UInt8) :
    (∀ t', (t.hear message).value = (.ok (), t') ↔ t.Takes message t') ∧
      ((∃ t', (t.hear message).value = (.ok (), t')) ∨
        ∃ fault, (t.hear message).value = (.error fault, t)) := by
  refine ⟨fun t' => ⟨takes_of_hear, Takes.hear_eq⟩, ?_⟩
  exact (t.takes_or_refuses message).imp_left fun ⟨t', ht⟩ => ⟨t', ht.hear_eq⟩

end Trial

end KnitBench
