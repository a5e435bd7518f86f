import KnitBench.Proofs.Controller.Preparation
import KnitBench.Proofs.Controller.Window

/-! The reference controller as it reckons in machine words. Its definitions reckon with numbers of
any size. Here every sum, difference and product is put into the word that the controller has for
it, and a bit of the register is shifted only by less than sixteen places. Only the numbers of lines
are meant to start over. A reckoning may fail for the clock and for what is reckoned from the
position of the carriage, which may outgrow their words. -/

namespace KnitBench

/-- What holds a number of the controller. -/
inductive Word
  /-- Eight bits, for the quarter steps of the encoder. -/
  | byte
  /-- Sixteen bits, for the numbers of register bits. -/
  | half
  /-- Thirty-two bits, for phases of the belt. -/
  | full
  /-- Thirty-two bits with a sign, for positions and the needles and phases reckoned from them. -/
  | signed
  /-- Sixty-four bits, for the clock. -/
  | clock
  /-- The places by which a bit of the register may be shifted. -/
  | place
  deriving DecidableEq, Repr

namespace Word

/-- The least number that a word holds. -/
def low : Word → Int
  | signed => -2 ^ 31
  | byte | half | full | clock | place => 0

/-- The first number that is too large for a word. -/
def bound : Word → Int
  | byte => 2 ^ 8
  | half => 2 ^ 16
  | full => 2 ^ 32
  | signed => 2 ^ 31
  | clock => 2 ^ 64
  | place => 16

/-- Whether a word holds a number. -/
def Holds (w : Word) (n : Int) : Prop := w.low ≤ n ∧ n < w.bound

instance (w : Word) (n : Int) : Decidable (w.Holds n) :=
  inferInstanceAs (Decidable (w.low ≤ n ∧ n < w.bound))

/-- Puts a number into a word. -/
def hold (w : Word) (n : Int) : Except Word Int := if w.Holds n then .ok n else .error w

theorem holds_of_hold {w : Word} {n k : Int} (h : w.hold n = .ok k) : k = n ∧ w.Holds n := by
  unfold hold at h
  split at h
  · cases h
    exact ⟨rfl, ‹_›⟩
  · cases h

theorem ok_bind {α β : Type} (a : α) (f : α → Except Word β) : (Except.ok a >>= f) = f a := rfl

/-- A reckoning that does not fail has not failed before. -/
theorem exists_of_bind {α β : Type} {x : Except Word α} {f : α → Except Word β} {b : β}
    (h : x >>= f = .ok b) : ∃ a, x = .ok a ∧ f a = .ok b := by
  cases x with
  | error w => cases h
  | ok a => exact ⟨a, rfl, h⟩

end Word

/-- A reckoning comes to a value, or it fails for want of room in a word. -/
def Yields {α : Type} (room : Word → Prop) (x : Except Word α) (a : α) : Prop :=
  x = .ok a ∨ ∃ w, x = .error w ∧ ¬room w

namespace Yields

variable {α β : Type} {room room' : Word → Prop} {x : Except Word α} {a b : α} {b' : β} {w : Word}
  {n : Int} {f : α → Except Word β}

theorem pure (a : α) : Yields room (pure a) a := Or.inl rfl

theorem bind (hx : Yields room x a) (hf : Yields room (f a) b') : Yields room (x >>= f) b' := by
  rcases hx with rfl | ⟨w, rfl, hr⟩
  · exact hf
  · exact Or.inr ⟨w, rfl, hr⟩

theorem mono (hx : Yields room x a) (h : ∀ w, room' w → room w) : Yields room' x a :=
  hx.imp_right fun ⟨w, hw, hr⟩ => ⟨w, hw, mt (h w) hr⟩

theorem eq_ok (hx : Yields room x a) (h : ∀ w, room w) : x = .ok a :=
  hx.resolve_right fun ⟨w, _, hr⟩ => hr (h w)

/-- A reckoning that does not fail comes to no other value. -/
theorem eq_of_ok (hx : Yields room x a) (h : x = .ok b) : b = a := by
  rcases hx with rfl | ⟨w, rfl, -⟩
  · cases h
    rfl
  · cases h

theorem not_room (hx : Yields room x a) (h : x = .error w) : ¬room w := by
  rcases hx with rfl | ⟨w', rfl, hr⟩
  · cases h
  · cases h
    exact hr

/-- Where there is room, a number is put into its word. -/
theorem hold (h : room w → w.Holds n) : Yields room (w.hold n) n := by
  by_cases hn : w.Holds n
  · exact Or.inl (if_pos hn)
  · exact Or.inr ⟨w, if_neg hn, mt h hn⟩

theorem byte (h₀ : 0 ≤ n) (h : n < 2 ^ 8) : Yields room (Word.byte.hold n) n :=
  hold fun _ => ⟨h₀, h⟩

theorem half (h₀ : 0 ≤ n) (h : n < 2 ^ 16) : Yields room (Word.half.hold n) n :=
  hold fun _ => ⟨h₀, h⟩

theorem full (h₀ : 0 ≤ n) (h : n < 2 ^ 32) : Yields room (Word.full.hold n) n :=
  hold fun _ => ⟨h₀, h⟩

theorem place (h₀ : 0 ≤ n) (h : n < 16) : Yields room (Word.place.hold n) n := hold fun _ => ⟨h₀, h⟩

theorem signed (h : room .signed → -2 ^ 31 ≤ n ∧ n < 2 ^ 31) :
    Yields room (Word.signed.hold n) n := hold h

theorem clock (h : room .clock → 0 ≤ n ∧ n < 2 ^ 64) : Yields room (Word.clock.hold n) n := hold h

/-- A loop yields what its turns yield one after another. -/
theorem foldlM {step : Nat → α → α} {step' : α → Nat → Except Word α} {n : Nat}
    (h : ∀ i < n, ∀ a, Yields room (step' a i) (step i a)) (a : α) :
    Yields room ((List.range n).foldlM step' a) (n.fold (fun i _ a => step i a) a) := by
  induction n with
  | zero => exact pure a
  | succ n ih =>
    rw [List.range_succ, List.foldlM_append, Nat.fold_succ]
    refine bind (ih fun i hi => h i (Nat.lt_succ_of_lt hi)) ?_
    rw [List.foldlM_cons]
    exact bind (h n (Nat.lt_succ_self n) _) (pure _)

end Yields

namespace Words

open ReferenceController Message

/-- Gives up on a south pole that has been left behind. -/
def forgetSouth (t : Tracker) : Except Word Tracker :=
  match t.southSeen with
  | some (_, seenAt) => do
    let apart ← Word.signed.hold (t.position - seenAt)
    let apart ← Word.signed.hold apart.natAbs
    return if (Tracker.pairingReach : Int) < apart then { t with southSeen := none } else t
  | none => return t

/-- Reads one sensor. A carriage that it tells has its position reckoned from an end of the bed. -/
def readSensor (m : Model) (sensor : Side) (level : UInt16) (t : Tracker) :
    Except Word Tracker := do
  let t := (t.readSensor m sensor level).value
  let position ← Word.signed.hold t.position
  return { t with position }

def sense (m : Model) (hall : HallReading) (t : Tracker) : Except Word Tracker := do
  let t ← forgetSouth t
  let t ← readSensor m .left hall.left t
  readSensor m .right hall.right t

/-- Counts one encoder step. The new quarter is made larger before the old one is taken off. -/
def decode (l : Levels) (t : Tracker) : Except Word Tracker := do
  let quarter := Levels.quarter l.v1 l.v2
  let raised ← Word.byte.hold (quarter.val + 4)
  let ahead ← Word.byte.hold (raised - t.quarter.val)
  match (ahead % 4).toNat with
  | 1 =>
    let position ← Word.signed.hold (if quarter.val = 0 then t.position + 1 else t.position)
    return { t with quarter, direction := some .right, position }
  | 3 =>
    let position ← Word.signed.hold (if quarter.val = 3 then t.position - 1 else t.position)
    return { t with quarter, direction := some .left, position }
  | _ => return { t with quarter }

/-- The belt level to expect of a carriage, the belt coupled so many needles late. -/
def expectedBelt (m : Model) (c : Carriage) (shift : Nat) (t : Tracker) : Except Word Bool := do
  let away ← Word.signed.hold (t.position - c.homePosition)
  let away ← Word.signed.hold (away - shift)
  let quarters ← Word.signed.hold (4 * away)
  let quarters ← Word.signed.hold (quarters + t.quarter.val)
  let phase := quarters % (4 * m.solenoidCount : Nat)
  let ahead ← Word.full.hold (phase + beltLead)
  return decide (ahead.toNat % (4 * m.solenoidCount) ≤ 2 * m.solenoidCount)

def inferBelt (m : Model) (level : Bool) (t : Tracker) : Except Word Tracker :=
  match t.carriage, t.belt with
  | some c, none =>
    if m = .kh270 then return t
    else do
      let regular ← expectedBelt m c 0 t
      let shifted ← expectedBelt m c (m.solenoidCount / 2) t
      match regular == level, shifted == level with
      | true, false => return { t with belt := some .regular }
      | false, true => return { t with belt := some .shifted }
      | _, _ => return t
  | _, _ => return t

def track (m : Model) (l : Levels) (hall : HallReading) (t : Tracker) : Except Word Tracker := do
  let t ← sense m hall t
  let t ← decode l t
  inferBelt m l.belt t

/-- Works on the line that is knitted, if there is one. -/
def workLine (c : ReferenceController) : Except Word ReferenceController :=
  if c.mode = .knitting ∧ c.line.ready then
    match c.tracker.carriage, c.tracker.direction with
    | some carriage, some direction => do
      let selected ← Word.signed.hold (c.tracker.selected carriage direction)
      let worked := c.line.worked.or (if c.inRange selected then some direction else none)
      let c := { c with line := { c.line with worked } }
      return if worked.any (c.leftRange selected) then c.finishLine.value else c
    | _, _ => return c
  else return c

/-- A needle number that is shifted twice, whole cycles left out. -/
def wrapped (m : Model) (needle first second : Int) : Except Word Nat := do
  let index ← Word.signed.hold (needle + first)
  let index ← Word.signed.hold (index + second)
  return (index % m.solenoidCount).toNat

/-- The solenoid that drives a needle. -/
def armatureIndex (c : Carriage) (m : Model) (belt : BeltPhase) (d : Direction) (needle : Int) :
    Except Word Nat :=
  let half : Int := (m.solenoidCount / 2 : Nat)
  match m with
  | .kh270 => wrapped m needle 4 (if d = .left then half else 0)
  | .kh910 | .kh930 =>
    wrapped m needle (if belt = .shifted then half else 0)
      (if d = .left ∧ c.shiftsMovingLeft = true then half else 0)

/-- The register with a single bit set. -/
def single (i : Nat) : Except Word Register := do
  let i ← Word.place.hold i
  return 1#16 <<< i.toNat

/-- Powers the solenoid of a needle that the line selects. -/
def power (c : ReferenceController) (carriage : Carriage) (d : Direction) (needle : Int)
    (r : Register) : Except Word Register :=
  if c.wants needle then do
    let index ← armatureIndex carriage c.model (c.tracker.belt.getD .regular) d needle
    let place ← Word.half.hold (c.model.registerBit index)
    let bit ← single place.toNat
    return r &&& ~~~bit
  else return r

/-- The register while a line is knitted. In which order the needles of the window are looked at
does not matter. -/
def lineRegister (c : ReferenceController) (carriage : Carriage) (d : Direction) :
    Except Word Register := do
  let n := c.model.solenoidCount
  let selected ← Word.signed.hold (c.tracker.selected carriage d)
  let near ← Word.signed.hold (selected + d.step)
  let _far ← Word.signed.hold (selected + n * d.step)
  (List.range n).foldlM (fun r (i : Nat) => power c carriage d (near + i * d.step) r)
    c.model.idleRegister

def wantedRegister (c : ReferenceController) : Except Word Register :=
  if c.mode = .test then return c.testRegister
  else if c.mode = .knitting ∧ c.line.ready then
    match c.tracker.carriage, c.tracker.direction with
    | some carriage, some direction => lineRegister c carriage direction
    | _, _ => return c.model.idleRegister
  else return c.model.idleRegister

def driveSolenoids (c : ReferenceController) : Except Word ReferenceController := do
  let r ← wantedRegister c
  return if c.register = some r then c else { c with register := some r }.emit (.solenoids r)

/-- Works for one slice of time. -/
def step (c : ReferenceController) : Except Word ReferenceController := do
  let cycle ← Word.clock.hold (c.cycle + cyclesPerStep : Nat)
  let tracker ← track c.model c.levels c.hall c.tracker
  let c ← workLine { c with cycle := cycle.toNat, tracker }
  let c ← driveSolenoids c
  return (c.emit (.convert rightChannel)).emit (.convert leftChannel)

/-- Obeys the command of the hardware test that sets one bit. -/
def putSingle (c : ReferenceController) (payload : List UInt8) :
    Except Word ReferenceController :=
  match payload with
  | index :: on :: _ =>
    if index < 16 then do
      let bit ← single index.toNat
      let testRegister := if on ≠ 0 then c.testRegister ||| bit else c.testRegister &&& ~~~bit
      return { c with testRegister }
    else return c.send (testRes Code.setSingleCmd.name)
  | _ => return c.send (testRes Code.setSingleCmd.name)

/-- Answers a message. No other message has anything reckoned. -/
def onMessage (c : ReferenceController) (message : List UInt8) :
    Except Word ReferenceController :=
  match c.mode, understood message with
  | .test, some (.setSingleCmd, payload) => putSingle c payload
  | _, _ => return (c.onMessage message).value

def receive (c : ReferenceController) (b : UInt8) : Except Word ReferenceController :=
  let (message?, receiver) := c.receiver.push b
  let c := { c with receiver }
  message?.elim (return c) (onMessage c)

/-- The controller after a stimulus. -/
def after (c : ReferenceController) : Stimulus → Except Word ReferenceController
  | .byte b => receive c b
  | .slice => step c
  | .raise line value => return c.after (.raise line value)
  | .reset => return c.after .reset
  | .poll => return c.after .poll

/-- The controller after all that happens to it. -/
def afterAll (c : ReferenceController) (xs : List Stimulus) : Except Word ReferenceController :=
  xs.foldlM after c

theorem afterAll_append (c : ReferenceController) (xs ys : List Stimulus) :
    afterAll c (xs ++ ys) = afterAll c xs >>= (afterAll · ys) := List.foldlM_append

theorem afterAll_singleton (c : ReferenceController) (x : Stimulus) : afterAll c [x] = after c x :=
  bind_pure _

end Words

end KnitBench
