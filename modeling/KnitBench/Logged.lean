import KnitBench.Notice

/-! Values that come with the notices given on the way to them. -/

namespace KnitBench

universe u v

/-- A value, and the notices of its making, oldest first. -/
structure Logged (α : Type u) where
  value : α
  notices : List Notice := []

namespace Logged

instance : Monad Logged where
  pure a := ⟨a, []⟩
  bind x f :=
    let y := f x.value
    ⟨y.value, x.notices ++ y.notices⟩

/-- Gives one notice. -/
def note (n : Notice) : Logged Unit := ⟨(), [n]⟩

/-- Gives a notice of the reference controller. -/
def noteController (n : ControllerNotice) : Logged Unit := note (.controller n)

/-- Gives a notice of a trial. -/
def noteTrial (n : TrialNotice) : Logged Unit := note (.trial n)

/-- Gives a notice of the bench. -/
def noteBench (n : BenchNotice) : Logged Unit := note (.bench n)

variable {α : Type u} {β : Type u}

@[simp] theorem value_pure (a : α) : (pure a : Logged α).value = a := rfl

@[simp] theorem notices_pure (a : α) : (pure a : Logged α).notices = [] := rfl

@[simp] theorem value_bind (x : Logged α) (f : α → Logged β) :
    (x >>= f).value = (f x.value).value := rfl

@[simp] theorem notices_bind (x : Logged α) (f : α → Logged β) :
    (x >>= f).notices = x.notices ++ (f x.value).notices := rfl

@[simp] theorem value_map (f : α → β) (x : Logged α) : (f <$> x).value = f x.value := rfl

theorem bind_eq (x : Logged α) (f : α → Logged β) :
    x >>= f = ⟨(f x.value).value, x.notices ++ (f x.value).notices⟩ := rfl

instance : LawfulMonad Logged :=
  LawfulMonad.mk' Logged (fun _ => by simp [Functor.map])
    (fun _ _ => by simp [bind_eq]) (fun _ _ _ => by simp [bind_eq])

end Logged

end KnitBench
