import Mathlib.Tactic.Common

/-! # Programs with a state that may end the process

A `Proc` runs to a value or to the end of its process; in both cases the state
it reached is kept, since what a dying process has already sent stays sent.
Facts about what a program leaves alone are proved with `Keeps`, one rule for
each way of building a program.
-/

namespace RemoteAttestation

universe u v w

def Proc (σ : Type u) (α : Type v) : Type (max u v) := σ → Option α × σ

namespace Proc

variable {σ : Type u} {α : Type v} {β : Type w}

protected def pure (a : α) : Proc σ α := fun s => (some a, s)

protected def bind (x : Proc σ α) (f : α → Proc σ β) : Proc σ β := fun s =>
  match x s with
  | (some a, next) => f a next
  | (none, next) => (none, next)

/-- The process ends here: an uncaught exception, or undefined behaviour. -/
def die : Proc σ α := fun s => (none, s)

/-- A step that always returns. -/
def step (f : σ → α × σ) : Proc σ α := fun s => (some (f s).1, (f s).2)

instance : Monad (Proc.{u, v} σ) where
  pure := Proc.pure
  bind := Proc.bind

@[simp] theorem pure_apply (a : α) (s : σ) : (pure a : Proc σ α) s = (some a, s) := rfl

@[simp] theorem die_apply (s : σ) : (die : Proc σ α) s = (none, s) := rfl

@[simp] theorem step_apply (f : σ → α × σ) (s : σ) : step f s = (some (f s).1, (f s).2) := rfl

section Bind

variable {β : Type v}

theorem bind_apply (x : Proc σ α) (f : α → Proc σ β) (s : σ) :
    (x >>= f) s = match x s with
      | (some a, next) => f a next
      | (none, next) => (none, next) := rfl

theorem bind_of_some {x : Proc σ α} {s next : σ} {a : α} (hx : x s = (some a, next))
    (f : α → Proc σ β) : (x >>= f) s = f a next := by
  rw [bind_apply, hx]

theorem bind_of_none {x : Proc σ α} {s next : σ} (hx : x s = (none, next))
    (f : α → Proc σ β) : (x >>= f) s = (none, next) := by
  rw [bind_apply, hx]

@[simp] theorem step_bind (g : σ → α × σ) (f : α → Proc σ β) (s : σ) :
    (step g >>= f) s = f (g s).1 (g s).2 := rfl

@[simp] theorem pure_bind_apply (a : α) (f : α → Proc σ β) (s : σ) :
    ((pure a : Proc σ α) >>= f) s = f a s := rfl

/-- A sequence returns exactly when both parts do. -/
theorem bind_eq_some {x : Proc σ α} {f : α → Proc σ β} {s last : σ} {b : β} :
    (x >>= f) s = (some b, last) ↔ ∃ a next, x s = (some a, next) ∧ f a next = (some b, last) := by
  constructor
  · intro h
    rw [bind_apply] at h
    split at h
    next a next hx => exact ⟨a, next, hx, h⟩
    next => simp at h
  · rintro ⟨a, next, hx, hf⟩
    rw [bind_of_some hx, hf]

end Bind

/-! ## What a program leaves alone -/

/-- The states before and after a program are related, whether it returns or dies. -/
def Keeps (rel : σ → σ → Prop) (x : Proc σ α) : Prop := ∀ s, rel s (x s).2

namespace Keeps

variable {rel : σ → σ → Prop}

theorem pure (hrefl : ∀ s, rel s s) (a : α) : Keeps rel (Pure.pure a : Proc σ α) :=
  fun s => hrefl s

theorem die (hrefl : ∀ s, rel s s) : Keeps rel (Proc.die : Proc σ α) := fun s => hrefl s

theorem step {f : σ → α × σ} (hf : ∀ s, rel s (f s).2) : Keeps rel (Proc.step f) := hf

theorem bind {β : Type v} (htrans : ∀ a b c, rel a b → rel b c → rel a c) {x : Proc σ α}
    {f : α → Proc σ β} (hx : Keeps rel x) (hf : ∀ a, Keeps rel (f a)) : Keeps rel (x >>= f) := by
  intro s
  have hfirst := hx s
  rw [bind_apply]
  split
  next a next heq =>
    rw [heq] at hfirst
    exact htrans _ _ _ hfirst (hf a next)
  next next heq =>
    rw [heq] at hfirst
    exact hfirst

end Keeps

end Proc

end RemoteAttestation
