import Mathlib.Tactic.Common

/-! # Outcomes of a computation that may fail

A computation keeps a postcondition and avoids errors: what it returns has the property, and
if it fails, then with another error. A computation with a bound on its work agrees with one
that has more of it, unless it failed at the bound.
-/

namespace RemoteAttestation

universe u v

/-- The outcome is a value with the property, or an error that is not bad. -/
def Avoids {ε : Type u} {α : Type v} (bad : ε → Prop) (post : α → Prop) : Except ε α → Prop
  | .ok a => post a
  | .error e => ¬ bad e

/-- What is returned has the property. -/
abbrev Yields {ε : Type u} {α : Type v} (post : α → Prop) : Except ε α → Prop :=
  Avoids (fun _ => False) post

namespace Avoids

variable {ε : Type u} {α β : Type v} {bad : ε → Prop} {post : α → Prop} {next : β → Prop}

theorem ne_error {e : ε} {x : Except ε α} (hx : Avoids bad post x) (he : bad e) :
    x ≠ .error e := by
  intro heq
  rw [heq] at hx
  exact hx he

theorem mono {weaker : α → Prop} {x : Except ε α} (hx : Avoids bad post x)
    (hweaker : ∀ a, post a → weaker a) : Avoids bad weaker x := by
  cases x with
  | error e => exact hx
  | ok a => exact hweaker a hx

theorem bind {x : Except ε α} {f : α → Except ε β} (hx : Avoids bad post x)
    (hf : ∀ a, x = .ok a → post a → Avoids bad next (f a)) : Avoids bad next (x >>= f) := by
  cases x with
  | error e => exact hx
  | ok a => exact hf a rfl hx

theorem ite {p : Prop} [Decidable p] {x y : Except ε α} (hx : p → Avoids bad post x)
    (hy : ¬ p → Avoids bad post y) : Avoids bad post (if p then x else y) := by
  by_cases hp : p
  · rw [if_pos hp]
    exact hx hp
  · rw [if_neg hp]
    exact hy hp

end Avoids

theorem yields_true {ε : Type u} {α : Type v} (x : Except ε α) : Yields (fun _ => True) x := by
  cases x with
  | error e => exact not_false
  | ok a => trivial

/-- The first computation fails with `bad`, or the second one has the same outcome. -/
def Agrees {ε : Type u} {α : Type v} (bad : ε) (x y : Except ε α) : Prop :=
  x = .error bad ∨ x = y

namespace Agrees

variable {ε : Type u} {α β : Type v} {bad : ε}

theorem refl (x : Except ε α) : Agrees bad x x := .inr rfl

theorem trans {x y z : Except ε α} (hxy : Agrees bad x y) (hyz : Agrees bad y z) :
    Agrees bad x z := by
  rcases hxy with hbad | rfl
  · exact .inl hbad
  · exact hyz

/-- A computation that avoids the error has the outcome of any that agrees with it. -/
theorem eq_of_avoids {avoided : ε → Prop} {post : α → Prop} {x y : Except ε α}
    (hagrees : Agrees bad x y) (hx : Avoids avoided post x) (hbad : avoided bad) : x = y :=
  hagrees.resolve_left (hx.ne_error hbad)

theorem bind {x y : Except ε α} {f g : α → Except ε β} (hxy : Agrees bad x y)
    (hfg : ∀ a, Agrees bad (f a) (g a)) : Agrees bad (x >>= f) (y >>= g) := by
  rcases hxy with rfl | rfl
  · exact .inl rfl
  · cases x with
    | error e => exact .inr rfl
    | ok a => exact hfg a

theorem ite {p : Prop} [Decidable p] {x x' y y' : Except ε α} (hx : Agrees bad x x')
    (hy : Agrees bad y y') : Agrees bad (if p then x else y) (if p then x' else y') := by
  by_cases hp : p
  · rw [if_pos hp, if_pos hp]
    exact hx
  · rw [if_neg hp, if_neg hp]
    exact hy

end Agrees

end RemoteAttestation
