import Mathlib.Data.List.Basic
import Mathlib.Data.List.TakeWhile

/-! # Positions in a text

The search functions of `std::string` that start at a position and return one, or `npos`, and
`substr` between two positions. What lies between the position of a search and the position
that it found is the longest stretch without the thing that was searched for.
-/

namespace RemoteAttestation

variable {α : Type}

/-- `find_first_of` and `find_first_not_of` from a position on. -/
def findFrom (p : α → Bool) (text : List α) (pos : Nat) : Option Nat :=
  ((text.drop pos).findIdx? p).map (pos + ·)

/-- `substr` from a position to another, or to the end for `npos`. -/
def substr (text : List α) (pos : Nat) : Option Nat → List α
  | none => text.drop pos
  | some stop => (text.drop pos).take (stop - pos)

/-- The text before an element that was found, and from it on. -/
theorem split_of_findIdx? {p : α → Bool} {text : List α} {i : Nat}
    (hfind : text.findIdx? p = some i) :
    text.take i = text.takeWhile (fun c => !p c) ∧ text.drop i = text.dropWhile (fun c => !p c) := by
  induction text generalizing i with
  | nil => cases hfind
  | cons c text ih =>
      rw [List.findIdx?_cons] at hfind
      cases hc : p c with
      | true =>
          rw [hc, if_pos rfl] at hfind
          cases hfind
          rw [List.takeWhile_cons_of_neg (by simp [hc]), List.dropWhile_cons_of_neg (by simp [hc])]
          exact ⟨rfl, rfl⟩
      | false =>
          rw [hc, if_neg Bool.false_ne_true] at hfind
          obtain ⟨j, hj, rfl⟩ := Option.map_eq_some_iff.mp hfind
          obtain ⟨htake, hdrop⟩ := ih hj
          rw [List.takeWhile_cons_of_pos (by simp [hc]), List.dropWhile_cons_of_pos (by simp [hc]),
            List.take_succ_cons, List.drop_succ_cons, htake, hdrop]
          exact ⟨rfl, rfl⟩

theorem findFrom_eq_none_iff {p : α → Bool} {text : List α} {pos : Nat} :
    findFrom p text pos = none ↔ ∀ c ∈ text.drop pos, p c = false := by
  rw [findFrom, Option.map_eq_none_iff, List.findIdx?_eq_none_iff]

/-- What a search passes over. -/
theorem substr_findFrom (p : α → Bool) (text : List α) (pos : Nat) :
    substr text pos (findFrom p text pos) = (text.drop pos).takeWhile (fun c => !p c) := by
  unfold findFrom
  cases hfind : (text.drop pos).findIdx? p with
  | none =>
      rw [List.findIdx?_eq_none_iff] at hfind
      have hall : (text.drop pos).takeWhile (fun c => !p c) = text.drop pos :=
        List.takeWhile_eq_self_iff.mpr fun c hc => by simp [hfind c hc]
      rw [hall]
      rfl
  | some i =>
      rw [← (split_of_findIdx? hfind).1, Option.map_some, substr, Nat.add_sub_cancel_left]

/-- What a search leaves. -/
theorem drop_of_findFrom {p : α → Bool} {text : List α} {pos i : Nat}
    (hfind : findFrom p text pos = some i) :
    text.drop i = (text.drop pos).dropWhile (fun c => !p c) := by
  obtain ⟨j, hj, rfl⟩ := Option.map_eq_some_iff.mp hfind
  rw [← (split_of_findIdx? hj).2, List.drop_drop]

end RemoteAttestation
