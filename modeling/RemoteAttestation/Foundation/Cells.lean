import RemoteAttestation.Foundation.Bytes
import Mathlib.Logic.Function.Basic

/-! # Stores at addresses

`Cells` is a memory that remembers where it was stored to. A program that only stores
into a range is `Confined` to it: every store has an address in the range, and every
byte outside is kept.
-/

namespace RemoteAttestation

structure Cells where
  byte : Nat → UInt8
  /-- The addresses stored to, the last one first. -/
  written : List Nat

namespace Cells

def store (cells : Cells) (address : Nat) (value : UInt8) : Cells :=
  ⟨Function.update cells.byte address value, address :: cells.written⟩

/-- Stores at consecutive addresses. -/
def write (cells : Cells) (address : Nat) : Bytes → Cells
  | [] => cells
  | value :: values => write (cells.store address value) (address + 1) values

/-- The `n` bytes from an address on. -/
def slice (cells : Cells) (address n : Nat) : Bytes :=
  (List.range n).map fun i => cells.byte (address + i)

/-- All stores between two memories are among `n` bytes. -/
structure Confined (address n : Nat) (before after : Cells) : Prop where
  kept : ∀ x, x < address ∨ address + n ≤ x → after.byte x = before.byte x
  inside : ∀ x ∈ after.written, x ∈ before.written ∨ (address ≤ x ∧ x < address + n)

variable {cells before next after : Cells} {address n : Nat}

@[simp] theorem byte_store_self (value : UInt8) :
    (cells.store address value).byte address = value := by
  simp [store]

theorem byte_store_of_ne {x : Nat} (hne : x ≠ address) (value : UInt8) :
    (cells.store address value).byte x = cells.byte x := by
  simp [store, hne]

@[simp] theorem length_slice (address n : Nat) : (cells.slice address n).length = n := by
  simp [slice]

namespace Confined

theorem refl (address n : Nat) (cells : Cells) : Confined address n cells cells :=
  ⟨fun _ _ => rfl, fun _ hmem => .inl hmem⟩

theorem trans (hleft : Confined address n before next) (hright : Confined address n next after) :
    Confined address n before after := by
  refine ⟨fun x hx => ?_, fun x hmem => ?_⟩
  · rw [hright.kept x hx, hleft.kept x hx]
  · rcases hright.inside x hmem with hnext | hinside
    · exact hleft.inside x hnext
    · exact .inr hinside

theorem mono {address' n' : Nat} (hconfined : Confined address n before after)
    (hlow : address' ≤ address) (hhigh : address + n ≤ address' + n') :
    Confined address' n' before after := by
  refine ⟨fun x hx => ?_, fun x hmem => ?_⟩
  · apply hconfined.kept
    omega
  · rcases hconfined.inside x hmem with hbefore | hinside
    · exact .inl hbefore
    · exact .inr (by omega)

theorem store {x : Nat} (hlow : address ≤ x) (hhigh : x < address + n) (value : UInt8) :
    Confined address n cells (cells.store x value) := by
  refine ⟨fun y hy => byte_store_of_ne (by omega) value, fun y hmem => ?_⟩
  rcases List.mem_cons.mp hmem with rfl | hbefore
  · exact .inr ⟨hlow, hhigh⟩
  · exact .inl hbefore

end Confined

/-! ## Consecutive stores -/

theorem write_confined (cells : Cells) (address : Nat) (values : Bytes) :
    cells.Confined address values.length (cells.write address values) := by
  induction values generalizing cells address with
  | nil => exact .refl _ _ _
  | cons value values ih =>
      have hfirst : cells.Confined address (values.length + 1) (cells.store address value) :=
        .store (Nat.le_refl _) (by omega) value
      exact hfirst.trans ((ih (cells.store address value) (address + 1)).mono (by omega) (by omega))

/-- The bytes stored are found where they were stored. -/
theorem byte_write (cells : Cells) (address : Nat) (values : Bytes) {i : Nat}
    (hi : i < values.length) : (cells.write address values).byte (address + i) = values[i] := by
  induction values generalizing cells address i with
  | nil => exact absurd hi (Nat.not_lt_zero i)
  | cons value values ih =>
      cases i with
      | zero =>
          rw [write, (write_confined _ _ _).kept _ (by omega), Nat.add_zero, byte_store_self]
          rfl
      | succ i =>
          have hrest := ih (cells.store address value) (address + 1) (Nat.lt_of_succ_lt_succ hi)
          rw [Nat.add_assoc, Nat.add_comm 1] at hrest
          rw [write, hrest, List.getElem_cons_succ]

theorem mem_written_write {cells : Cells} {address : Nat} {values : Bytes} {x : Nat} :
    x ∈ (cells.write address values).written ↔
      x ∈ cells.written ∨ (address ≤ x ∧ x < address + values.length) := by
  induction values generalizing cells address with
  | nil =>
      simp only [write, List.length_nil]
      exact ⟨.inl, fun h => h.resolve_right (by omega)⟩
  | cons value values ih =>
      rw [write, ih, store, List.mem_cons, List.length_cons, or_comm (b := x ∈ cells.written),
        or_assoc]
      apply or_congr Iff.rfl
      omega

/-! ## Slices -/

theorem slice_add (cells : Cells) (address m n : Nat) :
    cells.slice address (m + n) = cells.slice address m ++ cells.slice (address + m) n := by
  simp only [slice, List.range_add, List.map_append, List.map_map, Nat.add_assoc]
  rfl

theorem slice_one (cells : Cells) (address : Nat) :
    cells.slice address 1 = [cells.byte address] := rfl

theorem slice_congr {n : Nat}
    (hsame : ∀ i < n, after.byte (address + i) = before.byte (address + i)) :
    after.slice address n = before.slice address n :=
  List.map_congr_left fun i hi => hsame i (List.mem_range.mp hi)

/-- A slice of what was written. -/
theorem slice_write (cells : Cells) (address : Nat) (values : Bytes) :
    (cells.write address values).slice address values.length = values := by
  apply List.ext_getElem
  · rw [length_slice]
  · intro i hi hi'
    simp only [slice, List.getElem_map, List.getElem_range]
    exact byte_write cells address values hi'

/-- A slice that the stores did not reach. -/
theorem Confined.slice_eq (hconfined : Confined address n before after) {x m : Nat}
    (hdisjoint : x + m ≤ address ∨ address + n ≤ x) : after.slice x m = before.slice x m :=
  slice_congr fun i hi => hconfined.kept _ (by omega)

end Cells

end RemoteAttestation
