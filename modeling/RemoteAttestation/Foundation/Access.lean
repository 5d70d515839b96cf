import RemoteAttestation.Foundation.Bytes

/-! # Reads through a pointer

A program that casts a pointer to a structure reads at offsets that the length of the
allocation does not bound. What it reads is a list of ranges: its footprint. Inside the
allocation the bytes of a footprint are determined by the block.
-/

namespace RemoteAttestation

/-- A range of bytes that is read through a pointer. -/
structure Access where
  offset : Nat
  length : Nat
deriving DecidableEq

namespace Access

/-- Every byte of the range has an offset below `size`. -/
def Inside (size : Nat) (access : Access) : Prop := access.offset + access.length ≤ size

instance (size : Nat) (access : Access) : Decidable (access.Inside size) :=
  inferInstanceAs (Decidable (_ ≤ _))

theorem Inside.mono {size size' : Nat} {access : Access} (hinside : access.Inside size)
    (hle : size ≤ size') : access.Inside size' :=
  Nat.le_trans hinside hle

end Access

namespace Memory

/-- Two pointers have the same bytes in every range of a footprint. -/
def Agree (footprint : List Access) (left right : Memory) : Prop :=
  ∀ access ∈ footprint, left.slice access.offset access.length =
    right.slice access.offset access.length

variable {left right : Memory} {footprint : List Access} {access : Access}

@[simp] theorem agree_nil : Agree [] left right := fun _ hmem => absurd hmem List.not_mem_nil

@[simp] theorem agree_cons : Agree (access :: footprint) left right ↔
    left.slice access.offset access.length = right.slice access.offset access.length ∧
      Agree footprint left right :=
  List.forall_mem_cons

@[simp] theorem agree_append {front back : List Access} :
    Agree (front ++ back) left right ↔ Agree front left right ∧ Agree back left right :=
  List.forall_mem_append

theorem field_eq_of_slice_eq {offset n : Nat}
    (hslice : left.slice offset n = right.slice offset n) :
    left.field offset n = right.field offset n :=
  Block.ext hslice

theorem slice_add (memory : Memory) (offset m n : Nat) :
    memory.slice offset (m + n) = memory.slice offset m ++ memory.slice (offset + m) n := by
  simp only [slice, List.range_add, List.map_append, List.map_map, Nat.add_assoc]
  rfl

/-- Inside the allocation nothing depends on what lies behind it. -/
theorem agree_of_inside (hblock : left.block = right.block)
    (hinside : ∀ access ∈ footprint, access.Inside left.block.length) :
    Agree footprint left right := by
  intro access hmem
  have hleft := hinside access hmem
  rw [slice_eq_take_drop left _ _ hleft, slice_eq_take_drop right _ _ (hblock ▸ hleft), hblock]

end Memory

end RemoteAttestation
