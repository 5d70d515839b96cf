import RemoteAttestation.Foundation.Bytes

/-! # Allocated blocks

A block is the list of its bytes. A store that leaves the block has no meaning: `overwrite`
gives no block then. `resize` is what `realloc` makes of a block: it keeps the bytes that
fit, and nothing is known about new ones.
-/

namespace RemoteAttestation

def overwrite (block : Bytes) (offset : Nat) (src : Bytes) : Option Bytes :=
  if offset + src.length ≤ block.length then
    some (block.take offset ++ src ++ block.drop (offset + src.length))
  else none

def resize (block : Bytes) (fresh : Nat → UInt8) (n : Nat) : Bytes :=
  block.take n ++ (List.range (n - block.length)).map fun i => fresh (block.length + i)

section

variable {block src front back : Bytes} {offset : Nat}

@[simp] theorem length_resize (block : Bytes) (fresh : Nat → UInt8) (n : Nat) :
    (resize block fresh n).length = n := by
  simp only [resize, List.length_append, List.length_take, List.length_map, List.length_range]
  omega

/-- A block that grows keeps its bytes. -/
theorem resize_take (fresh : Nat → UInt8) {n count : Nat} (hcount : count ≤ block.length)
    (hn : block.length ≤ n) : (resize block fresh n).take count = block.take count := by
  rw [resize, List.take_of_length_le hn, List.take_append_of_le_length hcount]

theorem overwrite_of_le (hinside : offset + src.length ≤ block.length) :
    overwrite block offset src =
      some (block.take offset ++ src ++ block.drop (offset + src.length)) :=
  if_pos hinside

/-- A store changes the bytes it reaches. -/
theorem overwrite_middle (front middle back : Bytes) (hlength : middle.length = src.length) :
    overwrite (front ++ middle ++ back) front.length src = some (front ++ src ++ back) := by
  have htake : (front ++ middle ++ back).take front.length = front := by
    rw [List.append_assoc, List.take_left]
  have hdrop : (front ++ middle ++ back).drop (front.length + src.length) = back := by
    rw [← hlength, ← List.length_append, List.drop_left]
  rw [overwrite_of_le (by simp only [List.length_append]; omega), htake, hdrop]

/-! ## Strings in a block -/

theorem cstr_append (hfront : (0 : UInt8) ∉ front) : cstr (front ++ back) = front ++ cstr back := by
  induction front with
  | nil => rfl
  | cons byte front ih =>
      simp only [List.mem_cons, not_or] at hfront
      have hbyte : (byte != 0) = true := bne_iff_ne.mpr (Ne.symm hfront.1)
      rw [List.cons_append, cstr, List.takeWhile_cons, if_pos hbyte, ← cstr, ih hfront.2,
        List.cons_append]

end

end RemoteAttestation
