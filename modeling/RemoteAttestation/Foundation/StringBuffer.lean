import RemoteAttestation.Foundation.Cells
import RemoteAttestation.Foundation.Allocation

/-! # Strings in a buffer

`strncpy` and `strncat` on a buffer at address 0. The string in the buffer is looked for
in the first `limit` bytes; where a terminator is known to be among them the limit
does not matter.
-/

namespace RemoteAttestation

namespace Cells

/-- The string at the start of the buffer. -/
def string (cells : Cells) (limit : Nat) : Bytes := cstr (cells.slice 0 limit)

/-- `strncpy` pads with terminators up to the count. -/
def strncpy (cells : Cells) (src : Bytes) (count : Nat) : Cells :=
  cells.write 0 (src.take count ++ List.replicate (count - src.length) 0)

/-- `strncat` appends at most `count` characters, and a terminator. -/
def strncat (cells : Cells) (limit : Nat) (src : Bytes) (count : Nat) : Cells :=
  cells.write (cells.string limit).length (src.take count ++ [0])

variable {cells : Cells} {text src : Bytes} {limit count : Nat}

/-- A string and its terminator lie in the buffer. -/
structure Holds (cells : Cells) (text : Bytes) : Prop where
  noNul : (0 : UInt8) ∉ text
  slice : cells.slice 0 text.length = text
  terminator : cells.byte text.length = 0

namespace Holds

theorem string_eq (hholds : cells.Holds text) (hlimit : text.length < limit) :
    cells.string limit = text := by
  obtain ⟨rest, rfl⟩ : ∃ rest, limit = text.length + (1 + rest) :=
    ⟨limit - text.length - 1, by omega⟩
  have hterminator : cells.slice (0 + text.length) 1 = [0] := by
    rw [Nat.zero_add, slice_one, hholds.terminator]
  rw [string, slice_add, slice_add, hterminator, hholds.slice, List.singleton_append]
  exact cstr_append_nul hholds.noNul _

/-- A string that was written with its terminator is held. -/
theorem of_write (cells : Cells) (hsrc : (0 : UInt8) ∉ src) (rest : Bytes) :
    (cells.write 0 (src ++ 0 :: rest)).Holds src := by
  have hwritten := slice_write cells 0 (src ++ 0 :: rest)
  rw [List.length_append, slice_add] at hwritten
  obtain ⟨hfront, _⟩ := List.append_inj hwritten (length_slice _ _)
  have hbyte := byte_write cells 0 (src ++ 0 :: rest) (i := src.length) (by simp)
  rw [Nat.zero_add] at hbyte
  exact ⟨hsrc, hfront, by rw [hbyte]; simp⟩

/-- A store behind the terminator leaves the string. -/
theorem store (hholds : cells.Holds text) {address : Nat} (hbehind : text.length < address)
    (value : UInt8) : (cells.store address value).Holds text := by
  refine ⟨hholds.noNul, ?_, ?_⟩
  · refine Eq.trans (slice_congr fun i hi => ?_) hholds.slice
    exact byte_store_of_ne (by omega) value
  · rw [byte_store_of_ne (by omega), hholds.terminator]

/-- What `strncat` leaves, and where it stores. -/
theorem strncat (hholds : cells.Holds text) (hlimit : text.length < limit)
    (hsrc : (0 : UInt8) ∉ src) (count : Nat) :
    (cells.strncat limit src count).Holds (text ++ src.take count) ∧
      cells.Confined text.length ((src.take count).length + 1) (cells.strncat limit src count) := by
  have hconfined := write_confined cells text.length (src.take count ++ [0])
  have hwritten := slice_write cells text.length (src.take count ++ [0])
  rw [Cells.strncat, hholds.string_eq hlimit]
  rw [List.length_append, List.length_singleton] at hconfined hwritten
  rw [slice_add] at hwritten
  obtain ⟨hfront, hback⟩ := List.append_inj hwritten (length_slice _ _)
  refine ⟨⟨?_, ?_, ?_⟩, hconfined⟩
  · rw [List.mem_append, not_or]
    exact ⟨hholds.noNul, fun hmem => hsrc (List.mem_of_mem_take hmem)⟩
  · rw [List.length_append, slice_add, Nat.zero_add, hfront,
      hconfined.slice_eq (.inl (Nat.le_of_eq (Nat.zero_add _))), hholds.slice]
  · rw [slice_one, List.cons.injEq] at hback
    rw [List.length_append, hback.1]

end Holds

/-- A string that fits is copied with a terminator behind it. -/
theorem strncpy_holds (cells : Cells) (hsrc : (0 : UInt8) ∉ src) (hcount : src.length < count) :
    (cells.strncpy src count).Holds src ∧ cells.Confined 0 count (cells.strncpy src count) := by
  have hpadding : List.replicate (count - src.length) (0 : UInt8) =
      0 :: List.replicate (count - src.length - 1) 0 := by
    rw [← List.replicate_succ]
    congr 1
    omega
  have hconfined := write_confined cells 0 (src ++ 0 :: List.replicate (count - src.length - 1) 0)
  have hlength : (src ++ 0 :: List.replicate (count - src.length - 1) 0).length = count := by
    rw [List.length_append, List.length_cons, List.length_replicate]
    omega
  rw [hlength] at hconfined
  rw [strncpy, List.take_of_length_le (Nat.le_of_lt hcount), hpadding]
  exact ⟨.of_write cells hsrc _, hconfined⟩

end Cells

end RemoteAttestation
