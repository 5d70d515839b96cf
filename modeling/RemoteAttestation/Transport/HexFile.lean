import RemoteAttestation.Foundation.Cells
import RemoteAttestation.Foundation.Allocation
import RemoteAttestation.Transport.HexDecoder

/-! # Hexadecimal files

`to_hexstring_file` prints an array into a file, `from_hexstring_file` loads such a file
into a block without a terminator and decodes it. The decoder is asked for 16 bytes,
whatever the length of the array is.
-/

namespace RemoteAttestation

/-- What the calls of the two functions answer. -/
structure FileHost where
  fopenWrite : Bool
  fopenRead : Bool
  /-- What lies behind the block of `malloc`; `none` is the null pointer. -/
  malloc : Option Bytes
  /-- The unset variable of `from_hexstring`. -/
  stale : Nat → UInt8

/-- `to_hexstring_file`: its value, and the contents of the file. -/
def toHexstringFile (host : FileHost) (src : Bytes) (file : Option Bytes) : Bool × Option Bytes :=
  if host.fopenWrite then (true, some (hexstring src)) else (false, file)

/-- The value of `from_hexstring_file`, the memory it leaves, and the last character of
`sbuf` that each call of `sscanf` reads. -/
structure HexFileRead where
  rv : Bool
  cells : Cells
  reads : List Nat

/-- `from_hexstring` of a text in `sbuf`. -/
def decodeFile (host : FileHost) (text : Bytes) (dest : Nat) (cells : Cells) : HexFileRead :=
  let (rv, stored) := fromHexstring host.stale text 16
  { rv
    cells := cells.write dest stored
    reads := (List.range (scanCount text 16)).map fun i => lastRead text (2 * i) }

/-- `from_hexstring_file`. `fread` of one element succeeds if the element is not empty and
the file holds all of it. -/
def fromHexstringFile (host : FileHost) (file : Option Bytes) (len dest : Nat) (cells : Cells) :
    HexFileRead :=
  match host.malloc with
  | none => ⟨false, cells, []⟩
  | some behind =>
      match file with
      | none => ⟨false, cells, []⟩
      | some contents =>
          if !host.fopenRead then ⟨false, cells, []⟩
          else if len * 2 = 0 ∨ contents.length < len * 2 then ⟨false, cells, []⟩
          else decodeFile host (contents.take (len * 2) ++ behind) dest cells

/-- The array is read back, and nothing else is stored to. -/
structure ReadsBack (src : Bytes) (dest : Nat) (cells : Cells) (result : HexFileRead) : Prop where
  returns : result.rv = true
  value : ∀ i (hi : i < src.length), result.cells.byte (dest + i) = src[i]
  confined : cells.Confined dest src.length result.cells

/-- The array is read back, and the decoder stays inside of the characters it loaded. -/
structure FileRoundTrips (src : Bytes) (dest : Nat) (cells : Cells) (result : HexFileRead) : Prop
    extends ReadsBack src dest cells result where
  inside : ∀ last ∈ result.reads, last < 2 * src.length

/-- The calls succeed, and what is behind the first 16 bytes is in place already. -/
structure TailInPlace (host : FileHost) (src : Bytes) (dest : Nat) (memory : Nat → UInt8) :
    Prop where
  malloc : host.malloc ≠ none
  fopenRead : host.fopenRead = true
  length : 16 ≤ src.length
  tail : ∀ i (hi : i < src.length), 16 ≤ i → memory (dest + i) = src[i]

/-! ## Reading a written file -/

section

variable {host : FileHost} {src : Bytes} {dest : Nat} {cells : Cells}

/-- What is left of the reader after the file was written. -/
theorem fromHexstringFile_written {behind : Bytes} (hmalloc : host.malloc = some behind)
    (hopen : host.fopenRead = true) (hsrc : src ≠ []) :
    fromHexstringFile host (some (hexstring src)) src.length dest cells =
      decodeFile host (hexstring src ++ behind) dest cells := by
  have hpos := List.length_pos_iff.mpr hsrc
  have hload : ¬ (src.length * 2 = 0 ∨ (hexstring src).length < src.length * 2) := by
    rw [length_hexstring]
    omega
  unfold fromHexstringFile
  simp only [hmalloc, hopen, Bool.not_true, Bool.false_eq_true, if_false]
  rw [if_neg hload, List.take_of_length_le (by rw [length_hexstring]; omega)]

/-- The reader gives up before it decodes anything. -/
theorem fromHexstringFile_fails
    (hfails : host.malloc = none ∨ host.fopenRead = false ∨ src = []) :
    fromHexstringFile host (some (hexstring src)) src.length dest cells = ⟨false, cells, []⟩ := by
  unfold fromHexstringFile
  rcases hfails with hmalloc | hopen | rfl
  · rw [hmalloc]
  · rw [hopen]
    cases host.malloc with
    | none => rfl
    | some behind => rfl
  · cases host.malloc with
    | none => rfl
    | some behind => cases host.fopenRead <;> rfl

/-- No loaded character ends the string that the first call is given. -/
theorem decodeFile_reads_beyond (host : FileHost) (src : Bytes) (dest : Nat) (cells : Cells)
    (behind : Bytes) :
    ∃ last ∈ (decodeFile host (hexstring src ++ behind) dest cells).reads,
      2 * src.length ≤ last := by
  have hfirst : 0 < scanCount (hexstring src ++ behind) 16 :=
    (lt_scanCount_iff _ _ _).mpr ⟨by decide, fun j hj => absurd hj (Nat.not_lt_zero j)⟩
  refine ⟨lastRead (hexstring src ++ behind) (2 * 0),
    List.mem_map_of_mem (List.mem_range.mpr hfirst), ?_⟩
  -- The string that the first call scans goes on behind the block.
  have hnul : (0 : UInt8) ∉ hexstring src := notMem_hexstring (by decide)
  rw [lastRead, Nat.mul_zero, List.drop_zero, cstr_append hnul, List.length_append,
    length_hexstring]
  omega

/-- Sixteen bytes of an array that has them are decoded. -/
theorem fromHexstring_take (stale : Nat → UInt8) (behind : Bytes) (hlength : 16 ≤ src.length) :
    fromHexstring stale (hexstring src ++ behind) 16 = (true, src.take 16) := by
  have hdecode := fromHexstring_hexstring stale (src.take 16) (hexstring (src.drop 16) ++ behind)
  rwa [← List.append_assoc, ← hexstring_append, List.take_append_drop, List.length_take,
    Nat.min_eq_left hlength] at hdecode

/-- A decoder that is satisfied has stored 16 bytes. -/
theorem length_stored_of_accepts {stale : Nat → UInt8} {text : Bytes}
    (haccepts : (fromHexstring stale text 16).1 = true) :
    (fromHexstring stale text 16).2.length = 16 := by
  have hall := (fromHexstring_eq_true_iff stale text 16).mp haccepts
  have hlast : 15 < storedCount text 16 :=
    (lt_storedCount_iff text 16 15).mpr ⟨by decide, fun j hj => hall j (by omega)⟩
  have hle := storedCount_le text 16
  rw [length_stored]
  omega

/-- A shorter array is not read back: either the decoder fails, or it stores behind it. -/
theorem not_readsBack_of_short {memory : Nat → UInt8} (behind : Bytes) (hshort : src.length < 16) :
    ¬ ReadsBack src dest ⟨memory, []⟩
      (decodeFile host (hexstring src ++ behind) dest ⟨memory, []⟩) := by
  intro hback
  have hlength := length_stored_of_accepts hback.returns
  have hwritten : dest + 15 ∈ (decodeFile host (hexstring src ++ behind) dest
      ⟨memory, []⟩).cells.written := by
    refine Cells.mem_written_write.mpr (.inr ⟨by omega, ?_⟩)
    change dest + 15 < dest + (fromHexstring host.stale (hexstring src ++ behind) 16).2.length
    omega
  rcases hback.confined.inside _ hwritten with hbefore | hinside
  · exact List.not_mem_nil hbefore
  · omega

/-- A longer one is, if the bytes that are not decoded are there already. -/
theorem readsBack_iff_of_long {memory : Nat → UInt8} (behind : Bytes) (hlong : 16 ≤ src.length) :
    ReadsBack src dest ⟨memory, []⟩ (decodeFile host (hexstring src ++ behind) dest ⟨memory, []⟩) ↔
      ∀ i (hi : i < src.length), 16 ≤ i → memory (dest + i) = src[i] := by
  have hdecode : decodeFile host (hexstring src ++ behind) dest ⟨memory, []⟩ =
      { rv := true
        cells := Cells.write ⟨memory, []⟩ dest (src.take 16)
        reads := (List.range (scanCount (hexstring src ++ behind) 16)).map fun i =>
          lastRead (hexstring src ++ behind) (2 * i) } := by
    rw [decodeFile, fromHexstring_take host.stale behind hlong]
  have hlength : (src.take 16).length = 16 := by
    rw [List.length_take]
    omega
  have hconfined := Cells.write_confined ⟨memory, []⟩ dest (src.take 16)
  rw [hlength] at hconfined
  have htail : ∀ i, 16 ≤ i →
      (Cells.write ⟨memory, []⟩ dest (src.take 16)).byte (dest + i) = memory (dest + i) :=
    fun i hi => hconfined.kept _ (by omega)
  rw [hdecode]
  constructor
  · intro hback i hi hge
    rw [← htail i hge]
    exact hback.value i hi
  · intro hplace
    refine ⟨rfl, fun i hi => ?_, hconfined.mono (Nat.le_refl _) (by omega)⟩
    by_cases hfront : i < 16
    · have hstored := Cells.byte_write ⟨memory, []⟩ dest (src.take 16) (by omega : i < _)
      rwa [List.getElem_take] at hstored
    · rw [htail i (by omega)]
      exact hplace i hi (by omega)

end

/-- The round trip fails for every array: the decoder is given a text without a terminator.
What it leaves in memory is right exactly if the array has 16 bytes, or has more and the
others were there before. -/
theorem hexFile_roundTrip (host : FileHost) (src : Bytes) (file : Option Bytes) (dest : Nat)
    (memory : Nat → UInt8) (hwritten : (toHexstringFile host src file).1 = true) :
    ¬ FileRoundTrips src dest ⟨memory, []⟩
        (fromHexstringFile host (toHexstringFile host src file).2 src.length dest ⟨memory, []⟩) ∧
      (ReadsBack src dest ⟨memory, []⟩
          (fromHexstringFile host (toHexstringFile host src file).2 src.length dest ⟨memory, []⟩) ↔
        TailInPlace host src dest memory) := by
  have hfile : toHexstringFile host src file = (true, some (hexstring src)) := by
    unfold toHexstringFile at hwritten ⊢
    split at hwritten
    next hopen => rw [if_pos hopen]
    next => cases hwritten
  rw [hfile]
  by_cases hfails : host.malloc = none ∨ host.fopenRead = false ∨ src = []
  · rw [fromHexstringFile_fails hfails]
    refine ⟨fun htrip => Bool.false_ne_true htrip.returns, iff_of_false
      (fun hback => Bool.false_ne_true hback.returns) fun hplace => ?_⟩
    rcases hfails with hmalloc | hopen | rfl
    · exact hplace.malloc hmalloc
    · exact Bool.false_ne_true (hopen.symm.trans hplace.fopenRead)
    · exact absurd hplace.length (by decide)
  · simp only [not_or, Bool.not_eq_false] at hfails
    obtain ⟨hmalloc, hopen, hsrc⟩ := hfails
    obtain ⟨behind, hbehind⟩ := Option.ne_none_iff_exists'.mp hmalloc
    rw [fromHexstringFile_written hbehind hopen hsrc]
    refine ⟨fun htrip => ?_, ?_⟩
    · obtain ⟨last, hmem, hbeyond⟩ := decodeFile_reads_beyond host src dest ⟨memory, []⟩ behind
      exact absurd (htrip.inside last hmem) (by omega)
    · -- The decoder stores 16 bytes, so the length of the array decides.
      by_cases hlong : 16 ≤ src.length
      · rw [readsBack_iff_of_long behind hlong]
        exact ⟨fun htail => ⟨hmalloc, hopen, hlong, htail⟩, fun hplace => hplace.tail⟩
      · exact iff_of_false (not_readsBack_of_short behind (by omega)) fun hplace =>
          hlong hplace.length

/-- A host on which everything succeeds, with a terminator behind the block. -/
def FileHost.working : FileHost := ⟨true, true, some [0], fun _ => 0⟩

/-- An array of one byte is written, and not read back. -/
theorem hexFile_single :
    (toHexstringFile .working [7] none).1 = true ∧
      ¬ FileRoundTrips [7] 0 ⟨fun _ => 0, []⟩
          (fromHexstringFile .working (toHexstringFile .working [7] none).2 1 0 ⟨fun _ => 0, []⟩) ∧
        (ReadsBack [7] 0 ⟨fun _ => 0, []⟩
            (fromHexstringFile .working (toHexstringFile .working [7] none).2 1 0
              ⟨fun _ => 0, []⟩) ↔
          TailInPlace .working [7] 0 fun _ => 0) :=
  ⟨rfl, hexFile_roundTrip .working [7] none 0 (fun _ => 0) rfl⟩

/-- The last of 17 bytes is not read back. -/
theorem seventeen_not_roundTrips :
    (toHexstringFile .working (List.replicate 17 1) none).1 = true ∧
      ¬ FileRoundTrips (List.replicate 17 1) 0 ⟨fun _ => 0, []⟩
        (fromHexstringFile .working (toHexstringFile .working (List.replicate 17 1) none).2 17 0
          ⟨fun _ => 0, []⟩) := by
  refine ⟨rfl, fun htrip => ?_⟩
  have hread : fromHexstringFile .working (some (hexstring (List.replicate 17 1))) 17 0
      ⟨fun _ => 0, []⟩ = decodeFile .working (hexstring (List.replicate 17 1) ++ [0]) 0
        ⟨fun _ => 0, []⟩ :=
    fromHexstringFile_written rfl rfl (List.cons_ne_nil 1 _)
  have hback := htrip.toReadsBack
  change ReadsBack _ 0 _ (fromHexstringFile .working (some (hexstring (List.replicate 17 1))) 17 0
    ⟨fun _ => 0, []⟩) at hback
  rw [hread, readsBack_iff_of_long [0] (by decide)] at hback
  exact absurd (hback 16 (by decide) (Nat.le_refl 16)) (by decide)

end RemoteAttestation
