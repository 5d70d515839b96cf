import Mathlib.Data.List.GetD
import RemoteAttestation.Foundation.Allocation
import RemoteAttestation.Transport.HexDecoder
import RemoteAttestation.Transport.TwoTransports

/-! # The line buffer of `read_msg`, byte by byte

`readMsg` keeps the characters of a line and the size of the buffer apart. Here the buffer is
the block that `fgets` stores into, with whatever earlier calls left in it: the offset is found
again by `strlen` after each call of `fgets`, and a block that is full grows. A store that
leaves the block has no result. For lines of a bounded length this is a refinement of `readMsg`.
-/

namespace RemoteAttestation

/-! ## The code -/

/-- Standard input and the two static variables of `read_msg`. -/
structure LineBuffer where
  stdin : Bytes
  ferror : Bool
  /-- The block `buffer` points to. -/
  buffer : Option Bytes
  bufferSize : Nat
  allocs : List (Option Heap)

namespace LineBuffer

/-- The static variables before the first call. -/
def fresh (allocs : List (Option Heap)) (stdin : Bytes) : LineBuffer :=
  { stdin, ferror := false, buffer := none, bufferSize := msgioBufferSz, allocs }

/-- The reading loop: a return value, or `bread` without the newline. -/
def fill : Nat → LineBuffer → Nat → Option ((Int ⊕ Nat) × LineBuffer)
  | 0, io, _ => some (.inl 0, io)
  | fuel + 1, io, bread =>
      match fgets (room io.bufferSize bread) io.stdin with
      | none => some (.inl (if io.ferror then -1 else 0), io)
      | some (chunk, rest) =>
          -- `fgets` stores a NUL behind the characters.
          match io.buffer.bind fun block => overwrite block bread (chunk ++ [0]) with
          | none => none
          | some block =>
              let bread := (cstr block).length
              let io := { io with stdin := rest, buffer := some block }
              if bread = 0 then some (.inl 0, io)
              else if block.getD (bread - 1) 0 = 10 then some (.inr (bread - 1), io)
              else
                let size := grown io.bufferSize
                match malloc io.allocs with
                | (none, allocs) =>
                    some (.inl (-1), { io with buffer := none, bufferSize := size, allocs })
                | (some heap, allocs) =>
                    fill fuel { io with
                      buffer := some (resize block heap.contents size)
                      bufferSize := size
                      allocs } bread

/-- What `read_msg` makes of the outcome of its loop. -/
def finish : (Int ⊕ Nat) × LineBuffer → ReadResult × LineBuffer
  | (.inl rv, io) => (⟨rv, none, 0⟩, io)
  | (.inr bread, io) =>
      let block := io.buffer.getD []
      let bread := if bread ≠ 0 ∧ block.getD (bread - 1) 0 = 13 then bread - 1 else bread
      if bread % 2 = 1 then (⟨0, none, 0⟩, io)
      else match malloc io.allocs with
        | (none, allocs) => (⟨-1, none, 0⟩, { io with allocs })
        | (some heap, allocs) =>
            (⟨1, some (decodeInto heap (cstr block) (bread / 2)), bread⟩, { io with allocs })

/-- `read_msg`. There is no result when `fgets` stores outside of the block. -/
def readMsg (io : LineBuffer) : Option (ReadResult × LineBuffer) :=
  let start : Option LineBuffer := match io.buffer with
    | some _ => some io
    | none =>
        match malloc io.allocs with
        | (none, _) => none
        | (some heap, allocs) =>
            some { io with buffer := some ((List.range io.bufferSize).map heap.contents), allocs }
  match start with
  | none => some (⟨-1, none, 0⟩, { io with allocs := io.allocs.tail })
  | some io => (fill (2 * io.stdin.length + 2) io 0).map finish

/-- One call of `read_msg` after the other. -/
def readMsgs : Nat → LineBuffer → Option (List ReadResult × LineBuffer)
  | 0, io => some ([], io)
  | n + 1, io => do
      let (result, io) ← io.readMsg
      let (results, io) ← readMsgs n io
      return (result :: results, io)

/-! ## What the calls keep -/

/-- What calls that return a message leave: the block has the recorded size, which stays far
enough below the bound of an `int` to grow once more. -/
structure Good (io : LineBuffer) : Prop where
  initial_le : msgioBufferSz ≤ io.bufferSize
  small : io.bufferSize < 2 ^ 31 - msgioBufferSz
  size : ∀ block, io.buffer = some block → block.length = io.bufferSize

/-- No allocation fails. -/
def Succeeding (allocs : List (Option Heap)) : Prop := none ∉ allocs

/-- The head of the loop: `line` lies in front of the block, and a character fits. -/
structure Filling (io : LineBuffer) (block line : Bytes) : Prop where
  buffer : io.buffer = some block
  size : block.length = io.bufferSize
  front : block.take line.length = line
  fits : line.length + 2 ≤ io.bufferSize
  initial_le : msgioBufferSz ≤ io.bufferSize
  small : io.bufferSize < 2 ^ 31 - msgioBufferSz

/-- The standard streams as `readMsg` sees them. -/
def stdio (io : LineBuffer) (stdout : Bytes) : Stdio :=
  { stdin := io.stdin
    ferror := io.ferror
    stdout
    buffer := io.buffer.map List.length
    bufferSize := io.bufferSize
    allocs := io.allocs }

theorem fresh_good (allocs : List (Option Heap)) (stdin : Bytes) : (fresh allocs stdin).Good :=
  ⟨le_rfl, show msgioBufferSz < 2 ^ 31 - msgioBufferSz by decide, fun _ hbuffer => by cases hbuffer⟩

theorem malloc_of_succeeding {allocs : List (Option Heap)} (hallocs : Succeeding allocs) :
    ∃ heap, malloc allocs = (some heap, allocs.tail) ∧ Succeeding allocs.tail := by
  cases allocs with
  | nil => exact ⟨_, rfl, hallocs⟩
  | cons first rest =>
      obtain ⟨hfirst, hrest⟩ := not_or.mp (mt List.mem_cons.mpr hallocs)
      cases first with
      | none => exact absurd rfl hfirst
      | some heap => exact ⟨heap, rfl, hrest⟩

/-! ## The characters of a string -/

section

variable {text line block : Bytes}

/-- The last character of a string in a block. -/
theorem getD_last (tail : Bytes) (htext : text ≠ []) :
    (text ++ tail).getD (text.length - 1) 0 = text.getLast htext := by
  have hpos := List.length_pos_iff.mpr htext
  rw [List.getD_append _ _ _ _ (by omega), List.getD_eq_getElem _ _ (by omega),
    List.getLast_eq_getElem]

/-- `fgets` continues the string in front of it. -/
theorem overwrite_chunk (chunk : Bytes) (hfront : block.take line.length = line)
    (hinside : line.length + chunk.length + 1 ≤ block.length) :
    ∃ tail, overwrite block line.length (chunk ++ [0]) = some (line ++ chunk ++ 0 :: tail) ∧
      (line ++ chunk ++ 0 :: tail).length = block.length := by
  have hstored : line.length + (chunk ++ [0]).length ≤ block.length := by
    rw [List.length_append, List.length_singleton]
    omega
  refine ⟨block.drop (line.length + (chunk ++ [0]).length), ?_, ?_⟩
  · rw [overwrite_of_le hstored, hfront]
    simp only [List.append_assoc, List.singleton_append]
  · simp only [List.length_append, List.length_cons, List.length_drop, List.length_nil] at hstored ⊢
    omega

end

/-! ## The reading loop -/

section

variable {io : LineBuffer} {block line body rest : Bytes}

theorem Filling.room_eq (hfilling : Filling io block line) :
    room io.bufferSize line.length = (io.bufferSize - line.length - 1 : Nat) + 1 := by
  have hfits := hfilling.fits
  have hsmall := hfilling.small
  unfold room msgioBufferSz at *
  rw [Int.bmod_def]
  omega

/-- The block has grown, and `rest` is still to be read. -/
def grow (io : LineBuffer) (heap : Heap) (block rest : Bytes) : LineBuffer :=
  { io with
    stdin := rest
    buffer := some (resize block heap.contents (grown io.bufferSize))
    bufferSize := grown io.bufferSize
    allocs := io.allocs.tail }

theorem stdio_grow (io : LineBuffer) (heap : Heap) (block rest stdout : Bytes) :
    (io.grow heap block rest).stdio stdout = (io.stdio stdout).grow 1 rest := by
  unfold grow stdio Stdio.grow
  rw [if_neg Nat.one_ne_zero, Function.iterate_one, List.drop_one, Option.map_some, length_resize]

theorem Filling.grown_eq (hfilling : Filling io block line) :
    grown io.bufferSize = io.bufferSize + msgioBufferSz := by
  have hsmall := hfilling.small
  unfold grown msgioBufferSz at *
  omega

/-- A turn that fills the block lets it grow. -/
theorem Filling.grow {chunk tail : Bytes} (heap : Heap) (hfilling : Filling io block line)
    (hfull : line.length + chunk.length + 1 = io.bufferSize)
    (hlength : (line ++ chunk ++ 0 :: tail).length = block.length)
    (hsmall : io.bufferSize + msgioBufferSz < 2 ^ 31 - msgioBufferSz) (rest : Bytes) :
    Filling (io.grow heap (line ++ chunk ++ 0 :: tail) rest)
      (resize (line ++ chunk ++ 0 :: tail) heap.contents (grown io.bufferSize))
      (line ++ chunk) where
  buffer := rfl
  size := length_resize _ _ _
  front := by
    rw [resize_take]
    · exact List.take_left
    · simp only [List.length_append]
      omega
    · rw [hlength, hfilling.size, hfilling.grown_eq]
      omega
  fits := by
    have hinitial := hfilling.initial_le
    change _ ≤ grown io.bufferSize
    rw [hfilling.grown_eq, List.length_append]
    unfold msgioBufferSz at *
    omega
  initial_le := by
    change _ ≤ grown io.bufferSize
    rw [hfilling.grown_eq]
    omega
  small := by
    change grown io.bufferSize < _
    rw [hfilling.grown_eq]
    exact hsmall

/-- A turn that comes to the newline. -/
theorem fill_newline (fuel : Nat) (hfilling : Filling io block line)
    (hfgets : fgets (room io.bufferSize line.length) io.stdin = some (body ++ [10], rest))
    (hnul : (0 : UInt8) ∉ line ++ body)
    (hinside : line.length + body.length + 2 ≤ io.bufferSize) :
    ∃ tail, fill (fuel + 1) io line.length = some (.inr (line ++ body).length,
        { io with stdin := rest, buffer := some (line ++ body ++ 10 :: 0 :: tail) }) ∧
      (line ++ body ++ 10 :: 0 :: tail).length = block.length := by
  obtain ⟨tail, hstore, hlength⟩ := overwrite_chunk (body ++ [10]) hfilling.front
    (by rw [hfilling.size, List.length_append, List.length_singleton]; omega)
  have hstring : cstr (line ++ (body ++ [10]) ++ 0 :: tail) = line ++ (body ++ [10]) := by
    apply cstr_append_nul
    rw [← List.append_assoc]
    simp [List.mem_append.not.mp hnul]
  have hne : line ++ (body ++ [10]) ≠ [] := by simp
  have hshape : line ++ (body ++ [10]) ++ 0 :: tail = line ++ body ++ 10 :: 0 :: tail := by simp
  refine ⟨tail, ?_, by rw [← hshape]; exact hlength⟩
  rw [fill, hfgets]
  dsimp only
  rw [hfilling.buffer, Option.bind_some, hstore]
  dsimp only
  rw [hstring, if_neg (by simp), getD_last _ hne, if_pos (by simp), hshape]
  simp

/-- A turn that does not. -/
theorem fill_open (fuel : Nat) {chunk : Bytes} {heap : Heap} (hfilling : Filling io block line)
    (hfgets : fgets (room io.bufferSize line.length) io.stdin = some (chunk, rest))
    (hne : chunk ≠ []) (hlf : (10 : UInt8) ∉ chunk) (hnul : (0 : UInt8) ∉ line ++ chunk)
    (hinside : line.length + chunk.length + 1 ≤ io.bufferSize)
    (hmalloc : malloc io.allocs = (some heap, io.allocs.tail)) :
    ∃ tail, fill (fuel + 1) io line.length =
        fill fuel (io.grow heap (line ++ chunk ++ 0 :: tail) rest) (line ++ chunk).length ∧
      (line ++ chunk ++ 0 :: tail).length = block.length := by
  obtain ⟨tail, hstore, hlength⟩ := overwrite_chunk chunk hfilling.front
    (by rw [hfilling.size]; exact hinside)
  have hstring : cstr (line ++ chunk ++ 0 :: tail) = line ++ chunk := cstr_append_nul hnul tail
  have hlong : line ++ chunk ≠ [] := by simp [hne]
  have hlast : (line ++ chunk).getLast hlong ≠ 10 := by
    rw [List.getLast_append_of_ne_nil _ hne]
    exact fun hten => hlf (hten ▸ List.getLast_mem hne)
  refine ⟨tail, ?_, hlength⟩
  rw [fill, hfgets]
  dsimp only
  rw [hfilling.buffer, Option.bind_some, hstore]
  dsimp only
  rw [hstring, if_neg (List.length_pos_iff.mpr hlong).ne', getD_last _ hlong, if_neg hlast, hmalloc]
  rfl

/-- When the newline does not fit, `fgets` fills the block, and both loops go on behind it. -/
theorem fill_full (fuel : Nat) (stdout : Bytes) {space : Nat}
    (hstdin : io.stdin = body ++ 10 :: rest) (hbody : (10 : UInt8) ∉ body)
    (hnul : (0 : UInt8) ∉ line ++ body) (hfilling : Filling io block line)
    (hallocs : Succeeding io.allocs) (hspace : io.bufferSize = line.length + space + 1)
    (hpositive : 0 < space) (hlong : space ≤ body.length)
    (hsmall : io.bufferSize + msgioBufferSz < 2 ^ 31 - msgioBufferSz) :
    ∃ next grownBlock, fill (fuel + 1) io line.length =
        fill fuel next (line ++ body.take space).length ∧
      readMsgLoop (fuel + 1) (io.stdio stdout) line =
        readMsgLoop fuel (next.stdio stdout) (line ++ body.take space) ∧
      next.stdin = body.drop space ++ 10 :: rest ∧
      Filling next grownBlock (line ++ body.take space) ∧ Succeeding next.allocs := by
  have htake : io.stdin.take space = body.take space := by
    rw [hstdin, List.take_append_of_le_length hlong]
  have hdrop : io.stdin.drop space = body.drop space ++ 10 :: rest := by
    rw [hstdin, List.drop_append_of_le_length hlong]
  have hchunk : (body.take space).length = space := by
    rw [List.length_take, Nat.min_eq_left hlong]
  have hlf : (10 : UInt8) ∉ body.take space := fun h => hbody (List.mem_of_mem_take h)
  have hzero : (0 : UInt8) ∉ line ++ body.take space := by
    intro hmem
    rcases List.mem_append.mp hmem with hmem | hmem
    · exact hnul (List.mem_append_left _ hmem)
    · exact hnul (List.mem_append_right _ (List.mem_of_mem_take hmem))
  have hne : body.take space ≠ [] := List.ne_nil_of_length_pos (by omega)
  have hroom : room io.bufferSize line.length = (space + 1 : Nat) := by
    rw [hfilling.room_eq]
    omega
  have hfgets : fgets (room io.bufferSize line.length) io.stdin =
      some (body.take space, io.stdin.drop space) := by
    rw [hroom, ← htake]
    exact fgets_open (by simp [hstdin]) (by rw [htake]; exact hlf) hpositive
  obtain ⟨heap, hmalloc, hothers⟩ := malloc_of_succeeding hallocs
  obtain ⟨tail, hfill, hlength⟩ := fill_open fuel hfilling hfgets hne hlf hzero (by omega) hmalloc
  have hsame : fgets (room (io.stdio stdout).bufferSize line.length) (io.stdio stdout).stdin =
      some (body.take space, io.stdin.drop space) := hfgets
  have hloop := (readMsgLoop_grow fuel hsame hne hlf
    (fun h => hzero (List.mem_append_right _ h))).1 (by rw [stdio, hmalloc]; simp)
  refine ⟨_, _, hfill, ?_, hdrop, hfilling.grow heap (by omega) hlength hsmall _, hothers⟩
  rw [hloop, ← stdio_grow]

/-- The loop comes to the newline, as `readMsgLoop` does, with the line in the block. -/
theorem fill_line (fuel : Nat) (stdout : Bytes) (hstdin : io.stdin = body ++ 10 :: rest)
    (hbody : (10 : UInt8) ∉ body) (hnul : (0 : UInt8) ∉ line ++ body)
    (hfilling : Filling io block line) (hallocs : Succeeding io.allocs)
    (hshort : line.length + body.length + 1 < 2 ^ 31 - 2 * msgioBufferSz)
    (hfuel : body.length < fuel) :
    ∃ next tail, fill fuel io line.length = some (.inr (line ++ body).length, next) ∧
      readMsgLoop fuel (io.stdio stdout) line = (.inr (line ++ body), next.stdio stdout) ∧
      next.buffer = some (line ++ body ++ 10 :: 0 :: tail) ∧ next.Good ∧ next.stdin = rest ∧
      Succeeding next.allocs := by
  induction fuel generalizing io block line body with
  | zero => exact absurd hfuel (Nat.not_lt_zero _)
  | succ fuel ih =>
      have hfits := hfilling.fits
      obtain ⟨space, hspace⟩ : ∃ space, io.bufferSize = line.length + space + 1 :=
        ⟨io.bufferSize - line.length - 1, by omega⟩
      by_cases hends : body.length < space
      · have hroom : room io.bufferSize line.length = (space + 1 : Nat) := by
          rw [hfilling.room_eq]
          omega
        have hfgets : fgets (room io.bufferSize line.length) io.stdin =
            some (body ++ [10], rest) := by
          rw [hroom, hstdin]
          exact fgets_line hbody hends
        obtain ⟨tail, hfill, hlength⟩ := fill_newline fuel hfilling hfgets hnul (by omega)
        refine ⟨_, tail, hfill, ?_, rfl, ?_, rfl, hallocs⟩
        · have hloop := (readMsgLoop_line (fuel + 1) (io.stdio stdout) line hstdin hbody
            (fun h => hnul (List.mem_append_right _ h)) hroom (by omega) hfuel).1
          rw [growths_of_le hends] at hloop
          rw [hloop (granted_zero _), Stdio.grow, if_pos rfl, List.drop_zero]
          simp only [stdio, hfilling.buffer, Option.map_some, hlength, Function.iterate_zero, id]
        · refine ⟨hfilling.initial_le, hfilling.small, ?_⟩
          intro block' hblock'
          cases hblock'
          exact hlength.trans hfilling.size
      · -- The block is as long as what was read so far, so it stays below the bound when it grows.
        obtain ⟨grownIo, grownBlock, hfill, hloop, hrest, hgrown, hothers⟩ :=
          fill_full fuel stdout hstdin hbody hnul hfilling hallocs hspace (by omega) (by omega)
            (by omega)
        have hwhole : line ++ body.take space ++ body.drop space = line ++ body := by
          rw [List.append_assoc, List.take_append_drop]
        obtain ⟨next, tail, hfill', hloop', hnext⟩ := ih hrest
          (fun h => hbody (List.mem_of_mem_drop h)) (by rw [hwhole]; exact hnul) hgrown hothers
          (by rw [List.length_append, List.length_take, List.length_drop]; omega)
          (by rw [List.length_drop]; omega)
        rw [hwhole] at hfill' hloop' hnext
        exact ⟨next, tail, hfill.trans hfill', hloop.trans hloop', hnext⟩

/-! ## One call -/

/-- The block before the loop: the one that is there, or the first. -/
theorem readMsg_opened (hgood : io.Good) (hallocs : Succeeding io.allocs) (stdout : Bytes) :
    ∃ start block, Filling start block [] ∧ start.stdin = io.stdin ∧ Succeeding start.allocs ∧
      io.readMsg = (fill (2 * io.stdin.length + 2) start 0).map finish ∧
      RemoteAttestation.readMsg (io.stdio stdout) =
        finishMsg (readMsgLoop (2 * io.stdin.length + 2) (start.stdio stdout) []) := by
  have hfits : ([] : Bytes).length + 2 ≤ io.bufferSize := by
    have hinitial := hgood.initial_le
    unfold msgioBufferSz at hinitial
    rw [List.length_nil]
    omega
  cases hbuffer : io.buffer with
  | some block =>
      refine ⟨io, block, ⟨hbuffer, hgood.size block hbuffer, rfl, hfits, hgood.initial_le,
        hgood.small⟩, rfl, hallocs, ?_, ?_⟩
      · unfold readMsg
        rw [hbuffer]
      · unfold RemoteAttestation.readMsg stdio
        rw [hbuffer]
        rfl
  | none =>
      obtain ⟨heap, hmalloc, hothers⟩ := malloc_of_succeeding hallocs
      refine ⟨{ io with
          buffer := some ((List.range io.bufferSize).map heap.contents)
          allocs := io.allocs.tail }, _,
        ⟨rfl, by simp, rfl, hfits, hgood.initial_le, hgood.small⟩, rfl, hothers, ?_, ?_⟩
      · unfold readMsg
        rw [hbuffer, hmalloc]
      · unfold RemoteAttestation.readMsg stdio
        rw [hbuffer]
        simp only [Option.map_none, hmalloc, Option.map_some, List.length_map, List.length_range]

/-- The end of a call that has a line of even length. -/
theorem finish_memory {bread count : Nat} {heap : Heap} {allocs : List (Option Heap)}
    (hbuffer : io.buffer = some block)
    (hcount : (if bread ≠ 0 ∧ block.getD (bread - 1) 0 = 13 then bread - 1 else bread) = count)
    (heven : count % 2 = 0) (hmalloc : malloc io.allocs = (some heap, allocs)) :
    finish (.inr bread, io) =
      (⟨1, some (decodeInto heap (cstr block) (count / 2)), count⟩, { io with allocs }) := by
  subst hcount
  unfold finish
  dsimp only
  rw [hbuffer, Option.getD_some, if_neg (by omega), hmalloc]

/-- A call that comes to a newline within the bound of the buffer does what `readMsg` does,
and stores inside of its block. -/
theorem readMsg_refines (hgood : io.Good) (hallocs : Succeeding io.allocs) (stdout : Bytes)
    (hstdin : io.stdin = body ++ 10 :: rest) (hbody : (10 : UInt8) ∉ body)
    (hnul : (0 : UInt8) ∉ body) (hshort : body.length + 1 < 2 ^ 31 - 2 * msgioBufferSz)
    (heven : lineLength body % 2 = 0) :
    ∃ heap next, io.readMsg = some (⟨1, some (decodeInto heap (body ++ [10]) (lineLength body / 2)),
        lineLength body⟩, next) ∧
      RemoteAttestation.readMsg (io.stdio stdout) =
        (⟨1, some (decodeInto heap (body ++ [10]) (lineLength body / 2)), lineLength body⟩,
          next.stdio stdout) ∧
      next.Good ∧ next.stdin = rest ∧ Succeeding next.allocs := by
  obtain ⟨start, block, hfilling, hstart, hothers, hread, habstract⟩ :=
    readMsg_opened hgood hallocs stdout
  obtain ⟨last, tail, hfill, hloop, hbuffer, hlast, hrest, hmore⟩ :=
    fill_line (2 * io.stdin.length + 2) stdout (hstart.trans hstdin) hbody hnul hfilling hothers
      (by rw [List.length_nil]; omega) (by rw [hstdin, List.length_append]; omega)
  obtain ⟨heap, hmalloc, hfinal⟩ := malloc_of_succeeding hmore
  rw [List.nil_append] at hfill hloop hbuffer
  rw [List.length_nil] at hfill
  have hstring : cstr (body ++ 10 :: 0 :: tail) = body ++ [10] := by
    have hline : (0 : UInt8) ∉ body ++ [10] := by simp [hnul]
    have hcstr := cstr_append_nul hline tail
    rwa [List.append_assoc, List.singleton_append] at hcstr
  have hlength : (if body.length ≠ 0 ∧ (body ++ 10 :: 0 :: tail).getD (body.length - 1) 0 = 13 then
      body.length - 1 else body.length) = lineLength body := by
    unfold lineLength
    by_cases hempty : body = []
    · rw [hempty]
      rfl
    · rw [getD_last _ hempty, List.getLast?_eq_some_getLast hempty]
      simp [hempty]
  refine ⟨heap, { last with allocs := last.allocs.tail }, ?_, ?_,
    ⟨hlast.initial_le, hlast.small, hlast.size⟩, hrest, hfinal⟩
  · rw [hread, hfill, Option.map_some, finish_memory hbuffer hlength heven hmalloc, hstring]
  · rw [habstract, hloop]
    exact finishMsg_memory heven hmalloc

end

/-! ## A sequence of lines -/

/-- A message of any length that `read_msg` can hold, as a line of hexadecimal digits. -/
structure HexLine where
  digits : Bytes
  hex : ∀ c ∈ digits, (hexValue? c).isSome
  even : digits.length % 2 = 0
  crlf : Bool
  short : digits.length + (if crlf then 2 else 1) < 2 ^ 31 - 2 ^ 21

namespace HexLine

/-- The line without its newline. -/
def body (line : HexLine) : Bytes := line.digits ++ if line.crlf then [13] else []

def text (line : HexLine) : Bytes := line.body ++ [10]

/-- What a caller is to see of the message. -/
def observed (line : HexLine) : Int × Option Bytes × Nat :=
  (1, some (hexPairs line.digits), line.digits.length)

theorem digit_facts (c : UInt8) : (hexValue? c).isSome → c ≠ 10 ∧ c ≠ 13 ∧ c ≠ 0 := by
  revert c
  exact forall_uint8 (by decide +kernel)

theorem notMem_body (line : HexLine) : (10 : UInt8) ∉ line.body ∧ (0 : UInt8) ∉ line.body := by
  have hend : (10 : UInt8) ∉ (if line.crlf then [13] else [] : Bytes) ∧
      (0 : UInt8) ∉ (if line.crlf then [13] else [] : Bytes) := by
    cases line.crlf with
    | true => exact ⟨by decide, by decide⟩
    | false => exact ⟨List.not_mem_nil, List.not_mem_nil⟩
  constructor
  · intro hmem
    rcases List.mem_append.mp hmem with hmem | hmem
    · exact (digit_facts 10 (line.hex 10 hmem)).1 rfl
    · exact hend.1 hmem
  · intro hmem
    rcases List.mem_append.mp hmem with hmem | hmem
    · exact (digit_facts 0 (line.hex 0 hmem)).2.2 rfl
    · exact hend.2 hmem

theorem lineLength_body (line : HexLine) : lineLength line.body = line.digits.length := by
  unfold lineLength body
  cases hcrlf : line.crlf with
  | true => simp
  | false =>
      have hlast : line.digits.getLast? ≠ some 13 := by
        intro hlast
        exact (digit_facts 13 (line.hex 13 (List.mem_of_getLast? hlast))).2.1 rfl
      simp [hlast]

theorem decodeInto_body (line : HexLine) (heap : Heap) :
    (decodeInto heap (line.body ++ [10]) (line.digits.length / 2)).block =
      hexPairs line.digits := by
  have heven := line.even
  have hdigits : HexDigits line.digits (line.digits.length / 2) :=
    ⟨by omega, fun c hmem => line.hex c (List.mem_of_mem_take hmem)⟩
  have hdecode := fromHexstring_digits heap.stale hdigits
    ((if line.crlf then [13] else []) ++ [10])
  rw [List.take_of_length_le (by omega), ← List.append_assoc] at hdecode
  unfold decodeInto body
  rw [hdecode]
  simp [length_hexPairs]

end HexLine

/-- One call takes one line. -/
theorem readMsg_hexLine {io : LineBuffer} {rest : Bytes} (line : HexLine) (hgood : io.Good)
    (hallocs : Succeeding io.allocs) (hstdin : io.stdin = line.text ++ rest) :
    ∃ result next, io.readMsg = some (result, next) ∧ result.observed = line.observed ∧
      next.Good ∧ next.stdin = rest ∧ Succeeding next.allocs := by
  obtain ⟨hbody, hnul⟩ := line.notMem_body
  have hshort : line.body.length + 1 < 2 ^ 31 - 2 * msgioBufferSz := by
    have hline := line.short
    unfold HexLine.body msgioBufferSz
    cases hcrlf : line.crlf with
    | true =>
        rw [hcrlf] at hline
        simp only [if_true, List.length_append, List.length_singleton] at hline ⊢
        omega
    | false =>
        rw [hcrlf] at hline
        simp only [Bool.false_eq_true, if_false, List.append_nil] at hline ⊢
        omega
  rw [HexLine.text, List.append_assoc, List.singleton_append] at hstdin
  obtain ⟨heap, next, hread, _, hnext⟩ := readMsg_refines hgood hallocs [] hstdin hbody hnul hshort
    (by rw [line.lineLength_body]; exact line.even)
  rw [line.lineLength_body] at hread
  refine ⟨_, next, hread, ?_, hnext⟩
  simp only [ReadResult.observed, Option.map_some, line.decodeInto_body, HexLine.observed]

/-- Each call of `read_msg` returns the next line, whatever earlier calls left in the buffer. -/
theorem readMsgs_hexLines (lines : List HexLine) {io : LineBuffer} (rest : Bytes)
    (hgood : io.Good) (hallocs : Succeeding io.allocs)
    (hstdin : io.stdin = lines.flatMap HexLine.text ++ rest) :
    ∃ results next, readMsgs lines.length io = some (results, next) ∧
      results.map ReadResult.observed = lines.map HexLine.observed ∧
      next.Good ∧ next.stdin = rest := by
  induction lines generalizing io with
  | nil => exact ⟨[], io, rfl, rfl, hgood, hstdin⟩
  | cons line lines ih =>
      rw [List.flatMap_cons, List.append_assoc] at hstdin
      obtain ⟨result, next, hread, hresult, hnext, hrest, hmore⟩ :=
        readMsg_hexLine line hgood hallocs hstdin
      obtain ⟨results, last, hreads, hresults, hlast⟩ := ih hnext hmore hrest
      refine ⟨result :: results, last, ?_, ?_, hlast⟩
      · rw [List.length_cons, readMsgs, hread]
        simp [hreads]
      · rw [List.map_cons, List.map_cons, hresult, hresults]

theorem hexPairs_zeros (n : Nat) : hexPairs (List.replicate (2 * n) 48) = List.replicate n 0 := by
  induction n with
  | zero => rfl
  | succ n ih =>
      rw [Nat.mul_succ, List.replicate_succ, List.replicate_succ, List.replicate_succ, hexPairs, ih]
      rfl

/-- A line of `n` zero bytes in text mode. -/
def HexLine.zeros (n : Nat) (hshort : 2 * n + 2 < 2 ^ 31 - 2 ^ 21) : HexLine where
  digits := List.replicate (2 * n) 48
  hex := fun c hmem => by rw [List.eq_of_mem_replicate hmem]; rfl
  even := by rw [List.length_replicate, Nat.mul_mod_right]
  crlf := true
  short := by rw [List.length_replicate]; exact hshort

def HexLine.eleven : HexLine :=
  ⟨ascii "0b", List.all_eq_true.mp (by decide), by decide, false, by decide⟩

/-- A line of 2 MiB that ends with a carriage return, for which the buffer has to grow, and one
of two digits behind it. -/
theorem readMsgs_two_lines :
    ∃ results next, readMsgs 2 (fresh [] (List.replicate (2 ^ 21) 48 ++ ascii "\r\n0b\n")) =
        some (results, next) ∧
      results.map ReadResult.observed =
        [(1, some (List.replicate (2 ^ 20) 0), 2 ^ 21), (1, some [11], 2)] ∧
      next.Good ∧ next.stdin = [] := by
  obtain ⟨n, hn⟩ : ∃ n : Nat, n = 2 ^ 20 := ⟨_, rfl⟩
  have hdouble : 2 ^ 21 = 2 * n := by omega
  have hshort : 2 * n + 2 < 2 ^ 31 - 2 ^ 21 := by omega
  rw [hdouble, ← hn]
  have hstdin : (fresh [] (List.replicate (2 * n) 48 ++ ascii "\r\n0b\n")).stdin =
      [HexLine.zeros n hshort, .eleven].flatMap HexLine.text ++ [] := by
    simp only [fresh, List.flatMap_cons, List.flatMap_nil, List.append_nil, HexLine.text,
      HexLine.body, HexLine.zeros, HexLine.eleven, if_true, List.append_assoc]
    rfl
  obtain ⟨results, next, hreads, hobserved, hnext⟩ :=
    readMsgs_hexLines [HexLine.zeros n hshort, .eleven] [] (fresh_good _ _) List.not_mem_nil hstdin
  refine ⟨results, next, hreads, hobserved.trans ?_, hnext⟩
  simp only [List.map_cons, List.map_nil, HexLine.observed, HexLine.zeros, HexLine.eleven,
    hexPairs_zeros, List.length_replicate]
  rfl

end LineBuffer

end RemoteAttestation
