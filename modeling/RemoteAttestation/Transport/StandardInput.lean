import RemoteAttestation.Transport.Segmentation

/-! # Lines on standard input

`readMsg` fills its static buffer with `fgets` until it ends with a newline, and lets it
grow by `MSGIO_BUFFER_SZ` whenever it does not. Here is what a line, or an input without
one, costs in allocations and leaves behind.
-/

namespace RemoteAttestation

/-- The next `count` allocations succeed. -/
def Granted (count : Nat) (allocs : List (Option Heap)) : Prop :=
  ∀ i < count, (malloc (allocs.drop i)).1 ≠ none

/-- How often the line buffer grows before it holds `length` characters, if the first
`fgets` can store `space` of them. -/
def growths (space length : Nat) : Nat :=
  (length - space + (msgioBufferSz - 1)) / msgioBufferSz

namespace Stdio

/-- The characters that the first `fgets` of a call can store. -/
def space (io : Stdio) : Nat := (room io.bufferSize 0).toNat - 1

/-- The allocation of the line buffer in the first call. -/
def opening (io : Stdio) : Nat := if io.buffer = none then 1 else 0

/-- The line buffer after the first allocation. -/
def opened (io : Stdio) : Stdio :=
  { io with
    buffer := if io.buffer = none then some io.bufferSize else io.buffer
    allocs := io.allocs.drop io.opening }

/-- The line buffer grew, and `rest` is still to be read. -/
def grow (io : Stdio) (count : Nat) (rest : Bytes) : Stdio :=
  { io with
    stdin := rest
    buffer := if count = 0 then io.buffer else some (grown^[count] io.bufferSize)
    bufferSize := grown^[count] io.bufferSize
    allocs := io.allocs.drop count }

/-- The growths in a call, which makes none if it has no room to begin with. -/
def growing (io : Stdio) (count : Nat) : Nat := if io.space = 0 then 0 else count

/-- The line buffer after a line was read from the input. -/
def afterLine (io : Stdio) (body rest : Bytes) : Stdio :=
  io.opened.grow (growths io.space (body.length + 1)) rest

end Stdio

theorem granted_succ_iff {count : Nat} {allocs : List (Option Heap)} :
    Granted (count + 1) allocs ↔ (malloc allocs).1 ≠ none ∧ Granted count allocs.tail := by
  unfold Granted
  rw [Nat.forall_lt_succ_left]
  simp only [List.drop_zero, List.drop_tail]

theorem growths_of_le {space length : Nat} (hlength : length ≤ space) :
    growths space length = 0 := by
  unfold growths msgioBufferSz
  omega

theorem growths_of_lt {space length : Nat} (hlength : space < length) :
    growths space length = growths msgioBufferSz (length - space) + 1 := by
  unfold growths msgioBufferSz
  omega

/-- After a growth there is room for `MSGIO_BUFFER_SZ` more characters. -/
theorem room_grown {size length space : Nat} (hroom : room size length = space + 1) :
    room (grown size) (length + space) = msgioBufferSz + 1 := by
  unfold room grown msgioBufferSz at *
  rw [Int.bmod_def] at *
  omega

/-! ## One call of `fgets` -/

section

variable {body rest : Bytes} {space : Nat}

/-- The newline fits. -/
theorem fgets_line (hbody : (10 : UInt8) ∉ body) (hlength : body.length < space) :
    fgets (space + 1 : Nat) (body ++ 10 :: rest) = some (body ++ [10], rest) := by
  have htake : (body ++ 10 :: rest).take space =
      body ++ [] ++ 10 :: rest.take (space - (body.length + 1)) := by
    rw [List.take_append, List.take_of_length_le (by omega), List.append_nil,
      ← Nat.succ_pred_eq_of_pos (show 0 < space - body.length by omega), List.take_succ_cons]
    congr 3
  have hfind : find ([] ++ [10]) (body ++ [] ++ 10 :: rest.take (space - (body.length + 1))) =
      some body.length := find_append_of_notMem hbody List.not_mem_nil
  rw [fgets, if_neg (by omega), if_neg (by omega), if_neg (by simp)]
  simp only [Int.toNat_natCast, Nat.add_sub_cancel, htake]
  rw [List.nil_append] at hfind
  rw [hfind]
  simp [List.take_append, List.drop_append]

/-- No newline comes before there is no more room. -/
theorem fgets_open {stdin : Bytes} (hstdin : stdin ≠ []) (hopen : (10 : UInt8) ∉ stdin.take space)
    (hspace : 0 < space) :
    fgets (space + 1 : Nat) stdin = some (stdin.take space, stdin.drop space) := by
  have hfind : find [10] (stdin.take space) = none :=
    find_eq_none_of_notMem List.mem_cons_self hopen
  rw [fgets, if_neg (by omega), if_neg (by omega), if_neg hstdin]
  simp only [Int.toNat_natCast, Nat.add_sub_cancel, hfind, List.length_take]
  rw [← List.take_eq_take_min, ← List.drop_eq_drop_min]

end

/-! ## The reading loop -/

theorem malloc_snd (allocs : List (Option Heap)) : (malloc allocs).2 = allocs.tail := rfl

/-- One turn of the loop that does not come to the newline. -/
theorem readMsgLoop_grow (fuel : Nat) {io : Stdio} {line chunk rest : Bytes}
    (hfgets : fgets (room io.bufferSize line.length) io.stdin = some (chunk, rest))
    (hchunk : chunk ≠ []) (hlf : (10 : UInt8) ∉ chunk) (hnul : (0 : UInt8) ∉ chunk) :
    ((malloc io.allocs).1 ≠ none →
      readMsgLoop (fuel + 1) io line = readMsgLoop fuel (io.grow 1 rest) (line ++ chunk)) ∧
    ((malloc io.allocs).1 = none → (readMsgLoop (fuel + 1) io line).1 = .inl (-1)) := by
  have hline : line ++ chunk ≠ [] := by simp [hchunk]
  have hlast : (line ++ chunk).getLast? ≠ some 10 := by
    rw [List.getLast?_append_of_ne_nil _ hchunk]
    exact fun hten => hlf (List.mem_of_getLast? hten)
  rw [readMsgLoop, hfgets]
  simp only [cstr_of_notMem hnul]
  rw [if_neg hline, if_neg hlast]
  have htail := malloc_snd io.allocs
  generalize malloc io.allocs = allocated at htail
  obtain ⟨heap | heap, allocs⟩ := allocated
  · exact ⟨fun h => absurd rfl h, fun _ => rfl⟩
  · refine ⟨fun _ => ?_, fun h => by cases h⟩
    dsimp only at htail
    rw [Stdio.grow, if_neg Nat.one_ne_zero, Function.iterate_one, List.drop_one, ← htail]

theorem Stdio.grow_grow (io : Stdio) (count : Nat) (rest rest' : Bytes) :
    (io.grow 1 rest').grow count rest = io.grow (count + 1) rest := by
  unfold grow
  rw [if_neg (Nat.succ_ne_zero count), if_neg Nat.one_ne_zero]
  dsimp only
  rw [← Function.iterate_add_apply, List.drop_drop, Nat.add_comm 1]
  split
  next hzero => rw [hzero]
  next => rfl

@[simp] theorem Stdio.allocs_grow_one (io : Stdio) (rest : Bytes) :
    (io.grow 1 rest).allocs = io.allocs.tail :=
  List.drop_one

@[simp] theorem Stdio.bufferSize_grow_one (io : Stdio) (rest : Bytes) :
    (io.grow 1 rest).bufferSize = grown io.bufferSize := by
  rw [grow, Function.iterate_one]

/-- The loop comes to the newline if its allocations succeed. -/
theorem readMsgLoop_line (fuel : Nat) (io : Stdio) (line : Bytes) {body rest : Bytes} {space : Nat}
    (hstdin : io.stdin = body ++ 10 :: rest) (hbody : (10 : UInt8) ∉ body)
    (hnul : (0 : UInt8) ∉ body) (hroom : room io.bufferSize line.length = space + 1)
    (hspace : 0 < space) (hfuel : body.length < fuel) :
    (Granted (growths space (body.length + 1)) io.allocs →
      readMsgLoop fuel io line =
        (.inr (line ++ body), io.grow (growths space (body.length + 1)) rest)) ∧
    (¬ Granted (growths space (body.length + 1)) io.allocs →
      (readMsgLoop fuel io line).1 = .inl (-1)) := by
  induction fuel generalizing io line body space with
  | zero => exact absurd hfuel (Nat.not_lt_zero _)
  | succ fuel ih =>
      by_cases hfits : body.length < space
      · have hfgets : fgets (space + 1 : Nat) (body ++ 10 :: rest) = some (body ++ [10], rest) :=
          fgets_line hbody hfits
        have hchunk : (0 : UInt8) ∉ body ++ [10] := by simp [hnul]
        rw [growths_of_le hfits]
        refine ⟨fun _ => ?_, fun h => absurd (fun i hi => absurd hi (Nat.not_lt_zero i)) h⟩
        rw [readMsgLoop, hroom, hstdin, ← Nat.cast_succ, hfgets]
        simp only [cstr_of_notMem hchunk, ← List.append_assoc]
        rw [if_neg (by simp), if_pos (by simp), List.dropLast_concat]
        rfl
      · have hstep : (10 : UInt8) ∉ io.stdin.take space ∧ (0 : UInt8) ∉ io.stdin.take space ∧
            io.stdin.take space = body.take space ∧ io.stdin.drop space =
              body.drop space ++ 10 :: rest := by
          rw [hstdin, List.take_append_of_le_length (by omega),
            List.drop_append_of_le_length (by omega)]
          exact ⟨fun h => hbody (List.mem_of_mem_take h), fun h => hnul (List.mem_of_mem_take h),
            rfl, rfl⟩
        obtain ⟨hlf, hzero, htake, hdrop⟩ := hstep
        have hstdin' : io.stdin ≠ [] := by simp [hstdin]
        have hchunk : (io.stdin.take space).length = space := by
          rw [htake, List.length_take]
          omega
        have hfgets := fgets_open hstdin' hlf hspace
        rw [Nat.cast_succ, ← hroom] at hfgets
        obtain ⟨hgranted, hrefused⟩ := readMsgLoop_grow fuel hfgets
          (List.ne_nil_of_length_pos (by omega)) hlf hzero
        have hroom' : room (io.grow 1 (io.stdin.drop space)).bufferSize
            (line ++ io.stdin.take space).length = msgioBufferSz + 1 := by
          rw [Stdio.bufferSize_grow_one, List.length_append, hchunk]
          exact room_grown hroom
        have hrest := ih (io.grow 1 (io.stdin.drop space)) _ hdrop
          (fun h => hbody (List.mem_of_mem_drop h)) (fun h => hnul (List.mem_of_mem_drop h))
          hroom' (by decide) (by rw [List.length_drop]; omega)
        have hlength : growths space (body.length + 1) =
            growths msgioBufferSz ((body.drop space).length + 1) + 1 := by
          rw [growths_of_lt (by omega), List.length_drop]
          congr 2
          omega
        rw [hlength, granted_succ_iff]
        constructor
        · rintro ⟨hfirst, hmore⟩
          rw [hgranted hfirst, hrest.1 (by simpa using hmore), Stdio.grow_grow, htake,
            List.append_assoc, List.take_append_drop]
        · intro hnot
          by_cases hfirst : (malloc io.allocs).1 = none
          · exact hrefused hfirst
          · rw [hgranted hfirst]
            exact hrest.2 fun hmore => hnot ⟨hfirst, by simpa using hmore⟩

/-- The allocations for an input of `length` bytes without a newline: the buffer grows also
behind its end. -/
def openGrowths (space length : Nat) : Nat := if length = 0 then 0 else growths space length + 1

theorem openGrowths_pos {space length : Nat} (hlength : 0 < length) :
    openGrowths space length = openGrowths msgioBufferSz (length - space) + 1 := by
  unfold openGrowths
  rw [if_neg (by omega)]
  by_cases hall : length ≤ space
  · rw [if_pos (by omega), growths_of_le hall]
  · rw [if_neg (by omega), growths_of_lt (by omega)]

theorem granted_zero (allocs : List (Option Heap)) : Granted 0 allocs :=
  fun _ h => absurd h (Nat.not_lt_zero _)

/-- The call of `fgets` that meets the end of the input. -/
theorem readMsgLoop_end {io : Stdio} {line : Bytes} (fuel : Nat) (hferror : io.ferror = false)
    (hstdin : io.stdin = []) (hroom : room io.bufferSize line.length ≠ 1) :
    (readMsgLoop (fuel + 1) io line).1 = .inl 0 := by
  have hfgets : fgets (room io.bufferSize line.length) [] = none := by
    simp [fgets, hroom]
  rw [readMsgLoop, hstdin, hfgets, hferror]
  rfl

/-- After the end there is room, if the last call had some. -/
theorem room_grown_end {size length space count : Nat} (hroom : room size length = space + 1)
    (hcount : count ≤ space) : room (grown size) (length + count) ≠ 1 := by
  unfold room grown msgioBufferSz at *
  rw [Int.bmod_def] at *
  omega

/-- Without a newline the loop comes to the end of the input. -/
theorem readMsgLoop_open (fuel : Nat) (io : Stdio) (line : Bytes) {space : Nat}
    (hopen : (10 : UInt8) ∉ io.stdin) (hnul : (0 : UInt8) ∉ io.stdin)
    (hferror : io.ferror = false) (hroom : room io.bufferSize line.length = space + 1)
    (hspace : 0 < space) (hfuel : io.stdin.length < fuel) :
    (Granted (openGrowths space io.stdin.length) io.allocs →
      (readMsgLoop fuel io line).1 = .inl 0) ∧
    (¬ Granted (openGrowths space io.stdin.length) io.allocs →
      (readMsgLoop fuel io line).1 = .inl (-1)) := by
  induction fuel generalizing io line space with
  | zero => exact absurd hfuel (Nat.not_lt_zero _)
  | succ fuel ih =>
      by_cases hstdin : io.stdin = []
      · rw [hstdin]
        refine ⟨fun _ => ?_, fun h => absurd (granted_zero _) h⟩
        exact readMsgLoop_end fuel hferror hstdin (by omega)
      · have hpos := List.length_pos_iff.mpr hstdin
        have hlf : (10 : UInt8) ∉ io.stdin.take space := fun h => hopen (List.mem_of_mem_take h)
        have hzero : (0 : UInt8) ∉ io.stdin.take space := fun h => hnul (List.mem_of_mem_take h)
        have hfgets := fgets_open hstdin hlf hspace
        rw [Nat.cast_succ, ← hroom] at hfgets
        have hne : io.stdin.take space ≠ [] := by
          apply List.ne_nil_of_length_pos
          rw [List.length_take]
          omega
        obtain ⟨hgranted, hrefused⟩ := readMsgLoop_grow fuel hfgets hne hlf hzero
        have hrest : (Granted (openGrowths msgioBufferSz (io.stdin.drop space).length)
                (io.grow 1 (io.stdin.drop space)).allocs →
              (readMsgLoop fuel (io.grow 1 (io.stdin.drop space))
                (line ++ io.stdin.take space)).1 = .inl 0) ∧
            (¬ Granted (openGrowths msgioBufferSz (io.stdin.drop space).length)
                (io.grow 1 (io.stdin.drop space)).allocs →
              (readMsgLoop fuel (io.grow 1 (io.stdin.drop space))
                (line ++ io.stdin.take space)).1 = .inl (-1)) := by
          by_cases hall : io.stdin.length ≤ space
          · -- The input is used up, and the next `fgets` meets its end.
            rw [List.drop_eq_nil_iff.mpr hall, List.take_of_length_le hall]
            refine ⟨fun _ => ?_, fun h => absurd (granted_zero _) h⟩
            obtain ⟨fuel, rfl⟩ : ∃ n, fuel = n + 1 := ⟨fuel - 1, by omega⟩
            apply readMsgLoop_end fuel
            · exact hferror
            · rfl
            · rw [Stdio.bufferSize_grow_one, List.length_append]
              exact room_grown_end hroom hall
          · have hroom' : room (io.grow 1 (io.stdin.drop space)).bufferSize
                (line ++ io.stdin.take space).length = msgioBufferSz + 1 := by
              rw [Stdio.bufferSize_grow_one, List.length_append, List.length_take,
                Nat.min_eq_left (by omega)]
              exact room_grown hroom
            apply ih (io.grow 1 (io.stdin.drop space))
            · exact fun h => hopen (List.mem_of_mem_drop h)
            · exact fun h => hnul (List.mem_of_mem_drop h)
            · exact hferror
            · exact hroom'
            · decide
            · rw [Stdio.grow, List.length_drop]
              omega
        rw [List.length_drop, Stdio.allocs_grow_one] at hrest
        rw [openGrowths_pos hpos, granted_succ_iff]
        constructor
        · rintro ⟨hfirst, hothers⟩
          rw [hgranted hfirst]
          exact hrest.1 hothers
        · intro hnot
          by_cases hfirst : (malloc io.allocs).1 = none
          · exact hrefused hfirst
          · rw [hgranted hfirst]
            exact hrest.2 fun hothers => hnot ⟨hfirst, hothers⟩

/-! ## One call of `read_msg` -/

theorem granted_add_iff {left right : Nat} {allocs : List (Option Heap)} :
    Granted (left + right) allocs ↔ Granted left allocs ∧ Granted right (allocs.drop left) := by
  induction left generalizing allocs with
  | zero => simp [Granted]
  | succ left ih =>
      rw [Nat.succ_add, granted_succ_iff, granted_succ_iff, ih, and_assoc, List.drop_tail]

/-- The line buffer is allocated first. -/
theorem readMsg_opened (io : Stdio) :
    (Granted io.opening io.allocs →
      readMsg io = finishMsg (readMsgLoop (2 * io.stdin.length + 2) io.opened [])) ∧
    (¬ Granted io.opening io.allocs → (readMsg io).1 = ⟨-1, none, 0⟩) := by
  obtain ⟨stdin, ferror, stdout, buffer, bufferSize, allocs⟩ := io
  cases buffer with
  | some size => exact ⟨fun _ => rfl, fun h => absurd (granted_zero _) h⟩
  | none =>
      have hopening : Granted 1 allocs ↔ (malloc allocs).1 ≠ none := by
        rw [← Nat.zero_add 1, granted_succ_iff]
        exact and_iff_left (granted_zero _)
      have htail := malloc_snd allocs
      unfold readMsg Stdio.opened Stdio.opening
      rw [if_pos rfl, hopening]
      generalize malloc allocs = allocated at htail
      obtain ⟨heap | heap, allocs'⟩ := allocated
      · exact ⟨fun h => absurd rfl h, fun _ => rfl⟩
      · refine ⟨fun _ => ?_, fun h => absurd (Option.some_ne_none heap) h⟩
        dsimp only at htail
        rw [if_pos rfl, List.drop_one, ← htail]

section

variable {io : Stdio} {body rest : Bytes}

theorem Stdio.room_space (hspace : io.space ≠ 0) : room io.bufferSize 0 = io.space + 1 := by
  unfold Stdio.space at hspace ⊢
  omega

@[simp] theorem Stdio.space_opened (io : Stdio) : io.opened.space = io.space := rfl

/-- A loop that fails decides the call. -/
theorem finishMsg_of_fails {looped : (Int ⊕ Bytes) × Stdio} {rv : Int} (hfails : looped.1 = .inl rv) :
    (finishMsg looped).1 = ⟨rv, none, 0⟩ := by
  obtain ⟨outcome, io⟩ := looped
  dsimp only at hfails
  rw [hfails]
  rfl

/-- The three ways in which a call ends at a line. -/
theorem finishMsg_odd {line : Bytes} (hodd : lineLength line % 2 = 1) :
    finishMsg (.inr line, io) = (⟨0, none, 0⟩, io) := by
  unfold lineLength at hodd
  unfold finishMsg
  dsimp only
  rw [if_pos hodd]

theorem finishMsg_noMemory {line : Bytes} {allocs : List (Option Heap)}
    (heven : lineLength line % 2 = 0) (hmalloc : malloc io.allocs = (none, allocs)) :
    finishMsg (.inr line, io) = (⟨-1, none, 0⟩, { io with allocs }) := by
  unfold lineLength at heven
  unfold finishMsg
  dsimp only
  rw [if_neg (by omega), hmalloc]

theorem finishMsg_memory {line : Bytes} {heap : Heap} {allocs : List (Option Heap)}
    (heven : lineLength line % 2 = 0) (hmalloc : malloc io.allocs = (some heap, allocs)) :
    finishMsg (.inr line, io) =
      (⟨1, some (decodeInto heap (line ++ [10]) (lineLength line / 2)), lineLength line⟩,
        { io with allocs }) := by
  unfold lineLength at heven ⊢
  unfold finishMsg
  dsimp only
  rw [if_neg (by omega), hmalloc]

/-- Without room for a character a call returns 0. -/
theorem readMsg_full (hferror : io.ferror = false) (hspace : io.space = 0) :
    (Granted io.opening io.allocs → (readMsg io).1 = ⟨0, none, 0⟩) ∧
    (¬ Granted io.opening io.allocs → (readMsg io).1 = ⟨-1, none, 0⟩) := by
  obtain ⟨hopened, hrefused⟩ := readMsg_opened io
  refine ⟨fun hgranted => ?_, hrefused⟩
  have hloop : (readMsgLoop (2 * io.stdin.length + 1 + 1) io.opened []).1 = .inl 0 := by
    have hroom : room io.opened.bufferSize 0 ≤ 1 := by
      unfold Stdio.space at hspace
      change room io.bufferSize 0 ≤ 1
      omega
    rw [readMsgLoop, List.length_nil, fgets]
    by_cases hone : room io.opened.bufferSize 0 = 1
    · rw [if_neg (by omega), if_pos hone]
      rfl
    · rw [if_pos (by omega)]
      change Sum.inl (if io.ferror = true then (-1 : Int) else 0) = _
      rw [hferror]
      rfl
  rw [hopened hgranted]
  exact finishMsg_of_fails hloop

/-- A call that comes to a newline. -/
theorem readMsg_line (hspace : io.space ≠ 0) (hstdin : io.stdin = body ++ 10 :: rest)
    (hbody : (10 : UInt8) ∉ body) (hnul : (0 : UInt8) ∉ body) :
    (Granted (io.opening + growths io.space (body.length + 1)) io.allocs →
      readMsg io = finishMsg (.inr body, io.afterLine body rest)) ∧
    (¬ Granted (io.opening + growths io.space (body.length + 1)) io.allocs →
      (readMsg io).1 = ⟨-1, none, 0⟩) := by
  obtain ⟨hopened, hrefused⟩ := readMsg_opened io
  obtain ⟨hgranted, hshort⟩ := readMsgLoop_line (2 * io.stdin.length + 2) io.opened []
    hstdin hbody hnul (Stdio.room_space hspace)
    (Nat.pos_of_ne_zero hspace) (by rw [hstdin, List.length_append]; omega)
  rw [Stdio.space_opened] at hgranted
  rw [granted_add_iff]
  constructor
  · rintro ⟨hfirst, hmore⟩
    rw [hopened hfirst, hgranted hmore, List.nil_append, Stdio.afterLine]
  · intro hnot
    by_cases hfirst : Granted io.opening io.allocs
    · rw [hopened hfirst]
      exact finishMsg_of_fails (hshort fun hmore => hnot ⟨hfirst, hmore⟩)
    · exact hrefused hfirst

/-- A call that comes to the end of the input. -/
theorem readMsg_open (hferror : io.ferror = false) (hspace : io.space ≠ 0)
    (hopen : (10 : UInt8) ∉ io.stdin) (hnul : (0 : UInt8) ∉ io.stdin) :
    (Granted (io.opening + openGrowths io.space io.stdin.length) io.allocs →
      (readMsg io).1 = ⟨0, none, 0⟩) ∧
    (¬ Granted (io.opening + openGrowths io.space io.stdin.length) io.allocs →
      (readMsg io).1 = ⟨-1, none, 0⟩) := by
  obtain ⟨hopened, hrefused⟩ := readMsg_opened io
  obtain ⟨hgranted, hshort⟩ := readMsgLoop_open (2 * io.stdin.length + 2) io.opened []
    hopen hnul hferror (Stdio.room_space hspace)
    (Nat.pos_of_ne_zero hspace) (by change io.stdin.length < _; omega)
  rw [granted_add_iff]
  constructor
  · rintro ⟨hfirst, hmore⟩
    rw [hopened hfirst]
    exact finishMsg_of_fails (hgranted hmore)
  · intro hnot
    by_cases hfirst : Granted io.opening io.allocs
    · rw [hopened hfirst]
      exact finishMsg_of_fails (hshort fun hmore => hnot ⟨hfirst, hmore⟩)
    · exact hrefused hfirst

end

end RemoteAttestation
