import RemoteAttestation.Transport.StandardInput

/-! # The two transports

The same text can reach a program through a socket or through its standard input. What the
two readers make of it is compared here, call by call.
-/

namespace RemoteAttestation

/-- What a caller sees of a result: the value, the message and the size. -/
def ReadResult.observed (result : ReadResult) : Int × Option Bytes × Nat :=
  (result.rv, result.dest.map Memory.block, result.sz)

/-- An object that uses the standard streams. -/
def onStdio (io : Stdio) : MsgIo := { MsgIo.listen [] with useStdio := true, stdio := io }

/-- The standard streams before the first call, with an input that delivers a text and ends. -/
def Stdio.fresh (allocs : List (Option Heap)) (stdin : Bytes) : Stdio :=
  { stdin, ferror := false, stdout := [], buffer := none, bufferSize := msgioBufferSz, allocs }

/-- A socket and the standard input give the same results, however the text is cut. -/
def TransportsAgree (allocs console : List (Option Heap)) (stream : Bytes) : Prop :=
  ∀ chunks, Supplies [] chunks stream →
    ∃ left right, Reads (receiving allocs [] chunks) left ∧
      Reads (onStdio (.fresh console stream)) right ∧
      left.map ReadResult.observed = right.map ReadResult.observed

/-- The inputs of which the standard input makes what a socket makes of their single lines. -/
inductive SameLines : List (Option Heap) → Stdio → Prop
  /-- No line ends, and the line buffer can grow. -/
  | unfinished {allocs : List (Option Heap)} {io : Stdio} (hopen : (10 : UInt8) ∉ io.stdin)
      (hmemory : Granted (io.opening + io.growing (openGrowths io.space io.stdin.length))
        io.allocs) : SameLines allocs io
  /-- The first line has an odd length, and the line buffer can hold it. -/
  | odd {allocs : List (Option Heap)} {io : Stdio} {body rest : Bytes}
      (hstdin : io.stdin = body ++ 10 :: rest) (hbody : (10 : UInt8) ∉ body)
      (hodd : lineLength body % 2 = 1)
      (hmemory : Granted (io.opening + io.growing (growths io.space (body.length + 1)))
        io.allocs) : SameLines allocs io
  /-- A line that is not blank, and that decodes to the same bytes in both blocks. -/
  | line {allocs allocs' console : List (Option Heap)} {io : Stdio} {body rest : Bytes}
      {heap heap' : Heap} (hstdin : io.stdin = body ++ 10 :: rest) (hbody : (10 : UInt8) ∉ body)
      (hspace : io.space ≠ 0) (hblank : lineLength body ≠ 0) (heven : lineLength body % 2 = 0)
      (hmemory : Granted (io.opening + growths io.space (body.length + 1)) io.allocs)
      (hmalloc : malloc allocs = (some heap, allocs'))
      (hmalloc' : malloc (io.afterLine body rest).allocs = (some heap', console))
      (hdecode : (decodeInto heap (body ++ [10]) (lineLength body / 2)).block =
        (decodeInto heap' (body ++ [10]) (lineLength body / 2)).block)
      (hrest : SameLines allocs' { io.afterLine body rest with allocs := console }) :
      SameLines allocs io

/-! ## Results of the two readers -/

/-- A result of `readMsg` with the value 1 has a message, and the others have nothing. -/
theorem readMsg_assigns (io : Stdio) :
    ((readMsg io).1.rv = 1 → (readMsg io).1.dest ≠ none) ∧
      ((readMsg io).1.rv ≠ 1 → (readMsg io).1.dest = none ∧ (readMsg io).1.sz = 0) := by
  have hfinish : ∀ looped : (Int ⊕ Bytes) × Stdio, (∀ rv, looped.1 = .inl rv → rv ≠ 1) →
      ((finishMsg looped).1.rv = 1 → (finishMsg looped).1.dest ≠ none) ∧
        ((finishMsg looped).1.rv ≠ 1 →
          (finishMsg looped).1.dest = none ∧ (finishMsg looped).1.sz = 0) := by
    intro looped hlooped
    obtain ⟨rv | line, io⟩ := looped
    · exact ⟨fun h => absurd h (hlooped rv rfl), fun _ => ⟨rfl, rfl⟩⟩
    · unfold finishMsg
      dsimp only
      generalize (if line.getLast? = some 13 then line.length - 1 else line.length) = bread
      split
      · exact ⟨fun h => (by cases h), fun _ => ⟨rfl, rfl⟩⟩
      · split
        · exact ⟨fun h => (by cases h), fun _ => ⟨rfl, rfl⟩⟩
        · exact ⟨fun _ => Option.some_ne_none _, fun h => absurd rfl h⟩
  unfold readMsg
  dsimp only
  split
  · exact ⟨fun h => (by cases h), fun _ => ⟨rfl, rfl⟩⟩
  · refine hfinish _ fun rv hfails => ?_
    rcases readMsgLoop_fails hfails with rfl | rfl
    · decide
    · decide

/-- What a call on a socket does with its memory: a message is put into the next block, or
there is none and the blocks are left for the next call. -/
def Fills (allocs allocs' : List (Option Heap)) (result : ReadResult) : Prop :=
  result.dest = none ∧ (result.rv = 1 → allocs' = allocs) ∨
    ∃ heap text, malloc allocs = (some heap, allocs') ∧
      result.dest = some (decodeInto heap text (result.sz / 2))

theorem fills_none {allocs : List (Option Heap)} {rv : Int} {sz : Nat} :
    Fills allocs allocs ⟨rv, none, sz⟩ :=
  .inl ⟨rfl, fun _ => rfl⟩

theorem read_receiving (allocs : List (Option Heap)) (buffered : Bytes) (chunks : List Chunk) :
    ∃ result allocs' rbuffer after,
      (receiving allocs buffered chunks).read = (result, receiving allocs' rbuffer after) ∧
      Fills allocs allocs' result := by
  have hloop : ∃ result allocs' rbuffer, ∃ after : List Chunk,
      readLoop allocs (chunks.map .data) buffered = ⟨result, rbuffer, after.map .data, allocs'⟩ ∧
      Fills allocs allocs' result := by
    induction chunks generalizing buffered with
    | nil => exact ⟨_, _, _, [], rfl, fills_none⟩
    | cons chunk chunks ih =>
        rw [List.map_cons, readLoop]
        split
        · exact ⟨_, _, _, chunks, rfl, fills_none⟩
        · split
          · exact ih _
          next idx ws hend =>
            unfold takeLine
            split
            · exact ⟨_, _, _, chunks, rfl, fills_none⟩
            · split
              · exact ⟨_, _, _, chunks, rfl, fills_none⟩
              · split
                next allocs' hmalloc =>
                  exact ⟨_, _, _, chunks, rfl, .inl ⟨rfl, fun h => (by cases h)⟩⟩
                next heap allocs' hmalloc =>
                  exact ⟨_, _, _, chunks, rfl, .inr ⟨heap, _, hmalloc, rfl⟩⟩
  obtain ⟨result, allocs', rbuffer, after, hloop, hresult⟩ := hloop
  exact ⟨result, allocs', rbuffer, after, read_of_readLoop hloop, hresult⟩

/-- Two messages in the same block are the same if they look the same. -/
theorem eq_of_observed {left right : ReadResult} {allocs leftAllocs rightAllocs : List (Option Heap)}
    (hleft : Fills allocs leftAllocs left) (hright : Fills allocs rightAllocs right)
    (hobserved : left.observed = right.observed) :
    left = right ∧ (left.rv = 1 → leftAllocs = rightAllocs) := by
  obtain ⟨leftRv, leftDest, leftSz⟩ := left
  obtain ⟨rightRv, rightDest, rightSz⟩ := right
  simp only [ReadResult.observed, Prod.mk.injEq] at hobserved
  obtain ⟨rfl, hdest, rfl⟩ := hobserved
  rcases hleft with ⟨hnone, hkeeps⟩ | ⟨heap, text, hmalloc, hsome⟩
  · dsimp only at hnone
    subst hnone
    rcases hright with ⟨hnone', hkeeps'⟩ | ⟨heap, text, _, hsome'⟩
    · dsimp only at hnone'
      subst hnone'
      exact ⟨rfl, fun hrv => (hkeeps hrv).trans (hkeeps' hrv).symm⟩
    · dsimp only at hsome'
      subst hsome'
      cases hdest
  · dsimp only at hsome
    subst hsome
    rcases hright with ⟨hnone', _⟩ | ⟨heap', text', hmalloc', hsome'⟩
    · dsimp only at hnone'
      subst hnone'
      cases hdest
    · dsimp only at hsome'
      subst hsome'
      rw [hmalloc] at hmalloc'
      cases hmalloc'
      simp only [Option.map_some, Option.some.injEq] at hdest
      have hshape : ∀ src, decodeInto heap src (leftSz / 2) =
          ⟨(decodeInto heap src (leftSz / 2)).block, fun i => heap.contents (leftSz / 2 + i)⟩ :=
        fun _ => rfl
      have hmemory : decodeInto heap text (leftSz / 2) = decodeInto heap text' (leftSz / 2) := by
        rw [hshape text, hdest, ← hshape text']
      rw [hmemory]
      exact ⟨rfl, fun _ => rfl⟩

/-- Runs on sockets with the same memory that look the same are the same. -/
theorem reads_eq_of_observed {results results' : List ReadResult}
    {allocs : List (Option Heap)} {buffered buffered' : Bytes} {chunks chunks' : List Chunk}
    (hreads : Reads (receiving allocs buffered chunks) results)
    (hreads' : Reads (receiving allocs buffered' chunks') results')
    (hobserved : results.map ReadResult.observed = results'.map ReadResult.observed) :
    results = results' := by
  induction results generalizing allocs buffered buffered' chunks chunks' results' with
  | nil => cases hreads
  | cons first tail ih =>
      obtain ⟨left, leftAllocs, leftBuffer, leftAfter, hleft, hleftFills⟩ :=
        read_receiving allocs buffered chunks
      obtain ⟨right, rightAllocs, rightBuffer, rightAfter, hright, hrightFills⟩ :=
        read_receiving allocs buffered' chunks'
      cases results' with
      | nil => cases hreads'
      | cons first' tail' =>
          rw [List.map_cons, List.map_cons, List.cons_eq_cons] at hobserved
          obtain ⟨hfirst, htails⟩ := hobserved
          have hheads : first = left ∧ first' = right := by
            cases hreads <;> cases hreads' <;> rw [hleft, hright] <;> exact ⟨rfl, rfl⟩
          obtain ⟨rfl, rfl⟩ := hheads
          obtain ⟨rfl, hallocs⟩ := eq_of_observed hleftFills hrightFills hfirst
          by_cases hnext : first.rv = 1
          · obtain ⟨_, heq, htail⟩ := (reads_next_iff hleft hnext).mp hreads
            obtain ⟨_, heq', htail'⟩ := (reads_next_iff hright hnext).mp hreads'
            cases heq
            cases heq'
            rw [← hallocs hnext] at htail'
            rw [ih htail htail' htails]
          · rw [(reads_stop_iff hleft hnext).mp hreads, (reads_stop_iff hright hnext).mp hreads']

/-! ## A text that arrives bytewise -/

section

variable {allocs allocs' : List (Option Heap)} {body rest : Bytes} {results : List ReadResult}

/-- Bytewise, the first line is found alone. -/
theorem finds_bytewise (hbody : (10 : UInt8) ∉ body) :
    Finds [] ((body ++ 10 :: rest).map .single) (body ++ [10]) (rest.map .single) := by
  obtain ⟨ws, hend, _⟩ := lineEnd_alone hbody
  rw [List.map_append, List.map_cons]
  refine finds_single hbody (.last (List.cons_ne_nil 10 []) ?_)
  exact fun hnone => by cases hend.symm.trans hnone

theorem receives_line {heap : Heap} (hbody : (10 : UInt8) ∉ body) (hblank : lineLength body ≠ 0)
    (heven : lineLength body % 2 = 0) (hmalloc : malloc allocs = (some heap, allocs')) :
    Reads (receiving allocs [] ((body ++ 10 :: rest).map .single)) results ↔
      ∃ tail, results =
          ⟨1, some (decodeInto heap (body ++ [10]) (lineLength body / 2)), lineLength body⟩ :: tail ∧
        Reads (receiving allocs' [] (rest.map .single)) tail := by
  obtain ⟨ws, hend, hws⟩ := lineEnd_alone hbody
  rw [(finds_bytewise hbody).reads_line hend hblank heven hmalloc, hws,
    List.drop_of_length_le (by simp)]

end

/-! ## Calls on the standard input -/

section

variable {io : Stdio} {body rest : Bytes}

theorem read_onStdio (io : Stdio) :
    (onStdio io).read = ((readMsg io).1, onStdio (readMsg io).2) := rfl

/-- A call that comes to no newline returns 0 if its allocations succeed. -/
theorem readMsg_unfinished_iff (hferror : io.ferror = false) (hopen : (10 : UInt8) ∉ io.stdin)
    (hnul : (0 : UInt8) ∉ io.stdin) :
    (readMsg io).1 = ⟨0, none, 0⟩ ↔
      Granted (io.opening + io.growing (openGrowths io.space io.stdin.length)) io.allocs := by
  have hspec : (Granted (io.opening + io.growing (openGrowths io.space io.stdin.length)) io.allocs →
        (readMsg io).1 = ⟨0, none, 0⟩) ∧
      (¬ Granted (io.opening + io.growing (openGrowths io.space io.stdin.length)) io.allocs →
        (readMsg io).1 = ⟨-1, none, 0⟩) := by
    unfold Stdio.growing
    by_cases hspace : io.space = 0
    · rw [if_pos hspace]
      exact readMsg_full hferror hspace
    · rw [if_neg hspace]
      exact readMsg_open hferror hspace hopen hnul
  refine ⟨fun hzero => ?_, hspec.1⟩
  by_contra hnot
  rw [hspec.2 hnot] at hzero
  cases hzero

/-- So does a call that comes to a line of odd length. -/
theorem readMsg_odd_iff (hferror : io.ferror = false) (hstdin : io.stdin = body ++ 10 :: rest)
    (hbody : (10 : UInt8) ∉ body) (hnul : (0 : UInt8) ∉ body) (hodd : lineLength body % 2 = 1) :
    (readMsg io).1 = ⟨0, none, 0⟩ ↔
      Granted (io.opening + io.growing (growths io.space (body.length + 1))) io.allocs := by
  have hspec : (Granted (io.opening + io.growing (growths io.space (body.length + 1))) io.allocs →
        (readMsg io).1 = ⟨0, none, 0⟩) ∧
      (¬ Granted (io.opening + io.growing (growths io.space (body.length + 1))) io.allocs →
        (readMsg io).1 = ⟨-1, none, 0⟩) := by
    unfold Stdio.growing
    by_cases hspace : io.space = 0
    · rw [if_pos hspace]
      exact readMsg_full hferror hspace
    · rw [if_neg hspace]
      obtain ⟨hgranted, hrefused⟩ := readMsg_line hspace hstdin hbody hnul
      exact ⟨fun h => by rw [hgranted h, finishMsg_odd hodd], hrefused⟩
  refine ⟨fun hzero => ?_, hspec.1⟩
  by_contra hnot
  rw [hspec.2 hnot] at hzero
  cases hzero

/-- A line of even length becomes a message if the call has room and memory for it. -/
theorem readMsg_even {console : List (Option Heap)} {heap : Heap} (hspace : io.space ≠ 0)
    (hstdin : io.stdin = body ++ 10 :: rest) (hbody : (10 : UInt8) ∉ body)
    (hnul : (0 : UInt8) ∉ body) (heven : lineLength body % 2 = 0)
    (hmemory : Granted (io.opening + growths io.space (body.length + 1)) io.allocs)
    (hmalloc : malloc (io.afterLine body rest).allocs = (some heap, console)) :
    readMsg io = (⟨1, some (decodeInto heap (body ++ [10]) (lineLength body / 2)), lineLength body⟩,
      { io.afterLine body rest with allocs := console }) := by
  rw [(readMsg_line hspace hstdin hbody hnul).1 hmemory]
  exact finishMsg_memory heven hmalloc

/-- Only such a call returns 1. -/
theorem memory_of_readMsg (hferror : io.ferror = false) (hstdin : io.stdin = body ++ 10 :: rest)
    (hbody : (10 : UInt8) ∉ body) (hnul : (0 : UInt8) ∉ body) (heven : lineLength body % 2 = 0)
    (hone : (readMsg io).1.rv = 1) :
    io.space ≠ 0 ∧ Granted (io.opening + growths io.space (body.length + 1)) io.allocs ∧
      ∃ heap console, malloc (io.afterLine body rest).allocs = (some heap, console) := by
  have hspace : io.space ≠ 0 := by
    intro hspace
    obtain ⟨hopened, hrefused⟩ := readMsg_full hferror hspace
    by_cases hfirst : Granted io.opening io.allocs
    · rw [hopened hfirst] at hone
      cases hone
    · rw [hrefused hfirst] at hone
      cases hone
  obtain ⟨hgranted, hrefused⟩ := readMsg_line hspace hstdin hbody hnul
  have hmemory : Granted (io.opening + growths io.space (body.length + 1)) io.allocs := by
    by_contra hnot
    rw [hrefused hnot] at hone
    cases hone
  refine ⟨hspace, hmemory, ?_⟩
  cases hmalloc : malloc (io.afterLine body rest).allocs with
  | mk heap console =>
      cases heap with
      | some heap => exact ⟨heap, console, rfl⟩
      | none =>
          rw [hgranted hmemory, finishMsg_noMemory heven hmalloc] at hone
          cases hone

end

/-! ## Run by run -/

/-- The two readers give the same results when the text arrives bytewise. -/
def BytewiseAgree (allocs : List (Option Heap)) (io : Stdio) : Prop :=
  ∃ left right, Reads (receiving allocs [] (io.stdin.map .single)) left ∧
    Reads (onStdio io) right ∧ left.map ReadResult.observed = right.map ReadResult.observed

theorem eq_of_observed_none {result : ReadResult} {rv : Int} {sz : Nat}
    (hobserved : ReadResult.observed ⟨rv, none, sz⟩ = result.observed) :
    result = ⟨rv, none, sz⟩ := by
  obtain ⟨rv', dest, sz'⟩ := result
  simp only [ReadResult.observed, Option.map_none, Prod.mk.injEq] at hobserved
  obtain ⟨rfl, hdest, rfl⟩ := hobserved
  rw [Option.map_eq_none_iff.mp hdest.symm]

/-- If the first results look the same, so do the runs after them. -/
theorem observed_cons {first : ReadResult} {left right : List ReadResult} {io : Stdio}
    (hright : Reads (onStdio io) right)
    (hobserved : (first :: left).map ReadResult.observed = right.map ReadResult.observed) :
    first.observed = (readMsg io).1.observed ∧
      ∃ tail, right = (readMsg io).1 :: tail ∧
        left.map ReadResult.observed = tail.map ReadResult.observed := by
  cases hright with
  | stop _ =>
      obtain ⟨hfirst, htails⟩ := List.cons_eq_cons.mp hobserved
      exact ⟨hfirst, [], rfl, htails⟩
  | next _ _ =>
      obtain ⟨hfirst, htails⟩ := List.cons_eq_cons.mp hobserved
      exact ⟨hfirst, _, rfl, htails⟩

theorem sameLines_of_bytewise {allocs : List (Option Heap)} {io : Stdio}
    (hferror : io.ferror = false) (hnul : (0 : UInt8) ∉ io.stdin)
    (hagree : BytewiseAgree allocs io) : SameLines allocs io := by
  induction hn : io.stdin.length using Nat.strong_induction_on generalizing allocs io with
  | _ n ih =>
      obtain ⟨left, right, hleft, hright, hobserved⟩ := hagree
      by_cases hmem : (10 : UInt8) ∈ io.stdin
      · obtain ⟨body, rest, hstdin, hbody⟩ := List.eq_append_cons_of_mem hmem
        rw [hstdin] at hleft hnul
        have hbodyNul : (0 : UInt8) ∉ body := fun h => hnul (List.mem_append_left _ h)
        have hrestNul : (0 : UInt8) ∉ rest :=
          fun h => hnul (List.mem_append_right _ (List.mem_cons_of_mem _ h))
        obtain ⟨ws, hend, _⟩ := lineEnd_alone hbody
        have hfinds : Finds [] ((body ++ 10 :: rest).map .single) (body ++ [10])
            (rest.map .single) := finds_bytewise hbody
        by_cases hblank : lineLength body = 0
        · -- The socket returns the line without a message.
          rw [hblank] at hend
          obtain ⟨tail, rfl, _⟩ := (hfinds.reads_blank hend).mp hleft
          have hfirst := eq_of_observed_none (observed_cons hright hobserved).1
          exact absurd (by rw [hfirst]) ((readMsg_assigns io).1 (by rw [hfirst]))
        · by_cases hodd : lineLength body % 2 = 1
          · rw [(hfinds.reads_odd hend hodd).mp hleft] at hobserved
            have hfirst := eq_of_observed_none (observed_cons hright hobserved).1
            exact .odd hstdin hbody hodd
              ((readMsg_odd_iff hferror hstdin hbody hbodyNul hodd).mp hfirst)
          · have heven : lineLength body % 2 = 0 := by omega
            cases hmalloc : malloc allocs with
            | mk heap allocs' =>
                cases heap with
                | none =>
                    rw [(hfinds.reads_noMemory hend hblank heven hmalloc).mp hleft] at hobserved
                    have hfirst := eq_of_observed_none (observed_cons hright hobserved).1
                    have hfails : (readMsg io).1.rv ≠ 1 := by
                      rw [hfirst]
                      exact show (-1 : Int) ≠ 1 by decide
                    have hsz := ((readMsg_assigns io).2 hfails).2
                    rw [hfirst] at hsz
                    exact absurd hsz hblank
                | some heap =>
                    obtain ⟨tail, rfl, htail⟩ := (receives_line hbody hblank heven hmalloc).mp hleft
                    obtain ⟨hfirst, tail', rfl, htails⟩ := observed_cons hright hobserved
                    have hone : (readMsg io).1.rv = 1 := (congrArg Prod.fst hfirst).symm
                    obtain ⟨hspace, hmemory, heap', console, hmalloc'⟩ :=
                      memory_of_readMsg hferror hstdin hbody hbodyNul heven hone
                    have hread := readMsg_even hspace hstdin hbody hbodyNul heven hmemory hmalloc'
                    obtain ⟨_, heq, htail'⟩ := (reads_next_iff (read_onStdio io) hone).mp hright
                    cases heq
                    rw [hread] at hfirst htail'
                    simp only [ReadResult.observed, Option.map_some, Prod.mk.injEq,
                      Option.some.injEq, true_and, and_true] at hfirst
                    refine .line hstdin hbody hspace hblank heven hmemory hmalloc hmalloc' hfirst ?_
                    apply ih rest.length
                    · rw [← hn, hstdin, List.length_append, List.length_cons]
                      omega
                    · exact hferror
                    · exact hrestNul
                    · exact ⟨tail, tail', htail, htail', htails⟩
                    · rfl
      · have hopen : (10 : UInt8) ∉ [] ++ (io.stdin.map Chunk.single).flatMap Chunk.bytes := by
          rwa [List.nil_append, flatMap_single]
        rw [(reads_unfinished (supplies_single [] io.stdin).data hopen).mp hleft] at hobserved
        have hfirst := eq_of_observed_none (observed_cons hright hobserved).1
        exact .unfinished hmem ((readMsg_unfinished_iff hferror hmem hnul).mp hfirst)

theorem bytewise_of_sameLines {allocs : List (Option Heap)} {io : Stdio}
    (hsame : SameLines allocs io) (hferror : io.ferror = false) (hnul : (0 : UInt8) ∉ io.stdin) :
    BytewiseAgree allocs io := by
  induction hsame with
  | @unfinished allocs io hopen hmemory =>
      have hzero := (readMsg_unfinished_iff hferror hopen hnul).mpr hmemory
      have hbytes : (10 : UInt8) ∉ [] ++ (io.stdin.map Chunk.single).flatMap Chunk.bytes := by
        rwa [List.nil_append, flatMap_single]
      refine ⟨_, _, (reads_unfinished (supplies_single [] io.stdin).data hbytes).mpr rfl,
        (reads_stop_iff (read_onStdio io) (by rw [hzero]; decide)).mpr rfl, ?_⟩
      rw [hzero]
  | @odd allocs io body rest hstdin hbody hodd hmemory =>
      have hbodyNul : (0 : UInt8) ∉ body := fun h => hnul (by simp [hstdin, h])
      have hzero := (readMsg_odd_iff hferror hstdin hbody hbodyNul hodd).mpr hmemory
      obtain ⟨ws, hend, _⟩ := lineEnd_alone hbody
      refine ⟨[⟨0, none, 0⟩], _, ?_,
        (reads_stop_iff (read_onStdio io) (by rw [hzero]; decide)).mpr rfl, by rw [hzero]⟩
      rw [hstdin]
      exact ((finds_bytewise hbody).reads_odd hend hodd).mpr rfl
  | @line allocs allocs' console io body rest heap heap' hstdin hbody hspace hblank heven hmemory
      hmalloc hmalloc' hdecode _ ih =>
      have hbodyNul : (0 : UInt8) ∉ body := fun h => hnul (by simp [hstdin, h])
      have hrestNul : (0 : UInt8) ∉ rest := fun h => hnul (by simp [hstdin, h])
      have hread := readMsg_even hspace hstdin hbody hbodyNul heven hmemory hmalloc'
      obtain ⟨tail, tail', htail, htail', htails⟩ := ih hferror hrestNul
      refine ⟨⟨1, some (decodeInto heap (body ++ [10]) (lineLength body / 2)), lineLength body⟩ ::
        tail, _ :: tail', ?_,
        (reads_next_iff (read_onStdio io) (by rw [hread])).mpr ⟨tail', rfl, ?_⟩, ?_⟩
      · rw [hstdin]
        exact (receives_line hbody hblank heven hmalloc).mpr ⟨tail, rfl, htail⟩
      · rw [hread]
        exact htail'
      · rw [List.map_cons, List.map_cons, htails, hread]
        simp only [ReadResult.observed, Option.map_some, hdecode]

theorem granted_nil (count : Nat) : Granted count [] := by
  intro i _
  rw [List.drop_nil]
  exact Option.some_ne_none _

end RemoteAttestation
