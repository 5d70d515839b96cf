import RemoteAttestation.Transport.ReadContract

/-! # Segmentation of the stream

TCP may cut a stream anywhere. `read` looks at its buffer only after it has received new
bytes, and at all of the buffer at once, so what it returns can depend on the cuts. The
streams for which it does not are described here, by their lines.
-/

namespace RemoteAttestation

/-- The results of successive calls of `read`, up to the first that is not 1. -/
inductive Reads : MsgIo → List ReadResult → Prop
  | stop {msgio : MsgIo} (hstop : msgio.read.1.rv ≠ 1) : Reads msgio [msgio.read.1]
  | next {msgio : MsgIo} {results : List ReadResult} (hnext : msgio.read.1.rv = 1)
      (hrest : Reads msgio.read.2 results) : Reads msgio (msgio.read.1 :: results)

/-- The chunks, none of them empty, that complete a stream of which some bytes are buffered. -/
structure Supplies (buffered : Bytes) (chunks : List Chunk) (stream : Bytes) : Prop where
  data : ∀ chunk ∈ chunks, chunk.bytes ≠ []
  joined : buffered ++ chunks.flatMap Chunk.bytes = stream

/-- An object with some bytes in its buffer, and a client that closes after its chunks. -/
def receiving (allocs : List (Option Heap)) (buffered : Bytes) (chunks : List Chunk) : MsgIo :=
  { MsgIo.connected ⟨chunks.map .data, [], allocs⟩ with rbuffer := buffered }

/-- However the stream is cut, the calls of `read` return the same. -/
def SegmentationIndependent (allocs : List (Option Heap)) (stream : Bytes) : Prop :=
  ∀ left right, Supplies [] left stream → Supplies [] right stream →
    ∃ results, Reads (receiving allocs [] left) results ∧ Reads (receiving allocs [] right) results

/-- The number of characters of a line before its terminator `\n` or `\r\n`. -/
def lineLength (body : Bytes) : Nat :=
  if body.getLast? = some 13 then body.length - 1 else body.length

/-- How many bytes behind a line of `length` bytes can be in the buffer when its newline is
found, if up to `buffered` bytes were there before. -/
def ahead (buffered length : Nat) : Nat := max buffered length + msgioBufferSz - (length + 1)

/-- The streams that read the same however they are cut, when up to `buffered` of their first
bytes are in the buffer already. -/
inductive Steady : List (Option Heap) → Nat → Bytes → Prop
  /-- No line ends. -/
  | unfinished {allocs : List (Option Heap)} {buffered : Nat} {stream : Bytes}
      (hopen : (10 : UInt8) ∉ stream) : Steady allocs buffered stream
  /-- The first line has an odd length, also when it is taken to end at the first `\r\n`. -/
  | odd {allocs : List (Option Heap)} {buffered : Nat} {body rest : Bytes}
      (hbody : (10 : UInt8) ∉ body) (hodd : lineLength body % 2 = 1)
      (hlater : ∀ i, body.getLast? ≠ some 13 →
        find [13, 10] (rest.take (ahead buffered body.length)) = some i → i % 2 = 1) :
      Steady allocs buffered (body ++ 10 :: rest)
  /-- A blank line, and nothing behind it. -/
  | blank {allocs : List (Option Heap)} {buffered : Nat} {body : Bytes}
      (hbody : (10 : UInt8) ∉ body) (hblank : lineLength body = 0)
      (hbuffered : buffered ≤ body.length) : Steady allocs buffered (body ++ [10])
  /-- A line for which there is no memory. -/
  | noMemory {allocs allocs' : List (Option Heap)} {buffered : Nat} {body rest : Bytes}
      (hbody : (10 : UInt8) ∉ body) (hbuffered : buffered ≤ body.length + rest.length)
      (hends : body.getLast? = some 13 ∨
        find [13, 10] (rest.take (ahead buffered body.length)) = none)
      (hblank : lineLength body ≠ 0) (heven : lineLength body % 2 = 0)
      (hmalloc : malloc allocs = (none, allocs')) : Steady allocs buffered (body ++ 10 :: rest)
  /-- A line that decodes alone as it does with what may be buffered behind it. -/
  | line {allocs allocs' : List (Option Heap)} {buffered : Nat} {body rest : Bytes} {heap : Heap}
      (hbody : (10 : UInt8) ∉ body) (hbuffered : buffered ≤ body.length + rest.length)
      (hends : body.getLast? = some 13 ∨
        find [13, 10] (rest.take (ahead buffered body.length)) = none)
      (hblank : lineLength body ≠ 0) (heven : lineLength body % 2 = 0)
      (hmalloc : malloc allocs = (some heap, allocs'))
      (hdecode : ∀ front, front <+: rest → front.length ≤ ahead buffered body.length →
        decodeInto heap (body ++ 10 :: front) (lineLength body / 2) =
          decodeInto heap (body ++ [10]) (lineLength body / 2))
      (hrest : Steady allocs' (ahead buffered body.length) rest) :
      Steady allocs buffered (body ++ 10 :: rest)

/-! ## The first line of a text -/

/-- A line that ends with `\r\n` ends there, whatever follows it. -/
theorem lineEnd_crlf {body : Bytes} (hbody : (10 : UInt8) ∉ body)
    (hcr : body.getLast? = some 13) (front : Bytes) :
    lineEnd (body ++ 10 :: front) = some (body.length - 1, 2) := by
  obtain ⟨init, rfl⟩ := List.getLast?_eq_some_iff.mp hcr
  have hinit : (10 : UInt8) ∉ init := fun hmem => hbody (List.mem_append_left _ hmem)
  have hfind : find ([13] ++ [10]) (init ++ [13] ++ 10 :: front) = some init.length :=
    find_append_of_notMem hinit (by decide)
  rw [lineEnd, show ([13, 10] : Bytes) = [13] ++ [10] from rfl, hfind]
  simp

/-- Behind a line that ends with `\n` only, a `\r\n` is looked for in the rest. -/
theorem find_crlf_of_bare {body : Bytes} (hbody : (10 : UInt8) ∉ body)
    (hbare : body.getLast? ≠ some 13) (front : Bytes) :
    find [13, 10] (body ++ 10 :: front) =
      (find [13, 10] front).map (· + (body.length + 1)) := by
  induction body with
  | nil =>
      have hhead : ¬ [13, 10] <+: (10 : UInt8) :: front := by simp
      rw [List.nil_append, find, if_neg hhead, List.length_nil]
  | cons byte body ih =>
      simp only [List.mem_cons, not_or] at hbody
      have hhead : ¬ [13, 10] <+: byte :: (body ++ 10 :: front) := by
        -- A match here needs the newline to come next, right behind a carriage return.
        intro hmatch
        obtain ⟨hbyte, hnext⟩ := List.cons_prefix_cons.mp hmatch
        cases body with
        | nil => exact hbare (by simp [← hbyte])
        | cons next body =>
            obtain ⟨hnewline, _⟩ := List.cons_prefix_cons.mp hnext
            exact hbody.2 (by simp [hnewline])
      have htail : body.getLast? ≠ some 13 := by
        intro hcr
        apply hbare
        rw [List.getLast?_cons, hcr]
        rfl
      rw [List.cons_append, find, if_neg hhead, ih hbody.2 htail, Option.map_map]
      rfl

/-- Where such a line is taken to end. -/
theorem lineEnd_bare {body : Bytes} (hbody : (10 : UInt8) ∉ body)
    (hbare : body.getLast? ≠ some 13) (front : Bytes) :
    lineEnd (body ++ 10 :: front) =
      match find [13, 10] front with
      | some i => some (i + (body.length + 1), 2)
      | none => some (body.length, 1) := by
  have hlf : find ([] ++ [10]) (body ++ [] ++ 10 :: front) = some body.length :=
    find_append_of_notMem hbody List.not_mem_nil
  rw [List.nil_append, List.append_nil] at hlf
  rw [lineEnd, find_crlf_of_bare hbody hbare]
  cases find [13, 10] front with
  | some i => rfl
  | none =>
      rw [Option.map_none, hlf]
      rfl

/-- A line alone ends at its newline. -/
theorem lineEnd_alone {body : Bytes} (hbody : (10 : UInt8) ∉ body) :
    ∃ ws, lineEnd (body ++ [10]) = some (lineLength body, ws) ∧
      lineLength body + ws = body.length + 1 := by
  unfold lineLength
  by_cases hcr : body.getLast? = some 13
  · have hne : body.length ≠ 0 := by
      intro hzero
      rw [List.length_eq_zero_iff.mp hzero] at hcr
      cases hcr
    rw [if_pos hcr]
    exact ⟨2, lineEnd_crlf hbody hcr [], by omega⟩
  · rw [if_neg hcr]
    exact ⟨1, lineEnd_bare hbody hcr [], rfl⟩

/-- What is found in a text is found in every text that it begins. -/
theorem find_of_leading {pattern front text : Bytes} {i : Nat} (hleading : front <+: text)
    (hfind : find pattern front = some i) : find pattern text = some i := by
  obtain ⟨back, rfl⟩ := hleading
  obtain ⟨hi, hmatch, hfirst⟩ := find_eq_some_iff.mp hfind
  have hroom := hmatch.length_le
  rw [List.length_drop] at hroom
  refine find_eq_some_iff.mpr ⟨by simp; omega, ?_, fun j hj hearly => hfirst j hj ?_⟩
  · rw [List.drop_append_of_le_length hi]
    exact hmatch.trans (List.prefix_append _ back)
  · rw [List.drop_append_of_le_length (by omega)] at hearly
    exact List.prefix_of_prefix_length_le hearly (List.prefix_append _ back)
      (by rw [List.length_drop]; omega)

section

variable {body rest front : Bytes} {n : Nat}

/-- Without a `\r\n` in sight a line ends as it does alone. -/
theorem lineEnd_of_ends (hbody : (10 : UInt8) ∉ body)
    (hends : body.getLast? = some 13 ∨ find [13, 10] (rest.take n) = none)
    (hfront : front <+: rest) (hlength : front.length ≤ n) :
    lineEnd (body ++ 10 :: front) = lineEnd (body ++ [10]) := by
  by_cases hcr : body.getLast? = some 13
  · rw [lineEnd_crlf hbody hcr, lineEnd_crlf hbody hcr]
  · rcases hends with hyes | hnone
    · exact absurd hyes hcr
    · have hnot : find [13, 10] front = none := by
        cases hfind : find [13, 10] front with
        | none => rfl
        | some i =>
            have hleading : front <+: rest.take n := by
              rw [List.prefix_take_iff]
              exact ⟨hfront, hlength⟩
            rw [find_of_leading hleading hfind] at hnone
            cases hnone
      rw [lineEnd_bare hbody hcr, lineEnd_bare hbody hcr, hnot]
      rfl

/-- A line that ends in the same place for all that may follow it has no `\r\n` in sight. -/
theorem ends_of_lineEnd (hbody : (10 : UInt8) ∉ body)
    (hsame : ∃ ws, lineEnd (body ++ 10 :: rest.take n) = some (lineLength body, ws)) :
    body.getLast? = some 13 ∨ find [13, 10] (rest.take n) = none := by
  by_cases hcr : body.getLast? = some 13
  · exact .inl hcr
  · obtain ⟨ws, hend⟩ := hsame
    rw [lineEnd_bare hbody hcr] at hend
    cases hfind : find [13, 10] (rest.take n) with
    | none => exact .inr rfl
    | some i =>
        rw [hfind, lineLength, if_neg hcr] at hend
        have hidx := congrArg Prod.fst (Option.some.inj hend)
        dsimp only at hidx
        omega

end

/-! ## Runs of calls -/

/-- The calls of `read` determine their results. -/
theorem Reads.unique {msgio : MsgIo} {left right : List ReadResult} (hleft : Reads msgio left)
    (hright : Reads msgio right) : left = right := by
  induction hleft generalizing right with
  | stop hstop =>
      cases hright with
      | stop _ => rfl
      | next hnext _ => exact absurd hnext hstop
  | next hnext _ ih =>
      cases hright with
      | stop hstop => exact absurd hnext hstop
      | next _ hrest => rw [ih hrest]

/-- A run that begins with a result other than 1 ends with it. -/
theorem reads_stop_iff {msgio next : MsgIo} {result : ReadResult} {results : List ReadResult}
    (hread : msgio.read = (result, next)) (hstop : result.rv ≠ 1) :
    Reads msgio results ↔ results = [result] := by
  have hrun : Reads msgio [msgio.read.1] := .stop (by rwa [hread])
  rw [hread] at hrun
  constructor
  · intro hreads
    exact hreads.unique hrun
  · rintro rfl
    exact hrun

/-- A run that begins with 1 goes on. -/
theorem reads_next_iff {msgio next : MsgIo} {result : ReadResult} {results : List ReadResult}
    (hread : msgio.read = (result, next)) (hnext : result.rv = 1) :
    Reads msgio results ↔ ∃ tail, results = result :: tail ∧ Reads next tail := by
  constructor
  · intro hreads
    cases hreads with
    | stop hstop => exact absurd (by rwa [hread]) hstop
    | next _ hrest =>
        rw [hread] at hrest ⊢
        exact ⟨_, rfl, hrest⟩
  · rintro ⟨tail, rfl, htail⟩
    have hrun : Reads msgio (msgio.read.1 :: tail) := .next (by rwa [hread]) (by rwa [hread])
    rwa [hread] at hrun

section

variable {allocs allocs' : List (Option Heap)} {buffered text : Bytes} {chunks after : List Chunk}
  {results : List ReadResult} {heap : Heap} {idx ws : Nat}

/-- A call gathers the line in `text` and leaves the chunks `after`. -/
def Finds (buffered : Bytes) (chunks : List Chunk) (text : Bytes) (after : List Chunk) : Prop :=
  Gathers (chunks.map .data) buffered text (after.map .data)

/-- A call on a socket is the loop over its chunks. -/
theorem read_of_readLoop {result : ReadResult} {rbuffer : Bytes}
    (hloop : readLoop allocs (chunks.map .data) buffered =
      ⟨result, rbuffer, after.map .data, allocs'⟩) :
    (receiving allocs buffered chunks).read = (result, receiving allocs' rbuffer after) := by
  have hread := MsgIo.read_socket (show (receiving allocs buffered chunks).useStdio = false from rfl)
  have hstate : readLoop (receiving allocs buffered chunks).client.allocs
      (receiving allocs buffered chunks).client.incoming
      (receiving allocs buffered chunks).rbuffer = _ := hloop
  rw [hread, hstate]
  rfl

/-- What the call does then. -/
theorem Finds.read {result : ReadResult} {rbuffer : Bytes}
    (hfinds : Finds buffered chunks text after) (hend : lineEnd text = some (idx, ws))
    (htake : takeLine text (after.map .data) allocs idx ws =
      ⟨result, rbuffer, after.map .data, allocs'⟩) :
    (receiving allocs buffered chunks).read = (result, receiving allocs' rbuffer after) := by
  have hloop := readLoop_of_gathers hfinds allocs hend
  rw [htake] at hloop
  exact read_of_readLoop hloop

/-- A blank line is returned and stays. -/
theorem Finds.reads_blank (hfinds : Finds buffered chunks text after)
    (hend : lineEnd text = some (0, ws)) :
    Reads (receiving allocs buffered chunks) results ↔
      ∃ tail, results = ⟨1, none, 0⟩ :: tail ∧ Reads (receiving allocs text after) tail :=
  reads_next_iff (hfinds.read hend takeLine_of_blank) rfl

/-- The run ends at a line of odd length. -/
theorem Finds.reads_odd (hfinds : Finds buffered chunks text after)
    (hend : lineEnd text = some (idx, ws)) (hodd : idx % 2 = 1) :
    Reads (receiving allocs buffered chunks) results ↔ results = [⟨0, none, 0⟩] :=
  reads_stop_iff (hfinds.read hend (takeLine_of_odd hodd)) (by decide)

/-- The run ends at a line for which there is no memory. -/
theorem Finds.reads_noMemory (hfinds : Finds buffered chunks text after)
    (hend : lineEnd text = some (idx, ws)) (hblank : idx ≠ 0) (heven : idx % 2 = 0)
    (hmalloc : malloc allocs = (none, allocs')) :
    Reads (receiving allocs buffered chunks) results ↔ results = [⟨-1, none, idx⟩] :=
  reads_stop_iff (hfinds.read hend (takeLine_of_noMemory hblank heven hmalloc))
    (show (-1 : Int) ≠ 1 by decide)

/-- A line that is decoded is taken out of the buffer. -/
theorem Finds.reads_line (hfinds : Finds buffered chunks text after)
    (hend : lineEnd text = some (idx, ws)) (hblank : idx ≠ 0) (heven : idx % 2 = 0)
    (hmalloc : malloc allocs = (some heap, allocs')) :
    Reads (receiving allocs buffered chunks) results ↔
      ∃ tail, results = ⟨1, some (decodeInto heap text (idx / 2)), idx⟩ :: tail ∧
        Reads (receiving allocs' (text.drop (idx + ws)) after) tail :=
  reads_next_iff (hfinds.read hend (takeLine_of_memory hblank heven hmalloc)) rfl

/-- Without further chunks the connection is closed. -/
theorem reads_closed : Reads (receiving allocs buffered []) results ↔ results = [⟨0, none, 0⟩] :=
  reads_stop_iff (show (receiving allocs buffered []).read =
    (⟨0, none, 0⟩, receiving allocs buffered []) from rfl) (by decide)

/-- So it is when the chunks complete no line. -/
theorem reads_unfinished (hdata : ∀ chunk ∈ chunks, chunk.bytes ≠ [])
    (hopen : (10 : UInt8) ∉ buffered ++ chunks.flatMap Chunk.bytes) :
    Reads (receiving allocs buffered chunks) results ↔ results = [⟨0, none, 0⟩] := by
  have hloop : readLoop allocs (chunks.map .data) buffered =
      ⟨⟨0, none, 0⟩, buffered ++ chunks.flatMap Chunk.bytes, [], allocs⟩ := by
    induction chunks generalizing buffered with
    | nil => simp [readLoop]
    | cons chunk chunks ih =>
        have hchunk := hdata chunk List.mem_cons_self
        rw [List.flatMap_cons, ← List.append_assoc] at hopen ⊢
        have hnone : lineEnd (buffered ++ chunk.bytes) = none :=
          lineEnd_eq_none fun hmem => hopen (List.mem_append_left _ hmem)
        rw [List.map_cons, readLoop, if_neg hchunk, hnone]
        exact ih (fun c hc => hdata c (List.mem_cons_of_mem _ hc)) hopen
  have hread : (receiving allocs buffered chunks).read =
      (⟨0, none, 0⟩, receiving allocs (buffered ++ chunks.flatMap Chunk.bytes) []) :=
    read_of_readLoop hloop
  exact reads_stop_iff hread (by decide)

end

/-! ## Chunks and lines -/

/-- A text with a newline holds a line. -/
theorem lineEnd_of_newline {body : Bytes} (hbody : (10 : UInt8) ∉ body) (front : Bytes) :
    ∃ idx ws, lineEnd (body ++ 10 :: front) = some (idx, ws) := by
  by_cases hcr : body.getLast? = some 13
  · exact ⟨_, _, lineEnd_crlf hbody hcr front⟩
  · rw [lineEnd_bare hbody hcr]
    cases find [13, 10] front with
    | some i => exact ⟨_, _, rfl⟩
    | none => exact ⟨_, _, rfl⟩

/-- A beginning of a text that contains its first newline contains its first line. -/
theorem prefix_of_mem {body rest text : Bytes} (hbody : (10 : UInt8) ∉ body)
    (hleading : text <+: body ++ 10 :: rest) (hmem : (10 : UInt8) ∈ text) :
    ∃ front, front <+: rest ∧ text = body ++ 10 :: front := by
  have hline : body ++ [10] <+: body ++ 10 :: rest := ⟨rest, by simp⟩
  rcases List.prefix_or_prefix_of_prefix hleading hline with hshort | ⟨front, rfl⟩
  · rcases List.prefix_concat_iff.mp hshort with rfl | hbefore
    · exact ⟨[], List.nil_prefix, rfl⟩
    · exact absurd (hbefore.subset hmem) hbody
  · rw [List.append_assoc, List.singleton_append] at hleading ⊢
    rw [List.prefix_append_right_inj, List.prefix_cons_inj] at hleading
    exact ⟨front, hleading, rfl⟩

section

variable {body rest : Bytes}

/-- Chunks that complete a stream with a newline come to its first line, with no more behind
it than the last of these chunks and the buffer can hold. -/
theorem Supplies.finds {buffered : Bytes} {chunks : List Chunk} (hbody : (10 : UInt8) ∉ body)
    (hsupplies : Supplies buffered chunks (body ++ 10 :: rest)) (hchunks : chunks ≠ []) :
    ∃ front after, Finds buffered chunks (body ++ 10 :: front) after ∧
      Supplies front after rest ∧ front.length ≤ ahead buffered.length body.length := by
  induction chunks generalizing buffered with
  | nil => exact absurd rfl hchunks
  | cons chunk chunks ih =>
      obtain ⟨hdata, hjoined⟩ := hsupplies
      have hchunk := hdata chunk List.mem_cons_self
      have hafter : ∀ c ∈ chunks, c.bytes ≠ [] := fun c hc => hdata c (List.mem_cons_of_mem _ hc)
      rw [List.flatMap_cons, ← List.append_assoc] at hjoined
      have hleading : buffered ++ chunk.bytes <+: body ++ 10 :: rest := ⟨_, hjoined⟩
      by_cases hmem : (10 : UInt8) ∈ buffered ++ chunk.bytes
      · obtain ⟨front, _, htext⟩ := prefix_of_mem hbody hleading hmem
        obtain ⟨idx, ws, hend⟩ := lineEnd_of_newline hbody front
        have hlength := congrArg List.length htext
        have hfits := chunk.fits
        simp only [List.length_append, List.length_cons] at hlength
        rw [htext, List.append_assoc, List.cons_append] at hjoined
        refine ⟨front, chunks, ?_, ⟨hafter, ?_⟩, ?_⟩
        · rw [← htext]
          exact .last hchunk (by rw [htext, hend]; exact Option.some_ne_none _)
        · exact List.cons_inj_right 10 |>.mp (List.append_cancel_left hjoined)
        · unfold ahead
          omega
      · have hopen := lineEnd_eq_none hmem
        have hmore : chunks ≠ [] := by
          rintro rfl
          rw [List.flatMap_nil, List.append_nil] at hjoined
          exact hmem (by rw [hjoined]; simp)
        -- Without a newline what is buffered is a part of the line.
        have hshort : (buffered ++ chunk.bytes).length ≤ body.length := by
          by_contra hlong
          have hline : body ++ [10] <+: buffered ++ chunk.bytes :=
            List.prefix_of_prefix_length_le ⟨rest, by simp⟩ hleading (by simp at hlong ⊢; omega)
          exact hmem (hline.subset (by simp))
        obtain ⟨front, after, hfinds, hrest, hlength⟩ := ih ⟨hafter, hjoined⟩ hmore
        refine ⟨front, after, .more hchunk hopen hfinds, hrest, ?_⟩
        unfold ahead at hlength ⊢
        rw [List.length_append] at hshort hlength
        omega

/-- Bytes without a newline, each in a chunk of its own, only gather. -/
theorem finds_single {buffered bytes text : Bytes} {chunks after : List Chunk}
    (hopen : (10 : UInt8) ∉ buffered ++ bytes) (hfinds : Finds (buffered ++ bytes) chunks text after) :
    Finds buffered (bytes.map .single ++ chunks) text after := by
  induction bytes generalizing buffered with
  | nil => simpa using hfinds
  | cons byte bytes ih =>
      rw [List.append_cons] at hopen hfinds
      refine .more (List.cons_ne_nil byte []) ?_ (ih hopen hfinds)
      exact lineEnd_eq_none fun hmem => hopen (List.mem_append_left _ hmem)

theorem flatMap_single (bytes : Bytes) : (bytes.map Chunk.single).flatMap Chunk.bytes = bytes := by
  induction bytes with
  | nil => rfl
  | cons byte bytes ih => rw [List.map_cons, List.flatMap_cons, ih]; rfl

/-- A stream can be supplied bytewise. -/
theorem supplies_single (buffered bytes : Bytes) :
    Supplies buffered (bytes.map .single) (buffered ++ bytes) := by
  refine ⟨fun chunk hchunk => ?_, by rw [flatMap_single]⟩
  obtain ⟨byte, _, rfl⟩ := List.mem_map.mp hchunk
  exact List.cons_ne_nil byte []

/-- The last chunk of a text that a buffer and one chunk can hold. -/
theorem exists_last_chunk {text : Bytes} {buffered : Nat} (htext : text ≠ [])
    (hlength : text.length ≤ buffered + msgioBufferSz) :
    ∃ bytes, ∃ chunk : Chunk, bytes.length ≤ buffered ∧ chunk.bytes ≠ [] ∧
      bytes ++ chunk.bytes = text := by
  have hlarge : 0 < msgioBufferSz := by decide
  have hpos := List.length_pos_iff.mpr htext
  refine ⟨text.take (min buffered (text.length - 1)),
    ⟨text.drop (min buffered (text.length - 1)), ?_⟩, ?_, ?_, List.take_append_drop _ _⟩
  · rw [List.length_drop]
    omega
  · rw [List.length_take]
    omega
  · rw [Ne, List.drop_eq_nil_iff]
    omega

/-- Every beginning of what follows the line can come with it, if there is room for it. -/
theorem Supplies.exists_finds {front : Bytes} {after : List Chunk} {buffered : Nat}
    (hbody : (10 : UInt8) ∉ body) (hsupplies : Supplies front after rest)
    (hlength : front.length ≤ ahead buffered body.length) :
    ∃ bytes chunks, bytes.length ≤ buffered ∧ Supplies bytes chunks (body ++ 10 :: rest) ∧
      Finds bytes chunks (body ++ 10 :: front) after := by
  obtain ⟨hdata, hjoined⟩ := hsupplies
  obtain ⟨idx, ws, hend⟩ := lineEnd_of_newline hbody front
  have hline : lineEnd (body ++ 10 :: front) ≠ none := by
    rw [hend]
    exact Option.some_ne_none _
  by_cases hfits : (10 :: front).length ≤ msgioBufferSz
  · -- The line arrives bytewise, and its newline with all of `front`.
    refine ⟨[], body.map .single ++ ⟨10 :: front, hfits⟩ :: after, Nat.zero_le _, ⟨?_, ?_⟩, ?_⟩
    · intro chunk hchunk
      rcases List.mem_append.mp hchunk with hsingle | hmem
      · exact (supplies_single [] body).data chunk hsingle
      · rcases List.mem_cons.mp hmem with rfl | hmem
        · exact List.cons_ne_nil _ _
        · exact hdata chunk hmem
    · rw [List.flatMap_append, flatMap_single, List.flatMap_cons, List.nil_append, ← hjoined]
      rfl
    · exact finds_single hbody (.last (List.cons_ne_nil _ _) hline)
  · -- The line was in the buffer before, and one more chunk arrives.
    obtain ⟨bytes, chunk, hbytes, hchunk, htext⟩ :
        ∃ bytes, ∃ chunk : Chunk, bytes.length ≤ buffered ∧ chunk.bytes ≠ [] ∧
          bytes ++ chunk.bytes = body ++ 10 :: front := by
      apply exists_last_chunk
      · simp
      · rw [List.length_append, List.length_cons]
        rw [List.length_cons] at hfits
        unfold ahead at hlength
        have hlarge : 0 < msgioBufferSz := by decide
        omega
    refine ⟨bytes, chunk :: after, hbytes, ⟨?_, ?_⟩, ?_⟩
    · intro c hmem
      rcases List.mem_cons.mp hmem with rfl | hmem
      · exact hchunk
      · exact hdata c hmem
    · rw [List.flatMap_cons, ← List.append_assoc, htext, List.append_assoc, List.cons_append,
        hjoined]
    · rw [← htext] at hline ⊢
      exact .last hchunk hline

end

/-! ## Streams that do not depend on the cuts -/

/-- All ways to supply a stream, some of it buffered, give the same results. -/
def Stable (allocs : List (Option Heap)) (buffered : Nat) (stream : Bytes) : Prop :=
  ∃ results, ∀ bytes chunks, bytes.length ≤ buffered → Supplies bytes chunks stream →
    Reads (receiving allocs bytes chunks) results

section

variable {allocs : List (Option Heap)} {body rest : Bytes} {buffered : Nat}

/-- A stream of which something is still to come has chunks. -/
theorem Supplies.ne_nil {bytes stream : Bytes} {chunks : List Chunk}
    (hsupplies : Supplies bytes chunks stream) (hlength : bytes.length < stream.length) :
    chunks ≠ [] := by
  rintro rfl
  have hjoined := hsupplies.joined
  rw [List.flatMap_nil, List.append_nil] at hjoined
  rw [hjoined] at hlength
  exact Nat.lt_irrefl _ hlength

theorem ahead_mono {left right : Nat} (h : left ≤ right) (length : Nat) :
    ahead left length ≤ ahead right length := by
  unfold ahead
  omega

/-- What is said about all lines found in a stream holds however it is supplied. -/
theorem reads_of_finds {results : List ReadResult} (hbody : (10 : UInt8) ∉ body)
    (hbuffered : buffered ≤ body.length + rest.length)
    (hall : ∀ bytes chunks front after, Finds bytes chunks (body ++ 10 :: front) after →
      Supplies front after rest → front.length ≤ ahead buffered body.length →
      Reads (receiving allocs bytes chunks) results) :
    ∀ bytes chunks, bytes.length ≤ buffered → Supplies bytes chunks (body ++ 10 :: rest) →
      Reads (receiving allocs bytes chunks) results := by
  intro bytes chunks hbytes hsupplies
  have hchunks : chunks ≠ [] := by
    apply hsupplies.ne_nil
    rw [List.length_append, List.length_cons]
    omega
  obtain ⟨front, after, hfinds, hrest, hlength⟩ := hsupplies.finds hbody hchunks
  exact hall bytes chunks front after hfinds hrest (hlength.trans (ahead_mono hbytes _))

theorem Supplies.leading {front : Bytes} {after : List Chunk}
    (hsupplies : Supplies front after rest) : front <+: rest :=
  ⟨_, hsupplies.joined⟩

/-- A line of odd length has one wherever it is taken to end. -/
theorem odd_of_lineEnd {front : Bytes} {idx ws : Nat} (hbody : (10 : UInt8) ∉ body)
    (hodd : lineLength body % 2 = 1)
    (hlater : ∀ i, body.getLast? ≠ some 13 →
      find [13, 10] (rest.take (ahead buffered body.length)) = some i → i % 2 = 1)
    (hfront : front <+: rest) (hlength : front.length ≤ ahead buffered body.length)
    (hend : lineEnd (body ++ 10 :: front) = some (idx, ws)) : idx % 2 = 1 := by
  unfold lineLength at hodd
  by_cases hcr : body.getLast? = some 13
  · rw [lineEnd_crlf hbody hcr] at hend
    rw [if_pos hcr] at hodd
    cases hend
    exact hodd
  · rw [lineEnd_bare hbody hcr] at hend
    rw [if_neg hcr] at hodd
    cases hfind : find [13, 10] front with
    | none =>
        rw [hfind] at hend
        cases hend
        exact hodd
    | some i =>
        rw [hfind] at hend
        cases hend
        have hleading : front <+: rest.take (ahead buffered body.length) :=
          List.prefix_take_iff.mpr ⟨hfront, hlength⟩
        have hi := hlater i hcr (find_of_leading hleading hfind)
        omega

theorem stable_of_steady {stream : Bytes} (hsteady : Steady allocs buffered stream) :
    Stable allocs buffered stream := by
  induction hsteady with
  | unfinished hopen =>
      refine ⟨[⟨0, none, 0⟩], fun bytes chunks _ hsupplies => ?_⟩
      obtain ⟨hdata, rfl⟩ := hsupplies
      exact (reads_unfinished hdata hopen).mpr rfl
  | odd hbody hodd hlater =>
      refine ⟨[⟨0, none, 0⟩], fun bytes chunks hbytes hsupplies => ?_⟩
      by_cases hchunks : chunks = []
      · rw [hchunks]
        exact reads_closed.mpr rfl
      · obtain ⟨front, after, hfinds, hrest, hlength⟩ := hsupplies.finds hbody hchunks
        obtain ⟨idx, ws, hend⟩ := lineEnd_of_newline hbody front
        refine (hfinds.reads_odd hend ?_).mpr rfl
        exact odd_of_lineEnd hbody hodd hlater hrest.leading
          (hlength.trans (ahead_mono hbytes _)) hend
  | @blank allocs buffered body hbody hblank hbuffered =>
      refine ⟨[⟨1, none, 0⟩, ⟨0, none, 0⟩], reads_of_finds hbody (by simpa using hbuffered) ?_⟩
      intro bytes chunks front after hfinds hrest _
      obtain rfl : front = [] := List.prefix_nil.mp hrest.leading
      obtain ⟨ws, hend, _⟩ := lineEnd_alone hbody
      rw [hblank] at hend
      have hafter : after = [] := by
        cases after with
        | nil => rfl
        | cons chunk after =>
            have hnil := hrest.joined
            simp [hrest.data chunk List.mem_cons_self] at hnil
      rw [hafter] at hfinds
      exact (hfinds.reads_blank hend).mpr ⟨_, rfl, reads_closed.mpr rfl⟩
  | @noMemory _ _ _ body _ hbody hbuffered hends hblank heven hmalloc =>
      refine ⟨[⟨-1, none, lineLength body⟩], reads_of_finds hbody hbuffered ?_⟩
      intro bytes chunks front after hfinds hrest hlength
      obtain ⟨ws, hend, _⟩ := lineEnd_alone hbody
      rw [← lineEnd_of_ends hbody hends hrest.leading hlength] at hend
      exact (hfinds.reads_noMemory hend hblank heven hmalloc).mpr rfl
  | @line _ _ _ body _ heap hbody hbuffered hends hblank heven hmalloc hdecode _ ih =>
      obtain ⟨results, hall⟩ := ih
      refine ⟨⟨1, some (decodeInto heap (body ++ [10]) (lineLength body / 2)), lineLength body⟩ ::
        results, reads_of_finds hbody hbuffered ?_⟩
      intro bytes chunks front after hfinds hrest hlength
      obtain ⟨ws, hend, hws⟩ := lineEnd_alone hbody
      rw [← lineEnd_of_ends hbody hends hrest.leading hlength] at hend
      refine (hfinds.reads_line hend hblank heven hmalloc).mpr ⟨results, ?_, ?_⟩
      · rw [hdecode front hrest.leading hlength]
      · rw [hws, ← List.singleton_append, ← List.append_assoc, List.drop_left' (by simp)]
        exact hall front after hlength hrest

/-- In a stable stream every beginning of the rest can be met behind the line. -/
theorem exists_reads {results : List ReadResult} (hbody : (10 : UInt8) ∉ body)
    (hall : ∀ bytes chunks, bytes.length ≤ buffered → Supplies bytes chunks (body ++ 10 :: rest) →
      Reads (receiving allocs bytes chunks) results)
    {front : Bytes} {after : List Chunk} (hrest : Supplies front after rest)
    (hlength : front.length ≤ ahead buffered body.length) :
    ∃ bytes chunks, Finds bytes chunks (body ++ 10 :: front) after ∧
      Reads (receiving allocs bytes chunks) results := by
  obtain ⟨bytes, chunks, hbytes, hsupplies, hfinds⟩ := hrest.exists_finds hbody hlength
  exact ⟨bytes, chunks, hfinds, hall bytes chunks hbytes hsupplies⟩

/-- The first result tells where the line was taken to end. -/
theorem Finds.length_of_reads {bytes text : Bytes} {chunks after : List Chunk}
    {tail : List ReadResult} {first : ReadResult} {idx ws : Nat}
    (hfinds : Finds bytes chunks text after) (hend : lineEnd text = some (idx, ws))
    (hreads : Reads (receiving allocs bytes chunks) (first :: tail)) :
    (first.rv = 0 → idx % 2 = 1) ∧ (first.sz ≠ 0 → idx = first.sz) := by
  by_cases hblank : idx = 0
  · rw [hblank] at hend
    obtain ⟨_, heq, _⟩ := (hfinds.reads_blank hend).mp hreads
    cases heq
    exact ⟨fun h => (by cases h), fun h => absurd rfl h⟩
  · by_cases hodd : idx % 2 = 1
    · have heq := (hfinds.reads_odd hend hodd).mp hreads
      cases heq
      exact ⟨fun _ => hodd, fun h => absurd rfl h⟩
    · cases hmalloc : malloc allocs with
      | mk heap allocs' =>
          cases heap with
          | none =>
              have heq := (hfinds.reads_noMemory hend hblank (by omega) hmalloc).mp hreads
              cases heq
              exact ⟨fun h => (by cases h), fun _ => rfl⟩
          | some heap =>
              obtain ⟨_, heq, _⟩ := (hfinds.reads_line hend hblank (by omega) hmalloc).mp hreads
              cases heq
              exact ⟨fun h => (by cases h), fun _ => rfl⟩

/-- A stable stream whose run ends with 0 at once begins with a line of odd length. -/
theorem steady_of_zero (hbody : (10 : UInt8) ∉ body)
    (hall : ∀ bytes chunks, bytes.length ≤ buffered → Supplies bytes chunks (body ++ 10 :: rest) →
      Reads (receiving allocs bytes chunks) [⟨0, none, 0⟩]) :
    Steady allocs buffered (body ++ 10 :: rest) := by
  have hodds : ∀ front, front <+: rest → front.length ≤ ahead buffered body.length →
      ∀ idx ws, lineEnd (body ++ 10 :: front) = some (idx, ws) → idx % 2 = 1 := by
    rintro front ⟨back, rfl⟩ hlength idx ws hend
    obtain ⟨bytes, chunks, hfinds, hreads⟩ :=
      exists_reads hbody hall (supplies_single front back) hlength
    exact (hfinds.length_of_reads hend hreads).1 rfl
  obtain ⟨ws, hend, _⟩ := lineEnd_alone hbody
  have hodd := hodds [] List.nil_prefix (Nat.zero_le _) _ _ hend
  refine .odd hbody hodd fun i hcr hfind => ?_
  have hlater := hodds _ (List.take_prefix _ rest) (List.length_take_le _ _) (i + (body.length + 1)) 2
    (by rw [lineEnd_bare hbody hcr, hfind])
  rw [lineLength, if_neg hcr] at hodd
  omega

/-- A stable stream in which a blank line comes first has nothing behind it: a byte there
could arrive with the line or after it. -/
theorem rest_eq_nil_of_blank {results : List ReadResult} (hbody : (10 : UInt8) ∉ body)
    (hblank : lineLength body = 0)
    (hall : ∀ bytes chunks, bytes.length ≤ buffered → Supplies bytes chunks (body ++ 10 :: rest) →
      Reads (receiving allocs bytes chunks) results) : rest = [] := by
  cases rest with
  | nil => rfl
  | cons byte rest =>
      exfalso
      obtain ⟨ws, hend, _⟩ := lineEnd_alone hbody
      rw [hblank] at hend
      have hsingle : find [13, 10] ([byte].take 1) = none := by
        simp [find]
      have hmore : lineEnd (body ++ 10 :: [byte]) = some (0, ws) := by
        rw [← hend]
        exact lineEnd_of_ends hbody (.inr hsingle) List.prefix_rfl le_rfl
      have hroom : 1 ≤ ahead buffered body.length := by
        unfold ahead msgioBufferSz
        omega
      obtain ⟨bytes, chunks, hfinds, hreads⟩ :=
        exists_reads hbody hall (supplies_single [byte] rest) hroom
      obtain ⟨bytes', chunks', hfinds', hreads'⟩ :=
        exists_reads hbody hall (supplies_single [] (byte :: rest)) (Nat.zero_le _)
      obtain ⟨tail, hresults, htail⟩ := (hfinds.reads_blank hmore).mp hreads
      obtain ⟨tail', hresults', htail'⟩ := (hfinds'.reads_blank hend).mp hreads'
      -- The second run sees the blank line once more, and is then where the first one is.
      have hagain : Finds (body ++ [10]) ((byte :: rest).map .single) (body ++ 10 :: [byte])
          (rest.map .single) := by
        have hlast : Finds (body ++ [10]) ((byte :: rest).map .single)
            (body ++ [10] ++ [byte]) (rest.map .single) := by
          refine .last (List.cons_ne_nil byte []) ?_
          rw [List.append_assoc]
          exact fun hnone => by cases hmore.symm.trans hnone
        rwa [List.append_assoc] at hlast
      obtain ⟨last, hlast, hrest⟩ := (hagain.reads_blank hmore).mp htail'
      have heq := hrest.unique htail
      rw [hresults, hlast, heq] at hresults'
      have hlength := congrArg List.length hresults'
      simp at hlength

/-- In a stable stream all runs begin with a result of the size of the first line, and so
find its end in the same place. -/
theorem ends_of_reads {first : ReadResult} {tail : List ReadResult} (hbody : (10 : UInt8) ∉ body)
    (hsz : first.sz = lineLength body) (hblank : lineLength body ≠ 0)
    (hall : ∀ bytes chunks, bytes.length ≤ buffered → Supplies bytes chunks (body ++ 10 :: rest) →
      Reads (receiving allocs bytes chunks) (first :: tail)) :
    body.getLast? = some 13 ∨ find [13, 10] (rest.take (ahead buffered body.length)) = none := by
  have hcut := List.take_append_drop (ahead buffered body.length) rest
  have hsupplies := supplies_single (rest.take (ahead buffered body.length))
    (rest.drop (ahead buffered body.length))
  rw [hcut] at hsupplies
  obtain ⟨bytes, chunks, hfinds, hreads⟩ :=
    exists_reads hbody hall hsupplies (List.length_take_le _ _)
  obtain ⟨idx, ws, hend⟩ := lineEnd_of_newline hbody (rest.take (ahead buffered body.length))
  have hidx := (hfinds.length_of_reads hend hreads).2 (by rwa [hsz])
  exact ends_of_lineEnd hbody ⟨ws, by rw [hend, hidx, hsz]⟩

/-- In a stable stream each run decodes the first line to the same bytes and goes on with
the rest. -/
theorem decode_of_reads {allocs' : List (Option Heap)} {heap : Heap} {first : ReadResult}
    {tail : List ReadResult} {ws : Nat} (hbody : (10 : UInt8) ∉ body)
    (hend : lineEnd (body ++ [10]) = some (lineLength body, ws))
    (hws : lineLength body + ws = body.length + 1)
    (hends : body.getLast? = some 13 ∨
      find [13, 10] (rest.take (ahead buffered body.length)) = none)
    (hblank : lineLength body ≠ 0) (heven : lineLength body % 2 = 0)
    (hmalloc : malloc allocs = (some heap, allocs'))
    (hall : ∀ bytes chunks, bytes.length ≤ buffered → Supplies bytes chunks (body ++ 10 :: rest) →
      Reads (receiving allocs bytes chunks) (first :: tail))
    {front : Bytes} {after : List Chunk} (hrest : Supplies front after rest)
    (hlength : front.length ≤ ahead buffered body.length) :
    first.dest = some (decodeInto heap (body ++ 10 :: front) (lineLength body / 2)) ∧
      Reads (receiving allocs' front after) tail := by
  obtain ⟨bytes, chunks, hfinds, hreads⟩ := exists_reads hbody hall hrest hlength
  rw [← lineEnd_of_ends hbody hends hrest.leading hlength] at hend
  obtain ⟨tail', hresults, htail⟩ := (hfinds.reads_line hend hblank heven hmalloc).mp hreads
  obtain ⟨rfl, rfl⟩ := List.cons_eq_cons.mp hresults
  rw [hws, ← List.singleton_append, ← List.append_assoc, List.drop_left' (by simp)] at htail
  exact ⟨rfl, htail⟩

theorem steady_of_stable {stream : Bytes} (hstable : Stable allocs buffered stream) :
    Steady allocs buffered stream := by
  induction hn : stream.length using Nat.strong_induction_on generalizing stream allocs buffered with
  | _ n ih =>
      by_cases hmem : (10 : UInt8) ∈ stream
      · obtain ⟨body, rest, rfl, hbody⟩ := List.eq_append_cons_of_mem hmem
        obtain ⟨results, hall⟩ := hstable
        obtain ⟨ws, hend, hws⟩ := lineEnd_alone hbody
        obtain ⟨bytes, chunks, hfinds, hreads⟩ :=
          exists_reads hbody hall (supplies_single [] rest) (Nat.zero_le _)
        by_cases hbuffered : buffered ≤ body.length + rest.length
        · by_cases hblank : lineLength body = 0
          · obtain rfl := rest_eq_nil_of_blank hbody hblank hall
            exact .blank hbody hblank hbuffered
          · by_cases hodd : lineLength body % 2 = 1
            · rw [(hfinds.reads_odd hend hodd).mp hreads] at hall
              exact steady_of_zero hbody hall
            · have heven : lineLength body % 2 = 0 := by omega
              cases hmalloc : malloc allocs with
              | mk heap allocs' =>
                  cases heap with
                  | none =>
                      rw [(hfinds.reads_noMemory hend hblank heven hmalloc).mp hreads] at hall
                      exact .noMemory hbody hbuffered (ends_of_reads hbody rfl hblank hall) hblank
                        heven hmalloc
                  | some heap =>
                      obtain ⟨tail, rfl, _⟩ :=
                        (hfinds.reads_line hend hblank heven hmalloc).mp hreads
                      have hends := ends_of_reads hbody rfl hblank hall
                      have hline := @decode_of_reads _ _ _ _ _ _ _ _ _ hbody hend hws hends hblank
                        heven hmalloc hall
                      refine .line hbody hbuffered hends hblank heven hmalloc ?_ ?_
                      · rintro front ⟨back, rfl⟩ hlength
                        have hdest := (hline (supplies_single front back) hlength).1
                        exact (Option.some.inj hdest).symm
                      · apply ih rest.length _ _ rfl
                        · rw [← hn, List.length_append, List.length_cons]
                          omega
                        · exact ⟨tail, fun front after hlength hrest => (hline hrest hlength).2⟩
        · -- All of the stream can be in the buffer, and the connection be closed.
          have hclosed : Supplies (body ++ 10 :: rest) [] (body ++ 10 :: rest) :=
            ⟨fun _ hmem => absurd hmem List.not_mem_nil, List.append_nil _⟩
          have hreads := hall _ _ (by rw [List.length_append, List.length_cons]; omega) hclosed
          rw [reads_closed.mp hreads] at hall
          exact steady_of_zero hbody hall
      · exact .unfinished hmem

end

/-- `read` returns the same for all cuts of exactly these streams. -/
theorem segmentationIndependent_iff (allocs : List (Option Heap)) (stream : Bytes) :
    SegmentationIndependent allocs stream ↔ Steady allocs 0 stream := by
  constructor
  · intro hindependent
    have hsingle := supplies_single [] stream
    obtain ⟨results, hreads, _⟩ := hindependent _ _ hsingle hsingle
    refine steady_of_stable ⟨results, fun bytes chunks hbytes hsupplies => ?_⟩
    obtain rfl := List.length_eq_zero_iff.mp (Nat.le_zero.mp hbytes)
    obtain ⟨results', hreads', hright⟩ := hindependent _ _ hsingle hsupplies
    rwa [hreads.unique hreads']
  · intro hsteady left right hleft hright
    obtain ⟨results, hall⟩ := stable_of_steady hsteady
    exact ⟨results, hall _ _ (Nat.zero_le _) hleft, hall _ _ (Nat.zero_le _) hright⟩

/-- Two lines in two chunks are two messages. In one chunk the second one is lost. -/
theorem two_lines_not_segmentationIndependent :
    ¬ SegmentationIndependent [] (ascii "0a\n0b\n") := by
  intro hindependent
  obtain ⟨results, hone, htwo⟩ := hindependent [⟨ascii "0a\n0b\n", by decide⟩]
    [⟨ascii "0a\n", by decide⟩, ⟨ascii "0b\n", by decide⟩] ⟨by decide, rfl⟩ ⟨by decide, rfl⟩
  cases hone with
  | stop hstop => exact absurd rfl hstop
  | next _ hrest =>
      cases hrest with
      | stop _ =>
          cases htwo with
          | next _ hrest => cases hrest
      | next hnext _ => exact absurd hnext (by decide)

end RemoteAttestation
