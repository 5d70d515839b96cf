import RemoteAttestation.Transport.MsgIo

/-! # Lines on a socket

What the two loops of `MsgIo` do with a script of kernel results: `sendLoop`
moves bytes from the buffer to the wire and loses none, and `readLoop` returns a line
as soon as its last byte was delivered, however the line was cut into chunks.
-/

namespace RemoteAttestation

/-! ## Sessions -/

namespace MsgIo

/-- A new client finds both buffers as they are, and starts with a wire of its own. -/
theorem serverLoop_socket {msgio next : MsgIo} (hsocket : msgio.useStdio = false)
    (hnext : msgio.serverLoop = (true, next)) :
    next.useStdio = false ∧ next.wbuffer = msgio.wbuffer ∧ next.rbuffer = msgio.rbuffer ∧
      next.wire = [] := by
  unfold serverLoop at hnext
  rw [if_neg (by simp [hsocket])] at hnext
  split at hnext
  next => simp at hnext
  next =>
    cases hnext
    exact ⟨hsocket, rfl, rfl, rfl⟩

/-- `disconnect` leaves both buffers as they are. -/
theorem disconnect_buffers (msgio : MsgIo) :
    msgio.disconnect.useStdio = msgio.useStdio ∧ msgio.disconnect.wbuffer = msgio.wbuffer ∧
      msgio.disconnect.rbuffer = msgio.rbuffer := by
  unfold disconnect
  split
  · exact ⟨rfl, rfl, rfl⟩
  · exact ⟨rfl, rfl, rfl⟩

end MsgIo

/-! ## Sending -/

/-- What is on the wire and what is still queued together never change. -/
theorem sendLoop_conserves (outgoing : List Sent) (wbuffer wire : Bytes) :
    (sendLoop outgoing wbuffer wire).wire ++ (sendLoop outgoing wbuffer wire).wbuffer =
      wire ++ wbuffer := by
  induction outgoing generalizing wbuffer wire with
  | nil =>
      unfold sendLoop
      split
      · rw [List.append_nil]
      · rfl
  | cons result outgoing ih =>
      unfold sendLoop
      split
      next hempty => rw [hempty]
      next hempty =>
        cases result with
        | eintr => exact ih wbuffer wire
        | error => rfl
        | bytes count =>
            dsimp only
            split
            · rfl
            · split
              · rw [List.append_nil]
              · rw [ih, List.append_assoc, List.take_append_drop]

/-- The kernel takes `length` queued bytes before it reports an error. A negative
`int` is a length it refuses. -/
def Accepts : List Sent → Nat → Bool
  | [], length => toInt32 length = length
  | .eintr :: outgoing, length => length = 0 || Accepts outgoing length
  | .error :: _, length => length = 0
  | .bytes count :: outgoing, length =>
      length = 0 ||
        (0 ≤ toInt32 length && Accepts outgoing (length - min count (toInt32 length).toNat))

theorem toInt32_of_lt {length : Nat} (hlength : length < 2 ^ 31) :
    toInt32 length = length := by
  unfold toInt32
  rw [Int.bmod_def]
  omega

@[simp] theorem accepts_zero (outgoing : List Sent) : Accepts outgoing 0 = true := by
  cases outgoing with
  | nil => simp [Accepts, toInt32_of_lt]
  | cons result outgoing => cases result <;> simp [Accepts]

/-- The buffer is empty after the loop exactly when the kernel took all of it. -/
theorem sendLoop_wbuffer_eq_nil_iff (outgoing : List Sent) (wbuffer wire : Bytes) :
    (sendLoop outgoing wbuffer wire).wbuffer = [] ↔ Accepts outgoing wbuffer.length := by
  induction outgoing generalizing wbuffer wire with
  | nil =>
      unfold sendLoop Accepts
      split
      next hint => simp [hint]
      next hint =>
        refine ⟨fun hempty => ?_, fun h => absurd (by simpa using h) hint⟩
        dsimp only at hempty
        rw [hempty] at hint
        exact absurd (toInt32_of_lt (by decide)) hint
  | cons result outgoing ih =>
      unfold sendLoop
      by_cases hempty : wbuffer = []
      · subst hempty
        simp
      · rw [if_neg hempty]
        have hlength : wbuffer.length ≠ 0 := fun h => hempty (List.length_eq_zero_iff.mp h)
        cases result with
        | eintr => simp [Accepts, hlength, ih]
        | error => simp [Accepts, hempty]
        | bytes count =>
            by_cases hneg : toInt32 wbuffer.length < 0
            · simp [Accepts, hempty, hneg]
            · have hpos : 0 ≤ toInt32 wbuffer.length := by omega
              dsimp only
              rw [if_neg hneg]
              split
              next hall => simp [Accepts, hpos, hall]
              next hpart => simp [Accepts, hlength, hpos, ih]

/-- The results not used are the last ones. -/
theorem sendLoop_outgoing (outgoing : List Sent) (wbuffer wire : Bytes) :
    (sendLoop outgoing wbuffer wire).outgoing <:+ outgoing := by
  induction outgoing generalizing wbuffer wire with
  | nil =>
      unfold sendLoop
      split
      · exact List.suffix_rfl
      · exact List.suffix_rfl
  | cons result outgoing ih =>
      have hrest : outgoing <:+ result :: outgoing := List.suffix_cons result outgoing
      unfold sendLoop
      split
      · exact List.suffix_rfl
      · cases result with
        | eintr => exact (ih _ _).trans hrest
        | error => exact hrest
        | bytes count =>
            dsimp only
            split
            · exact hrest
            · split
              · exact hrest
              · exact (ih _ _).trans hrest

/-- A kernel that reports no error takes every buffer whose length is an `int`. -/
theorem accepts_of_no_error {outgoing : List Sent} (hok : Sent.error ∉ outgoing) {length : Nat}
    (hlength : length < 2 ^ 31) : Accepts outgoing length := by
  induction outgoing generalizing length with
  | nil => simp [Accepts, toInt32_of_lt hlength]
  | cons result outgoing ih =>
      have hrest : Sent.error ∉ outgoing := fun h => hok (List.mem_cons_of_mem _ h)
      cases result with
      | eintr => simp [Accepts, ih hrest hlength]
      | error => exact absurd List.mem_cons_self hok
      | bytes count =>
          have hless : Accepts outgoing (length - min count length) := ih hrest (by omega)
          simp [Accepts, toInt32_of_lt hlength, hless]

namespace MsgIo

variable {msgio : MsgIo}

theorem sendPartial_socket (hsocket : msgio.useStdio = false) (src : Bytes) :
    msgio.sendPartial src = { msgio with wbuffer := msgio.wbuffer ++ hexstring src } := by
  rw [sendPartial, if_neg (by simp [hsocket])]

/-- `send` puts its line behind what is queued and on the wire. -/
theorem send_wire_append_wbuffer (hsocket : msgio.useStdio = false) (src : Bytes) :
    (msgio.send src).wire ++ (msgio.send src).wbuffer =
      msgio.wire ++ msgio.wbuffer ++ hexstring src ++ [10] := by
  unfold send
  rw [if_neg (by simp [hsocket])]
  dsimp only
  rw [sendLoop_conserves]
  simp only [List.append_assoc]

/-- The two objects receive alike. -/
structure SameReceiver (msgio next : MsgIo) : Prop where
  useStdio : next.useStdio = msgio.useStdio
  rbuffer : next.rbuffer = msgio.rbuffer
  incoming : next.client.incoming = msgio.client.incoming
  allocs : next.client.allocs = msgio.client.allocs

theorem SameReceiver.trans {next last : MsgIo} (hleft : msgio.SameReceiver next)
    (hright : next.SameReceiver last) : msgio.SameReceiver last :=
  ⟨hright.useStdio.trans hleft.useStdio, hright.rbuffer.trans hleft.rbuffer,
    hright.incoming.trans hleft.incoming, hright.allocs.trans hleft.allocs⟩

theorem sendPartial_receiver (msgio : MsgIo) (src : Bytes) :
    msgio.SameReceiver (msgio.sendPartial src) := by
  unfold sendPartial
  split
  · exact ⟨rfl, rfl, rfl, rfl⟩
  · exact ⟨rfl, rfl, rfl, rfl⟩

theorem send_receiver (msgio : MsgIo) (src : Bytes) : msgio.SameReceiver (msgio.send src) := by
  unfold send
  split
  · exact ⟨rfl, rfl, rfl, rfl⟩
  · exact ⟨rfl, rfl, rfl, rfl⟩

/-- The state in which a `send` is taken whole by the kernel. -/
def Flushes (msgio : MsgIo) (src : Bytes) : Prop :=
  Accepts msgio.client.outgoing (msgio.wbuffer.length + 2 * src.length + 1)

instance (src : Bytes) : Decidable (msgio.Flushes src) := by
  unfold Flushes
  infer_instance

theorem flushes_of_no_error {src : Bytes} (hok : Sent.error ∉ msgio.client.outgoing)
    (hlength : msgio.wbuffer.length + 2 * src.length + 1 < 2 ^ 31) : msgio.Flushes src :=
  accepts_of_no_error hok hlength

theorem send_outgoing (hsocket : msgio.useStdio = false) (src : Bytes) :
    (msgio.send src).client.outgoing <:+ msgio.client.outgoing := by
  unfold send
  rw [if_neg (by simp [hsocket])]
  exact sendLoop_outgoing _ _ _

theorem send_wbuffer_eq_nil_iff (hsocket : msgio.useStdio = false) (src : Bytes) :
    (msgio.send src).wbuffer = [] ↔ msgio.Flushes src := by
  have hlength : (msgio.wbuffer ++ hexstring src ++ [10]).length =
      msgio.wbuffer.length + 2 * src.length + 1 := by
    simp [Nat.add_assoc]
  unfold send Flushes
  rw [if_neg (by simp [hsocket])]
  dsimp only
  rw [sendLoop_wbuffer_eq_nil_iff, hlength]

/-- After a completed `send` the wire ends with its line. -/
theorem send_wire_of_flushes (hsocket : msgio.useStdio = false) {src : Bytes}
    (hflush : msgio.Flushes src) :
    (msgio.send src).wire = msgio.wire ++ msgio.wbuffer ++ hexstring src ++ [10] := by
  have hempty := (send_wbuffer_eq_nil_iff hsocket src).mpr hflush
  have hall := send_wire_append_wbuffer hsocket src
  rwa [hempty, List.append_nil] at hall

end MsgIo

/-! ## Receiving -/

/-- The results of `recv` deliver a text: the last call among them delivers its
last byte, and `rest` is still to come. -/
inductive Delivers : List Recv → Bytes → List Recv → Prop
  | last {chunk : Chunk} {rest : List Recv} (hdata : chunk.bytes ≠ []) :
      Delivers (.data chunk :: rest) chunk.bytes rest
  | more {chunk : Chunk} {incoming rest : List Recv} {bytes : Bytes} (hdata : chunk.bytes ≠ [])
      (hmore : Delivers incoming bytes rest) :
      Delivers (.data chunk :: incoming) (chunk.bytes ++ bytes) rest
  | eintr {incoming rest : List Recv} {bytes : Bytes} (hmore : Delivers incoming bytes rest) :
      Delivers (.eintr :: incoming) bytes rest

theorem Delivers.ne_nil {incoming rest : List Recv} {bytes : Bytes}
    (h : Delivers incoming bytes rest) : bytes ≠ [] := by
  induction h with
  | last hdata => exact hdata
  | more hdata _ _ => simp [hdata]
  | eintr _ ih => exact ih

/-- A chunk of one byte. -/
def Chunk.single (byte : UInt8) : Chunk := ⟨[byte], by simp [msgioBufferSz]⟩

/-- A peer that sends one byte at a time. -/
def bytewise (bytes : Bytes) : List Recv := bytes.map fun byte => .data (.single byte)

/-- Every text can be delivered. -/
theorem delivers_bytewise {bytes : Bytes} (hbytes : bytes ≠ []) (rest : List Recv) :
    Delivers (bytewise bytes ++ rest) bytes rest := by
  induction bytes with
  | nil => exact absurd rfl hbytes
  | cons byte bytes ih =>
      by_cases hlast : bytes = []
      · subst hlast
        exact Delivers.last (List.cons_ne_nil byte [])
      · exact Delivers.more (List.cons_ne_nil byte []) (ih hlast)

theorem lineEnd_eq_none {text : Bytes} (htext : (10 : UInt8) ∉ text) : lineEnd text = none := by
  unfold lineEnd
  have hcrlf : (10 : UInt8) ∈ [13, 10] := by decide
  have hlf : (10 : UInt8) ∈ [10] := by decide
  rw [find_eq_none_of_notMem hcrlf htext, find_eq_none_of_notMem hlf htext]
  rfl

/-- A line without a carriage return ends at its newline. -/
theorem lineEnd_lf {body : Bytes} (hlf : (10 : UInt8) ∉ body) (hcr : (13 : UInt8) ∉ body) :
    lineEnd (body ++ [10]) = some (body.length, 1) := by
  have hmem : (13 : UInt8) ∈ [13, 10] := by decide
  have hnone : find [13, 10] (body ++ [10]) = none :=
    find_eq_none_of_notMem hmem (by simp [hcr])
  have hsome : find ([] ++ [10]) (body ++ [] ++ [10]) = some body.length :=
    find_append_of_notMem hlf List.not_mem_nil
  simp only [List.nil_append, List.append_nil] at hsome
  unfold lineEnd
  rw [hnone, hsome]
  rfl

/-- While no line is complete `readLoop` goes on, and it stops at the chunk that
completes one. -/
theorem readLoop_of_delivers {incoming rest : List Recv} {bytes : Bytes}
    (h : Delivers incoming bytes rest) (allocs : List (Option Heap)) {rbuffer : Bytes}
    {idx ws : Nat}
    (hopen : ∀ front, front <+: rbuffer ++ bytes → front ≠ rbuffer ++ bytes →
      lineEnd front = none)
    (hend : lineEnd (rbuffer ++ bytes) = some (idx, ws)) :
    readLoop allocs incoming rbuffer = takeLine (rbuffer ++ bytes) rest allocs idx ws := by
  induction h generalizing rbuffer with
  | last hdata =>
      rw [readLoop, if_neg hdata, hend]
  | @more chunk incoming rest bytes hdata hmore ih =>
      have hfront : lineEnd (rbuffer ++ chunk.bytes) = none := by
        apply hopen
        · exact ⟨bytes, by simp⟩
        · simpa using hmore.ne_nil
      rw [← List.append_assoc] at hopen hend ⊢
      rw [readLoop, if_neg hdata, hfront]
      exact ih hopen hend
  | eintr _ ih =>
      rw [readLoop]
      exact ih hopen hend

/-- The proper prefixes of a line contain no newline. -/
theorem lineEnd_front {body front : Bytes} (hlf : (10 : UInt8) ∉ body)
    (hleading : front <+: body ++ [10]) (hproper : front ≠ body ++ [10]) :
    lineEnd front = none := by
  apply lineEnd_eq_none
  obtain ⟨back, hback⟩ := hleading
  intro hmem
  rcases List.eq_nil_or_concat back with rfl | ⟨init, last, rfl⟩
  · exact hproper (by simpa using hback)
  · rw [List.concat_eq_append, ← List.append_assoc] at hback
    have hbody := List.append_inj_left' hback rfl
    exact hlf (hbody ▸ List.mem_append_left init hmem)

/-- A complete line read from an empty buffer. -/
theorem readLoop_line {incoming rest : List Recv} {body : Bytes} (hlf : (10 : UInt8) ∉ body)
    (hcr : (13 : UInt8) ∉ body) (h : Delivers incoming (body ++ [10]) rest)
    (allocs : List (Option Heap)) :
    readLoop allocs incoming [] = takeLine (body ++ [10]) rest allocs body.length 1 := by
  have hread : readLoop allocs incoming [] =
      takeLine ([] ++ (body ++ [10])) rest allocs body.length 1 :=
    readLoop_of_delivers h allocs (fun front hleading hproper => lineEnd_front hlf hleading hproper)
      (lineEnd_lf hlf hcr)
  exact hread

theorem length_decodeInto (heap : Heap) (src : Bytes) (len : Nat) :
    (decodeInto heap src len).block.length = len := by
  have hstored := length_fromHexstring_le heap.stale src len
  simp only [decodeInto, List.length_append, List.length_map, List.length_range]
  omega

/-- The text of a message decodes to the message in a buffer of its own size. -/
theorem decodeInto_hexstring (heap : Heap) (message rest : Bytes) :
    (decodeInto heap (hexstring message ++ rest) message.length).block = message := by
  simp [decodeInto, fromHexstring_hexstring]

/-- A message sent as a line is read back from it, however the line arrives. -/
theorem MsgIo.read_hexstring {msgio : MsgIo} {rest : List Recv} {message : Bytes} {heap : Heap}
    (hsocket : msgio.useStdio = false) (hempty : msgio.rbuffer = []) (hmessage : message ≠ [])
    (hline : Delivers msgio.client.incoming (hexstring message ++ [10]) rest)
    (hmalloc : (malloc msgio.client.allocs).1 = some heap) :
    ∃ memory, msgio.read.1 = ⟨1, some memory, 2 * message.length⟩ ∧ memory.block = message ∧
      msgio.read.2.rbuffer = [] ∧ msgio.read.2.client.incoming = rest ∧
      msgio.read.2.client.allocs = msgio.client.allocs.tail := by
  have hlength : message.length ≠ 0 := fun h => hmessage (List.length_eq_zero_iff.mp h)
  have hlf : (10 : UInt8) ∉ hexstring message := notMem_hexstring (by decide)
  have hcr : (13 : UInt8) ∉ hexstring message := notMem_hexstring (by decide)
  have hloop := readLoop_line hlf hcr hline msgio.client.allocs
  refine ⟨decodeInto heap (hexstring message ++ [10]) message.length, ?_⟩
  cases hnext : malloc msgio.client.allocs with
  | mk result allocs =>
      rw [hnext] at hmalloc
      dsimp only at hmalloc
      subst hmalloc
      have htake : takeLine (hexstring message ++ [10]) rest msgio.client.allocs
          (hexstring message).length 1 =
          ⟨⟨1, some (decodeInto heap (hexstring message ++ [10]) message.length),
            2 * message.length⟩, [], rest, allocs⟩ := by
        unfold takeLine
        rw [length_hexstring, if_neg (by omega), if_neg (by omega), hnext]
        simp
      have hallocs : allocs = msgio.client.allocs.tail := (congrArg Prod.snd hnext).symm
      unfold read
      rw [if_neg (by simp [hsocket]), hempty, hloop, htake]
      exact ⟨rfl, decodeInto_hexstring heap message [10], rfl, rfl, hallocs⟩

/-! ## Reads that leave no bytes behind -/

/-- No data arrives before the connection ends. -/
inductive Silent : List Recv → Prop
  | nil : Silent []
  | closed {chunk : Chunk} {rest : List Recv} (hempty : chunk.bytes = []) :
      Silent (.data chunk :: rest)
  | error {rest : List Recv} : Silent (.error :: rest)
  | eintr {incoming : List Recv} (hrest : Silent incoming) : Silent (.eintr :: incoming)

/-- The text that has gathered behind `buffered` when some chunk completes a line. -/
inductive Gathers : List Recv → Bytes → Bytes → List Recv → Prop
  | last {chunk : Chunk} {rest : List Recv} {buffered : Bytes} (hdata : chunk.bytes ≠ [])
      (hline : lineEnd (buffered ++ chunk.bytes) ≠ none) :
      Gathers (.data chunk :: rest) buffered (buffered ++ chunk.bytes) rest
  | more {chunk : Chunk} {incoming rest : List Recv} {buffered text : Bytes}
      (hdata : chunk.bytes ≠ []) (hopen : lineEnd (buffered ++ chunk.bytes) = none)
      (hmore : Gathers incoming (buffered ++ chunk.bytes) text rest) :
      Gathers (.data chunk :: incoming) buffered text rest
  | eintr {incoming rest : List Recv} {buffered text : Bytes}
      (hmore : Gathers incoming buffered text rest) :
      Gathers (.eintr :: incoming) buffered text rest

/-- One line and nothing else: it is not blank, and of an even number of hexadecimal digits. -/
def SingleLine (text : Bytes) : Prop :=
  ∃ idx ws, lineEnd text = some (idx, ws) ∧ idx ≠ 0 ∧ idx % 2 = 0 ∧
    (∀ c ∈ text.take idx, (hexValue? c).isSome) ∧ text.length ≤ idx + ws

/-- What a connection can deliver to one `read` so that all of it is used up: nothing at
all, or one line, for which memory can be had. -/
def DeliversLine (client : Connection) : Prop :=
  Silent client.incoming ∨
    ∃ text rest, Gathers client.incoming [] text rest ∧ SingleLine text ∧
      (malloc client.allocs).1.isSome

/-- Whether a text is one line and nothing else. -/
def isSingleLine (text : Bytes) : Bool :=
  (lineEnd text).any fun found =>
    found.1 != 0 && found.1 % 2 == 0 && (text.take found.1).all (fun c => (hexValue? c).isSome) &&
      decide (text.length ≤ found.1 + found.2)

theorem singleLine_of_isSingleLine {text : Bytes} (hrun : isSingleLine text = true) :
    SingleLine text := by
  obtain ⟨found, hend, hline⟩ := (Option.any_eq_true _ _).mp hrun
  simp only [Bool.and_eq_true, bne_iff_ne, beq_iff_eq, List.all_eq_true, decide_eq_true_eq] at hline
  obtain ⟨⟨⟨hidx, heven⟩, hdigits⟩, hrest⟩ := hline
  exact ⟨found.1, found.2, hend, hidx, heven, hdigits, hrest⟩

/-- Whether a connection is silent, and the text that gathers, from the script. -/
def isSilent : List Recv → Bool
  | [] => true
  | .data chunk :: _ => chunk.bytes = []
  | .error :: _ => true
  | .eintr :: incoming => isSilent incoming

def gathered : List Recv → Bytes → Option Bytes
  | [], _ => none
  | .data chunk :: incoming, buffered =>
      if chunk.bytes = [] then none
      else if lineEnd (buffered ++ chunk.bytes) = none then
        gathered incoming (buffered ++ chunk.bytes)
      else some (buffered ++ chunk.bytes)
  | .error :: _, _ => none
  | .eintr :: incoming, buffered => gathered incoming buffered

theorem silent_of_isSilent {incoming : List Recv} (hsilent : isSilent incoming = true) :
    Silent incoming := by
  induction incoming with
  | nil => exact .nil
  | cons recv incoming ih =>
      cases recv with
      | data chunk => exact .closed (of_decide_eq_true hsilent)
      | eintr => exact .eintr (ih hsilent)
      | error => exact .error

theorem gathers_of_gathered {incoming : List Recv} {buffered text : Bytes}
    (hgathered : gathered incoming buffered = some text) :
    ∃ rest, Gathers incoming buffered text rest := by
  induction incoming generalizing buffered with
  | nil => cases hgathered
  | cons recv incoming ih =>
      cases recv with
      | eintr =>
          obtain ⟨rest, hgathers⟩ := ih hgathered
          exact ⟨rest, .eintr hgathers⟩
      | error => cases hgathered
      | data chunk =>
          unfold gathered at hgathered
          split at hgathered
          next => cases hgathered
          next hdata =>
            split at hgathered
            next hopen =>
              obtain ⟨rest, hgathers⟩ := ih hgathered
              exact ⟨rest, .more hdata hopen hgathers⟩
            next hline =>
              cases hgathered
              exact ⟨incoming, .last hdata hline⟩

/-- A script that delivers a line can be found by running it. -/
def deliversLine (client : Connection) : Bool :=
  isSilent client.incoming ||
    (gathered client.incoming []).any isSingleLine && (malloc client.allocs).1.isSome

theorem deliversLine_sound {client : Connection} (hrun : deliversLine client = true) :
    DeliversLine client := by
  unfold deliversLine at hrun
  rcases Bool.or_eq_true_iff.mp hrun with hsilent | hline
  · exact .inl (silent_of_isSilent hsilent)
  · obtain ⟨hany, hmalloc⟩ := Bool.and_eq_true_iff.mp hline
    obtain ⟨text, hgathered, hsingle⟩ := (Option.any_eq_true _ _).mp hany
    obtain ⟨rest, hgathers⟩ := gathers_of_gathered hgathered
    exact .inr ⟨text, rest, hgathers, singleLine_of_isSingleLine hsingle, hmalloc⟩

/-- Without data neither the buffer nor the memory is used. -/
theorem readLoop_of_silent {incoming : List Recv} (hsilent : Silent incoming) :
    ∃ rv rest, ∀ allocs rbuffer,
      readLoop allocs incoming rbuffer = ⟨⟨rv, none, 0⟩, rbuffer, rest, allocs⟩ := by
  induction hsilent with
  | nil => exact ⟨0, [], fun _ _ => rfl⟩
  | @closed chunk rest hempty =>
      refine ⟨0, rest, fun allocs rbuffer => ?_⟩
      rw [readLoop, if_pos hempty]
  | @error rest => exact ⟨-1, rest, fun _ _ => rfl⟩
  | eintr _ ih => exact ih

theorem readLoop_of_gathers {incoming rest : List Recv} {buffered text : Bytes}
    (hgathers : Gathers incoming buffered text rest) (allocs : List (Option Heap)) {idx ws : Nat}
    (hend : lineEnd text = some (idx, ws)) :
    readLoop allocs incoming buffered = takeLine text rest allocs idx ws := by
  induction hgathers with
  | last hdata _ => rw [readLoop, if_neg hdata, hend]
  | more hdata hopen _ ih =>
      rw [readLoop, if_neg hdata, hopen]
      exact ih hend
  | eintr _ ih => exact ih hend

namespace MsgIo

variable {msgio : MsgIo}

theorem read_socket (hsocket : msgio.useStdio = false) :
    let state := readLoop msgio.client.allocs msgio.client.incoming msgio.rbuffer
    msgio.read = (state.result,
      { msgio with
        rbuffer := state.rbuffer
        client := { msgio.client with incoming := state.incoming, allocs := state.allocs } }) := by
  rw [read, if_neg (by simp [hsocket])]

end MsgIo

/-! ## Results of `read` -/

/-- The three return values of `read`; a buffer is only returned with the value 1, and
it has half the size that is reported. -/
structure ReadResult.WellFormed (result : ReadResult) : Prop where
  rv : result.rv = 1 ∨ result.rv = 0 ∨ result.rv = -1
  dest : ∀ memory, result.dest = some memory →
    result.rv = 1 ∧ memory.block.length = result.sz / 2

theorem ReadResult.wellFormed_of_none {rv : Int} {sz : Nat} (hrv : rv = 1 ∨ rv = 0 ∨ rv = -1) :
    ReadResult.WellFormed ⟨rv, none, sz⟩ :=
  ⟨hrv, fun _ hdest => absurd hdest (by simp)⟩

theorem ReadResult.wellFormed_of_decoded (heap : Heap) (src : Bytes) (sz : Nat) :
    ReadResult.WellFormed ⟨1, some (decodeInto heap src (sz / 2)), sz⟩ := by
  refine ⟨.inl rfl, fun memory hdest => ⟨rfl, ?_⟩⟩
  cases hdest
  exact length_decodeInto heap src (sz / 2)

theorem takeLine_wellFormed (rbuffer : Bytes) (incoming : List Recv)
    (allocs : List (Option Heap)) (idx ws : Nat) :
    (takeLine rbuffer incoming allocs idx ws).result.WellFormed := by
  unfold takeLine
  split
  · exact ReadResult.wellFormed_of_none (.inl rfl)
  · split
    · exact ReadResult.wellFormed_of_none (.inr (.inl rfl))
    · split
      · exact ReadResult.wellFormed_of_none (.inr (.inr rfl))
      · exact ReadResult.wellFormed_of_decoded _ _ _

theorem readLoop_wellFormed (allocs : List (Option Heap)) (incoming : List Recv)
    (rbuffer : Bytes) : (readLoop allocs incoming rbuffer).result.WellFormed := by
  induction incoming generalizing rbuffer with
  | nil => exact ReadResult.wellFormed_of_none (.inr (.inl rfl))
  | cons recv incoming ih =>
      cases recv with
      | eintr => exact ih rbuffer
      | error => exact ReadResult.wellFormed_of_none (.inr (.inr rfl))
      | data chunk =>
          unfold readLoop
          split
          · exact ReadResult.wellFormed_of_none (.inr (.inl rfl))
          · split
            · exact ih _
            · exact takeLine_wellFormed _ _ _ _ _

theorem finishMsg_wellFormed {looped : (Int ⊕ Bytes) × Stdio}
    (hlooped : ∀ rv, looped.1 = .inl rv → rv = 0 ∨ rv = -1) :
    (finishMsg looped).1.WellFormed := by
  obtain ⟨rv | line, io⟩ := looped
  · exact ReadResult.wellFormed_of_none (.inr (hlooped rv rfl))
  · unfold finishMsg
    dsimp only
    generalize (if line.getLast? = some 13 then line.length - 1 else line.length) = bread
    split
    · exact ReadResult.wellFormed_of_none (.inr (.inl rfl))
    · split
      · exact ReadResult.wellFormed_of_none (.inr (.inr rfl))
      · exact ReadResult.wellFormed_of_decoded _ _ _

theorem readMsgLoop_fails {fuel : Nat} {io : Stdio} {line : Bytes} {rv : Int}
    (hfails : (readMsgLoop fuel io line).1 = .inl rv) : rv = 0 ∨ rv = -1 := by
  induction fuel generalizing io line with
  | zero =>
      cases hfails
      exact .inl rfl
  | succ fuel ih =>
      unfold readMsgLoop at hfails
      generalize fgets (room io.bufferSize line.length) io.stdin = got at hfails
      cases got with
      | none =>
          cases hfails
          split
          · exact .inr rfl
          · exact .inl rfl
      | some got =>
          obtain ⟨chunk, rest⟩ := got
          dsimp only at hfails
          split at hfails
          · cases hfails
            exact .inl rfl
          · split at hfails
            · cases hfails
            · generalize malloc io.allocs = allocated at hfails
              obtain ⟨heap | heap, allocs⟩ := allocated
              · cases hfails
                exact .inr rfl
              · exact ih hfails

theorem readMsg_wellFormed (io : Stdio) : (readMsg io).1.WellFormed := by
  unfold readMsg
  dsimp only
  split
  · exact ReadResult.wellFormed_of_none (.inr (.inr rfl))
  · exact finishMsg_wellFormed fun rv hfails => readMsgLoop_fails hfails

theorem MsgIo.read_wellFormed (msgio : MsgIo) : msgio.read.1.WellFormed := by
  unfold MsgIo.read
  split
  · exact readMsg_wellFormed msgio.stdio
  · exact readLoop_wellFormed _ _ _

end RemoteAttestation
