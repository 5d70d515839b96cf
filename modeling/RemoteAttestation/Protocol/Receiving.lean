import RemoteAttestation.Foundation.Delivery
import RemoteAttestation.Client.DoAttestation
import RemoteAttestation.Transport.ReadContract

/-! # Reading from a link

What a `read` makes of the results of `recv` that a link has delivered. The other side of
the link writes lines, so the bytes that a `read` uses are in front of a line: it returns the
message of that line, or none.
-/

namespace RemoteAttestation

/-- The bytes that a result of `recv` delivers. -/
def Recv.bytes : Recv → Bytes
  | .data chunk => chunk.bytes
  | .eintr => []
  | .error => []

/-- The line in which a message is sent. -/
def messageLine (message : Bytes) : Bytes := hexstring message ++ [10]

/-! ## The receive loop -/

section

variable {allocs : List (Option Heap)} {incoming rest : List Recv} {buffered text body : Bytes}

/-- The loop ends without a line, or with the first text that completes one. -/
theorem readLoop_cases (allocs : List (Option Heap)) (incoming : List Recv) (buffered : Bytes) :
    (readLoop allocs incoming buffered).result.rv = 0 ∨
      (readLoop allocs incoming buffered).result.rv = -1 ∨
        ∃ text rest idx ws, Gathers incoming buffered text rest ∧ lineEnd text = some (idx, ws) := by
  induction incoming generalizing buffered with
  | nil => exact .inl rfl
  | cons recv incoming ih =>
      cases recv with
      | error => exact .inr (.inl rfl)
      | eintr =>
          rcases ih buffered with hprotocol | hsystem | ⟨text, rest, idx, ws, hgathers, hend⟩
          · exact .inl hprotocol
          · exact .inr (.inl hsystem)
          · exact .inr (.inr ⟨text, rest, idx, ws, .eintr hgathers, hend⟩)
      | data chunk =>
          by_cases hdata : chunk.bytes = []
          · rw [readLoop, if_pos hdata]
            exact .inl rfl
          · cases hline : lineEnd (buffered ++ chunk.bytes) with
            | some found =>
                have hcomplete : lineEnd (buffered ++ chunk.bytes) ≠ none := by simp [hline]
                exact .inr (.inr ⟨_, incoming, found.1, found.2, .last hdata hcomplete, hline⟩)
            | none =>
                rw [readLoop, if_neg hdata, hline]
                rcases ih (buffered ++ chunk.bytes) with
                  hprotocol | hsystem | ⟨text, rest, idx, ws, hgathers, hend⟩
                · exact .inl hprotocol
                · exact .inr (.inl hsystem)
                · exact .inr (.inr ⟨text, rest, idx, ws, .more hdata hline hgathers, hend⟩)

/-- The results that were used up are those that delivered the text. -/
theorem Gathers.used (hgathers : Gathers incoming buffered text rest) :
    ∃ used, incoming = used ++ rest ∧ text = buffered ++ used.flatMap Recv.bytes := by
  induction hgathers with
  | @last chunk rest buffered _ _ => exact ⟨[.data chunk], rfl, by simp [Recv.bytes]⟩
  | @more chunk incoming rest buffered text _ _ _ ih =>
      obtain ⟨used, rfl, rfl⟩ := ih
      exact ⟨.data chunk :: used, rfl, by simp [Recv.bytes]⟩
  | eintr _ ih =>
      obtain ⟨used, rfl, rfl⟩ := ih
      exact ⟨.eintr :: used, rfl, by simp [Recv.bytes]⟩

theorem Delivers.used (hdelivers : Delivers incoming text rest) :
    ∃ used, incoming = used ++ rest ∧ used.flatMap Recv.bytes = text := by
  induction hdelivers with
  | @last chunk rest _ => exact ⟨[.data chunk], rfl, by simp [Recv.bytes]⟩
  | @more chunk incoming rest bytes _ _ ih =>
      obtain ⟨used, rfl, rfl⟩ := ih
      exact ⟨.data chunk :: used, rfl, rfl⟩
  | eintr _ ih =>
      obtain ⟨used, rfl, rfl⟩ := ih
      exact ⟨.eintr :: used, rfl, rfl⟩

/-- A text in front of a line that completes one is the line. -/
theorem eq_line_of_lineEnd (hlf : (10 : UInt8) ∉ body) (hfront : text <+: body ++ [10])
    (hend : lineEnd text ≠ none) : text = body ++ [10] := by
  by_contra hproper
  exact hend (lineEnd_front hlf hfront hproper)

theorem takeLine_incoming (text : Bytes) (incoming : List Recv) (allocs : List (Option Heap))
    (idx ws : Nat) : (takeLine text incoming allocs idx ws).incoming = incoming := by
  unfold takeLine
  split
  · rfl
  · split
    · rfl
    · split
      · rfl
      · rfl

theorem readLoop_suffix (allocs : List (Option Heap)) (incoming : List Recv) (buffered : Bytes) :
    (readLoop allocs incoming buffered).incoming <:+ incoming := by
  induction incoming generalizing buffered with
  | nil => exact List.suffix_rfl
  | cons recv incoming ih =>
      cases recv with
      | error => exact List.suffix_cons _ _
      | eintr => exact (ih buffered).trans (List.suffix_cons _ _)
      | data chunk =>
          rw [readLoop]
          split
          · exact List.suffix_cons _ _
          · split
            · exact (ih _).trans (List.suffix_cons _ _)
            · rw [takeLine_incoming]
              exact List.suffix_cons _ _

end

/-- The loop stops at the latest with the result that completes a line. -/
theorem readLoop_stops (allocs : List (Option Heap)) {incoming : List Recv} {buffered : Bytes}
    {k : Nat} (hopen : lineEnd buffered = none)
    (hline : lineEnd (buffered ++ (incoming.take k).flatMap Recv.bytes) ≠ none) :
    incoming.length ≤ (readLoop allocs incoming buffered).incoming.length + k := by
  -- On the results of `recv`: each of them that is used is one of the `k`.
  induction incoming generalizing buffered k with
  | nil => exact Nat.zero_le _
  | cons recv incoming ih =>
      cases k with
      | zero =>
          rw [List.take_zero, List.flatMap_nil, List.append_nil] at hline
          exact absurd hopen hline
      | succ k =>
          rw [List.take_succ_cons, List.flatMap_cons, ← List.append_assoc] at hline
          rw [List.length_cons, ← Nat.add_assoc]
          apply Nat.succ_le_succ
          cases recv with
          | error => exact Nat.le_add_right _ _
          | eintr =>
              rw [Recv.bytes, List.append_nil] at hline
              exact ih hopen hline
          | data chunk =>
              rw [Recv.bytes] at hline
              rw [readLoop]
              split
              · exact Nat.le_add_right _ _
              · split
                next hnone => exact ih hnone hline
                next =>
                  rw [takeLine_incoming]
                  exact Nat.le_add_right _ _

/-! ## One `read` -/

namespace MsgIo

variable {msgio : MsgIo} {message : Bytes}

/-- The number of results that the next `read` uses. -/
def usedCount (msgio : MsgIo) : Nat :=
  msgio.client.incoming.length - msgio.read.2.client.incoming.length

/-- The bytes that the next `read` receives. -/
def usedBytes (msgio : MsgIo) : Bytes :=
  (msgio.client.incoming.take msgio.usedCount).flatMap Recv.bytes

theorem read_suffix (hsocket : msgio.useStdio = false) :
    msgio.read.2.client.incoming <:+ msgio.client.incoming := by
  rw [read_socket hsocket]
  exact readLoop_suffix _ _ _

theorem usedCount_of_append {used : List Recv}
    (hincoming : msgio.client.incoming = used ++ msgio.read.2.client.incoming) :
    msgio.usedCount = used.length := by
  unfold usedCount
  rw [hincoming, List.length_append, Nat.add_sub_cancel]

theorem drop_usedCount (hsocket : msgio.useStdio = false) :
    msgio.client.incoming.drop msgio.usedCount = msgio.read.2.client.incoming := by
  obtain ⟨used, hused⟩ := read_suffix hsocket
  rw [usedCount_of_append hused.symm, ← hused, List.drop_left]

/-- A `read` of bytes that are in front of the line of a message returns that message and
has used the whole line, or returns no message. -/
theorem read_of_prefix (hsocket : msgio.useStdio = false) (hempty : msgio.rbuffer = [])
    (hmessage : message ≠ []) (hfront : msgio.usedBytes <+: messageLine message) :
    msgio.read.1.rv = 0 ∨ msgio.read.1.rv = -1 ∨
      (msgio.usedBytes = messageLine message ∧ msgio.read.2.rbuffer = [] ∧
        ∃ memory, msgio.read.1 = ⟨1, some memory, 2 * message.length⟩ ∧
          memory.block = message) := by
  have hlf : (10 : UInt8) ∉ hexstring message := notMem_hexstring (by decide)
  have hcr : (13 : UInt8) ∉ hexstring message := notMem_hexstring (by decide)
  have hlength : message.length ≠ 0 := fun h => hmessage (List.length_eq_zero_iff.mp h)
  have hread := read_socket hsocket
  dsimp only at hread
  rw [hempty] at hread
  rcases readLoop_cases msgio.client.allocs msgio.client.incoming [] with
    hprotocol | hsystem | ⟨text, rest, idx, ws, hgathers, hend⟩
  · left
    rw [hread]
    exact hprotocol
  · right
    left
    rw [hread]
    exact hsystem
  · have hloop := readLoop_of_gathers hgathers msgio.client.allocs hend
    obtain ⟨used, hincoming, htext⟩ := hgathers.used
    rw [List.nil_append] at htext
    -- What was used is in front of the line and completes one.
    have hbytes : msgio.usedBytes = text := by
      have hrest : msgio.read.2.client.incoming = rest := by
        rw [hread, hloop]
        exact takeLine_incoming _ _ _ _ _
      unfold usedBytes
      rw [usedCount_of_append (hrest ▸ hincoming), hincoming, List.take_left, htext]
    have hline : text = hexstring message ++ [10] :=
      eq_line_of_lineEnd hlf (hbytes ▸ hfront) (by simp [hend])
    rw [hline, lineEnd_lf hlf hcr] at hend
    obtain ⟨rfl, rfl⟩ : (hexstring message).length = idx ∧ 1 = ws := by simpa using hend
    rw [hread, hloop, hbytes]
    rw [takeLine, length_hexstring, if_neg (by omega), if_neg (by omega)]
    -- What can still fail is the allocation.
    cases hmalloc : malloc msgio.client.allocs with
    | mk block allocs =>
        cases block with
        | none => exact .inr (.inl rfl)
        | some heap =>
            have hhalf : 2 * message.length / 2 = message.length := by omega
            refine .inr (.inr ⟨hline, ?_, _, rfl, ?_⟩)
            · dsimp only
              rw [hline, List.drop_of_length_le]
              rw [List.length_append, length_hexstring, List.length_singleton]
            · rw [hline, hhalf]
              exact decodeInto_hexstring heap message [10]

/-! ## The end of a link -/

section

variable {link : Link UInt8} {front written : Bytes}

/-- The link after the `read` that is due. -/
def useLink (msgio : MsgIo) (link : Link UInt8) : Link UInt8 :=
  link.use Recv.bytes msgio.client.incoming msgio.usedCount

theorem useLink_taken (msgio : MsgIo) (link : Link UInt8) :
    (msgio.useLink link).taken = link.taken ++ msgio.usedBytes := rfl

/-- A `read` that uses all that is there leaves an empty link. -/
theorem useLink_of_delivers {text : Bytes} {rest : List Recv}
    (hdelivers : Delivers msgio.client.incoming text rest)
    (hrest : msgio.read.2.client.incoming = rest)
    (hready : link.ready = msgio.client.incoming.length - rest.length) :
    msgio.usedCount ≤ link.ready ∧ msgio.useLink link = ⟨link.taken ++ text, 0⟩ := by
  obtain ⟨used, hincoming, htext⟩ := hdelivers.used
  have hcount : msgio.usedCount = link.ready := by rw [usedCount, hrest, hready]
  have hlength : link.ready = used.length := by
    rw [hready, hincoming, List.length_append, Nat.add_sub_cancel]
  refine ⟨hcount.le, ?_⟩
  unfold useLink Link.use
  rw [hcount, Nat.sub_self, hlength, hincoming, List.take_left, htext]

/-- The link goes on where the `read` has stopped. -/
theorem sound_useLink (hsocket : msgio.useStdio = false)
    (hsound : link.Sound Recv.bytes msgio.client.incoming written)
    (hready : msgio.usedCount ≤ link.ready) :
    (msgio.useLink link).Sound Recv.bytes msgio.read.2.client.incoming written := by
  have hused := hsound.use hready
  rw [drop_usedCount hsocket] at hused
  exact hused

/-- Where at most one line is written behind what was taken, a `read` returns its message
and leaves nothing, or it returns no message. -/
theorem read_of_link (hsocket : msgio.useStdio = false) (hempty : msgio.rbuffer = [])
    (hmessage : message ≠ []) (hsound : link.Sound Recv.bytes msgio.client.incoming written)
    (hready : msgio.usedCount ≤ link.ready) (htaken : link.taken = front)
    (hwritten : written <+: front ++ messageLine message) :
    (msgio.read.1.rv = 0 ∨ msgio.read.1.rv = -1) ∨
      ((msgio.useLink link).taken = front ++ messageLine message ∧ msgio.read.2.rbuffer = [] ∧
        ∃ memory, msgio.read.1 = ⟨1, some memory, 2 * message.length⟩ ∧
          memory.block = message) := by
  have hused : front ++ msgio.usedBytes <+: front ++ messageLine message := by
    rw [← htaken]
    exact (hsound.taken_use hready).trans (htaken ▸ hwritten)
  rcases read_of_prefix hsocket hempty hmessage ((List.prefix_append_right_inj front).mp hused) with
    hprotocol | hsystem | ⟨hline, hrbuffer, hread⟩
  · exact .inl (.inl hprotocol)
  · exact .inl (.inr hsystem)
  · refine .inr ⟨?_, hrbuffer, hread⟩
    rw [useLink_taken, htaken, hline]

/-- Once a line has arrived, the `read` that is due can be taken. -/
theorem usedCount_le_ready (hsocket : msgio.useStdio = false) (hempty : msgio.rbuffer = [])
    (htaken : link.taken = front)
    (harrived : link.delivered Recv.bytes msgio.client.incoming = front ++ messageLine message) :
    msgio.usedCount ≤ link.ready := by
  have hline : (msgio.client.incoming.take link.ready).flatMap Recv.bytes =
      messageLine message := by
    rw [Link.delivered, htaken] at harrived
    exact List.append_cancel_left harrived
  have hend : lineEnd (messageLine message) = some ((hexstring message).length, 1) :=
    lineEnd_lf (notMem_hexstring (by decide)) (notMem_hexstring (by decide))
  have hstops := @readLoop_stops msgio.client.allocs msgio.client.incoming [] link.ready rfl
    (by rw [List.nil_append, hline, hend]; exact Option.some_ne_none _)
  rw [usedCount, read_socket hsocket, hempty]
  exact Nat.sub_le_iff_le_add'.mpr hstops

/-- Where nothing is written behind what was taken, a `read` returns no message. -/
theorem read_of_exhausted (hsocket : msgio.useStdio = false) (hempty : msgio.rbuffer = [])
    (hsound : link.Sound Recv.bytes msgio.client.incoming written)
    (hready : msgio.usedCount ≤ link.ready) (htaken : link.taken = front)
    (hwritten : written <+: front) : msgio.read.1.rv = 0 ∨ msgio.read.1.rv = -1 := by
  have hmore : written <+: front ++ messageLine [0] := hwritten.trans (List.prefix_append _ _)
  rcases read_of_link hsocket hempty (List.cons_ne_nil 0 []) hsound hready htaken hmore with
    hnothing | ⟨hline, _, _⟩
  · exact hnothing
  · have hshort : (front ++ messageLine [0]).length ≤ front.length := by
      rw [← hline]
      exact ((hsound.taken_use hready).trans hwritten).length_le
    rw [List.length_append] at hshort
    have hpositive : 0 < (messageLine [0]).length := List.length_pos_of_ne_nil (by simp [messageLine])
    omega

end

end MsgIo

end RemoteAttestation
