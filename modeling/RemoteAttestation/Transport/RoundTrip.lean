import RemoteAttestation.Transport.ReadContract

/-! # One message, from one end to the other

A message is handed to `MsgIo` in parts and ended by `send`. However the kernel takes it
and however it arrives, the other end reads it back.
-/

namespace RemoteAttestation

/-- Parts that are only queued. -/
theorem foldl_sendPartial {msgio : MsgIo} (hsocket : msgio.useStdio = false)
    (parts : List Bytes) :
    parts.foldl MsgIo.sendPartial msgio =
      { msgio with wbuffer := msgio.wbuffer ++ hexstring parts.flatten } := by
  induction parts generalizing msgio with
  | nil => simp
  | cons part parts ih =>
      rw [List.foldl_cons, MsgIo.sendPartial_socket hsocket]
      refine (ih ?_).trans ?_
      · exact hsocket
      · rw [List.flatten_cons, hexstring_append, List.append_assoc]

/-- The digits are the lower-case ones. -/
theorem hexDigit_mem_hexTable (byte : UInt8) :
    hexDigit (byte >>> 4) ∈ hexTable ∧ hexDigit (byte &&& 0xf) ∈ hexTable := by
  revert byte
  exact forall_uint8 (by decide +kernel)

theorem mem_hexTable_of_mem_hexstring {src : Bytes} {c : UInt8} (hc : c ∈ hexstring src) :
    c ∈ hexTable := by
  simp only [hexstring, List.mem_flatMap, List.mem_cons, List.not_mem_nil, or_false] at hc
  obtain ⟨byte, _, rfl | rfl⟩ := hc
  · exact (hexDigit_mem_hexTable byte).1
  · exact (hexDigit_mem_hexTable byte).2

theorem hexPairs_hexstring (message : Bytes) : hexPairs (hexstring message) = message := by
  induction message with
  | nil => rfl
  | cons byte message ih =>
      obtain ⟨⟨hhigh, hlow⟩, hvalue⟩ := hexDigit_isDigit byte
      simp only [hexstring_cons, hexPairs, hexDigitValue, hhigh, hlow, Option.getD_some, hvalue, ih]

/-- A message of less than 2^30 bytes, sent in any parts through any kernel that reports no
error and received in any chunks, arrives as it was sent. -/
theorem message_roundTrip {sender : MsgIo} (hsender : sender.useStdio = false)
    (hempty : sender.wbuffer = []) (hkernel : Sent.error ∉ sender.client.outgoing)
    (parts : List Bytes) (last : Bytes) (hpayload : parts.flatten ++ last ≠ [])
    (hshort : (parts.flatten ++ last).length < 2 ^ 30) :
    let payload := parts.flatten ++ last
    let sent := (parts.foldl MsgIo.sendPartial sender).send last
    ∃ line, sent.wbuffer = [] ∧ sent.wire = sender.wire ++ line ++ [10] ∧
      (∀ c ∈ line, c ∈ hexTable) ∧ line.length = 2 * payload.length ∧ hexPairs line = payload ∧
      ∀ (receiver : MsgIo) (rest : List Recv), receiver.useStdio = false → receiver.rbuffer = [] →
        Delivers receiver.client.incoming (line ++ [10]) rest →
        (malloc receiver.client.allocs).1.isSome →
          ∃ memory, receiver.read.1 = ⟨1, some memory, 2 * payload.length⟩ ∧
            memory.block = payload ∧ receiver.read.2.rbuffer = [] := by
  intro payload sent
  have hqueued := foldl_sendPartial hsender parts
  rw [hempty, List.nil_append] at hqueued
  have hsocket : (parts.foldl MsgIo.sendPartial sender).useStdio = false := by
    rw [hqueued]
    exact hsender
  have hflushes : (parts.foldl MsgIo.sendPartial sender).Flushes last := by
    apply MsgIo.flushes_of_no_error
    · rw [hqueued]
      exact hkernel
    · rw [hqueued, length_hexstring]
      rw [List.length_append] at hshort
      omega
  refine ⟨hexstring payload, (MsgIo.send_wbuffer_eq_nil_iff hsocket last).mpr hflushes, ?_,
    fun c hc => mem_hexTable_of_mem_hexstring hc, length_hexstring payload,
    hexPairs_hexstring payload, ?_⟩
  · rw [MsgIo.send_wire_of_flushes hsocket hflushes, hqueued, hexstring_append]
    simp only [List.append_assoc]
  · intro receiver rest hreceiver hrbuffer hline hmalloc
    obtain ⟨heap, hheap⟩ := Option.isSome_iff_exists.mp hmalloc
    obtain ⟨memory, hread, hblock, hleft, _⟩ :=
      MsgIo.read_hexstring hreceiver hrbuffer hpayload hline hheap
    exact ⟨memory, hread, hblock, hleft⟩

/-- Two bytes in two parts, which the kernel takes bytewise and with an interruption. -/
theorem message_roundTrip_bytewise :
    let sender := MsgIo.connected ⟨[], [.bytes 1, .eintr, .bytes 2], []⟩
    let sent := ([[0xca]].foldl MsgIo.sendPartial sender).send [0xfe]
    ∃ line, sent.wbuffer = [] ∧ sent.wire = line ++ [10] ∧
      ∃ memory, (MsgIo.connected ⟨bytewise (line ++ [10]), [], []⟩).read.1 = ⟨1, some memory, 4⟩ ∧
        memory.block = [0xca, 0xfe] := by
  intro sender sent
  obtain ⟨line, hwbuffer, hwire, _, _, _, hreceives⟩ :=
    message_roundTrip (show sender.useStdio = false from rfl) rfl (by decide) [[0xca]] [0xfe]
      (by decide) (by decide)
  have hline : Delivers (bytewise (line ++ [10])) (line ++ [10]) [] := by
    have hne : line ++ [10] ≠ [] := by simp
    simpa using delivers_bytewise hne []
  obtain ⟨memory, hread, hblock, _⟩ :=
    hreceives (.connected ⟨bytewise (line ++ [10]), [], []⟩) [] rfl rfl hline rfl
  exact ⟨line, hwbuffer, hwire, memory, hread, hblock⟩

end RemoteAttestation
