import RemoteAttestation.Protocol.Receiving
import RemoteAttestation.Client.LayoutBounds
import RemoteAttestation.ServiceProvider.Message2
import RemoteAttestation.ServiceProvider.VerdictDelivery

/-! # The turns of the two parties

Between two calls of `read` a party computes and sends without waiting. For each such turn of
the client and of the server: what it was read, what it writes, and what it leaves in the log.
The bytes on the wire and those still in the buffer are taken together, since a `send` that the
kernel refuses leaves its bytes in the buffer.
-/

namespace RemoteAttestation

open Proc

/-- What was sent, whether or not the kernel has taken it. -/
def MsgIo.text (msgio : MsgIo) : Bytes := msgio.wire ++ msgio.wbuffer

theorem MsgIo.text_send {msgio : MsgIo} (hsocket : msgio.useStdio = false) (src : Bytes) :
    (msgio.send src).text = msgio.text ++ messageLine src := by
  unfold MsgIo.text messageLine
  rw [MsgIo.send_wire_append_wbuffer hsocket]
  simp only [List.append_assoc]

theorem MsgIo.text_sendPartial_send {msgio : MsgIo} (hsocket : msgio.useStdio = false)
    (front back : Bytes) :
    ((msgio.sendPartial front).send back).text = msgio.text ++ messageLine (front ++ back) := by
  have hstdio := (MsgIo.sendPartial_receiver msgio front).useStdio
  rw [MsgIo.text_send (hstdio.trans hsocket), MsgIo.sendPartial_socket hsocket]
  simp only [MsgIo.text, messageLine, hexstring_append, List.append_assoc]

/-- What is on the wire stays there. -/
theorem wire_prefix_sendLoop (outgoing : List Sent) (wbuffer wire : Bytes) :
    wire <+: (sendLoop outgoing wbuffer wire).wire := by
  induction outgoing generalizing wbuffer wire with
  | nil =>
      unfold sendLoop
      split
      · exact List.prefix_append _ _
      · exact List.prefix_rfl
  | cons result outgoing ih =>
      unfold sendLoop
      split
      · exact List.prefix_rfl
      · cases result with
        | eintr => exact ih wbuffer wire
        | error => exact List.prefix_rfl
        | bytes count =>
            dsimp only
            split
            · exact List.prefix_rfl
            · split
              · exact List.prefix_append _ _
              · exact (List.prefix_append _ _).trans (ih _ _)

theorem MsgIo.wire_prefix_send {msgio : MsgIo} (hsocket : msgio.useStdio = false) (src : Bytes) :
    msgio.wire <+: (msgio.send src).wire := by
  unfold MsgIo.send
  rw [if_neg (by simp [hsocket])]
  exact wire_prefix_sendLoop _ _ _

theorem MsgIo.text_read (msgio : MsgIo) : msgio.read.2.text = msgio.text := by
  obtain ⟨_, hwbuffer, hwire, _⟩ := msgio.read_quiet
  unfold MsgIo.text
  rw [hwbuffer, hwire]

theorem MsgIo.wire_prefix_text (msgio : MsgIo) : msgio.wire <+: msgio.text :=
  List.prefix_append _ _

/-! ## The client -/

namespace Platform

variable (platform : Platform)

/-- The messages 0 and 1 of a client whose first calls these are. -/
def msg01 : Bytes :=
  leBytes 4 (platform.sgxGetExtendedEpidGroupId 1).2 ++ (platform.sgxRaGetMsg1 2).2.bytes

/-- The message 3 for this message 2. -/
def msg3 (msg2 : Bytes) : Bytes := (platform.sgxRaProcMsg2 4 msg2).2

theorem msg01_ne_nil : platform.msg01 ≠ [] := by
  refine List.ne_nil_of_length_pos ?_
  rw [msg01, List.length_append, length_leBytes]
  omega

/-- `sgx_ra_proc_msg2` makes no empty message 3. -/
def Speaks : Prop := ∀ t msg2, (platform.sgxRaProcMsg2 t msg2).2 ≠ []

end Platform

/-- A platform that makes the plain messages. -/
def Platform.plain : Platform :=
  { Platform.working with sgxRaProcMsg2 := fun _ _ => (sgxSuccess, plainMsg3 692) }

theorem Platform.plain_speaks : Platform.plain.Speaks := by
  exact fun _ _ => plainMsg3_ne_nil 692

theorem Platform.plain_msg01 : Platform.plain.msg01 = plainMsg01 := by decide

namespace Client

variable {platform : Platform} {client next : Client}

theorem record_record (client : Client) (left right : List ClientEvent) :
    (client.record left).record right = client.record (left ++ right) := by
  unfold record
  rw [List.append_assoc]

/-- The turn up to the messages 0 and 1 sends both of them, or nothing. -/
theorem requestMsg2_start (platform : Platform) (msgio : MsgIo) :
    requestMsg2 platform (start msgio) =
        (some true, ⟨(msgio.sendPartial (leBytes 4 (platform.sgxGetExtendedEpidGroupId 1).2)).send
          (platform.sgxRaGetMsg1 2).2.bytes, 3, []⟩) ∨
      ∃ clock, requestMsg2 platform (start msgio) = (some false, ⟨msgio, clock, []⟩) := by
  unfold requestMsg2
  rw [ask_bind]
  dsimp only
  split
  · exact .inr ⟨_, rfl⟩
  · split
    · exact .inr ⟨_, rfl⟩
    · rw [ask_bind]
      dsimp only
      split
      · exact .inr ⟨_, rfl⟩
      · rw [ask_bind]
        dsimp only
        split
        · exact .inr ⟨_, rfl⟩
        · exact .inl rfl

/-- A client that has sent the messages 0 and 1. -/
structure Requested (platform : Platform) (client : Client) : Prop where
  log : client.log = []
  clock : client.clock = 3
  socket : client.msgio.useStdio = false
  rbuffer : client.msgio.rbuffer = []
  text : client.msgio.text = messageLine platform.msg01

theorem requested_of_start {connection : Connection}
    (hrequest : requestMsg2 platform (start (.connected connection)) = (some true, client)) :
    Requested platform client := by
  rcases requestMsg2_start platform (.connected connection) with hsent | ⟨clock, hrefused⟩
  · rw [hsent] at hrequest
    cases hrequest
    have hreceiver := (MsgIo.sendPartial_receiver (.connected connection)
      (leBytes 4 (platform.sgxGetExtendedEpidGroupId 1).2)).trans
        (MsgIo.send_receiver _ (platform.sgxRaGetMsg1 2).2.bytes)
    refine ⟨rfl, rfl, hreceiver.useStdio, hreceiver.rbuffer, ?_⟩
    rw [MsgIo.text_sendPartial_send rfl]
    rfl
  · rw [hrefused] at hrequest
    cases hrequest

/-- The client that has sent the plain messages 0 and 1. -/
def requestedPlain (connection : Connection) : Client :=
  ⟨((MsgIo.connected connection).sendPartial (leBytes 4 0)).send
    (⟨basePoint, .zero 4⟩ : Msg1).bytes, 3, []⟩

theorem request_plain (connection : Connection) :
    requestMsg2 .plain (.start (.connected connection)) = (some true, requestedPlain connection) :=
  rfl

theorem requestedPlain_wbuffer {connection : Connection} (houtgoing : connection.outgoing = []) :
    (requestedPlain connection).msgio.wbuffer = [] := by
  have hpartial := MsgIo.sendPartial_receiver (.connected connection) (leBytes 4 0)
  refine (MsgIo.send_wbuffer_eq_nil_iff hpartial.useStdio _).mpr (MsgIo.flushes_of_no_error ?_ ?_)
  · rw [MsgIo.sendPartial_socket rfl]
    simp [MsgIo.connected, houtgoing]
  · rw [MsgIo.sendPartial_socket rfl]
    change (hexstring (leBytes 4 0)).length + 2 * (⟨basePoint, .zero 4⟩ : Msg1).bytes.length + 1 <
      2 ^ 31
    decide

/-- The turn from message 2 to message 3. -/
inductive Turn2 (platform : Platform) (verbose : Bool) (client : Client) :
    Option Bool × Client → Prop
  /-- Nothing was read. -/
  | unread (hrv : client.readRv = 0 ∨ client.readRv = -1) :
      Turn2 platform verbose client (some false, client.afterRead)
  /-- The platform refuses message 2. -/
  | refused (hread : ¬ (client.readRv = 0 ∨ client.readRv = -1))
      (hstatus : (platform.sgxRaProcMsg2 (client.clock + 1)
        ((client.readDest platform).slice 0 (msg2Size (client.readDest platform)))).1 ≠ sgxSuccess) :
      Turn2 platform verbose client (some false,
        { client.afterRead.record (msg2Log verbose (client.readDest platform)) with
          clock := client.clock + 2 })
  | answered (hread : ¬ (client.readRv = 0 ∨ client.readRv = -1)) :
      Turn2 platform verbose client (some true,
        { client.afterRead.record (msg2Log verbose (client.readDest platform)) with
          clock := client.clock + 2
          msgio := client.msgio.read.2.send (platform.sgxRaProcMsg2 (client.clock + 1)
            ((client.readDest platform).slice 0 (msg2Size (client.readDest platform)))).2 })

theorem receiveMsg2_turn (platform : Platform) (verbose : Bool) (client : Client) :
    Turn2 platform verbose client (receiveMsg2 platform verbose client) := by
  unfold receiveMsg2
  rw [read_bind]
  dsimp only
  by_cases hprotocol : client.readRv = 0
  · rw [if_pos hprotocol]
    exact .unread (.inl hprotocol)
  · by_cases hsystem : client.readRv = -1
    · rw [if_neg hprotocol, if_pos hsystem]
      exact .unread (.inr hsystem)
    · have hread : ¬ (client.readRv = 0 ∨ client.readRv = -1) := not_or.mpr ⟨hprotocol, hsystem⟩
      have hrefused := @Turn2.refused platform verbose client hread
      have hanswered := @Turn2.answered platform verbose client hread
      rw [if_neg hprotocol, if_neg hsystem, note_bind]
      unfold msg2Log at hrefused hanswered
      cases verbose with
      | true =>
          simp only [if_true, printMsg2, note_bind, load_bind, ask_bind, record_record,
            List.append_assoc, List.cons_append, List.nil_append] at hrefused hanswered ⊢
          split
          next hstatus => exact hrefused hstatus
          next => exact hanswered
      | false =>
          simp only [Bool.false_eq_true, if_false, note_bind, load_bind, ask_bind, record_record,
            List.cons_append, List.nil_append] at hrefused hanswered ⊢
          split
          next hstatus => exact hrefused hstatus
          next => exact hanswered

/-! ### The log of a turn -/

section

variable {verbose : Bool} {msg2 msg4 message : Memory} {size : Nat}

theorem receivedMsg2_mem_msg2Log :
    .receivedMsg2 message ∈ msg2Log verbose msg2 ↔ message = msg2 := by
  unfold msg2Log
  cases verbose with
  | true => simp
  | false => simp

theorem procMsg2_mem_msg2Log :
    .procMsg2 message size ∈ msg2Log verbose msg2 ↔ message = msg2 ∧ size = msg2Size msg2 := by
  unfold msg2Log msg2Size
  cases verbose with
  | true => simp
  | false => simp

theorem receivedMsg4_notMem_msg2Log : .receivedMsg4 message ∉ msg2Log verbose msg2 := by
  unfold msg2Log
  cases verbose with
  | true => simp
  | false => simp

theorem receivedMsg4_mem_msg4Log : .receivedMsg4 message ∈ msg4Log msg4 ↔ message = msg4 := by
  unfold msg4Log
  split <;> split <;> simp

theorem msg2_notMem_msg4Log :
    .receivedMsg2 message ∉ msg4Log msg4 ∧ .procMsg2 message size ∉ msg4Log msg4 := by
  unfold msg4Log
  split <;> split <;> simp

end

/-! ### The turns as `do_attestation` takes them -/

section

variable {verbose : Bool} {middle : Client}

theorem doAttestation_of_unrequested
    (hrequest : requestMsg2 platform client = (some false, next)) :
    (doAttestation platform verbose client).2 = next := by
  unfold doAttestation
  rw [bind_of_some hrequest]
  rfl

theorem doAttestation_of_unanswered (hrequest : requestMsg2 platform client = (some true, middle))
    (hanswer : receiveMsg2 platform verbose middle = (some false, next)) :
    (doAttestation platform verbose client).2 = next := by
  unfold doAttestation
  rw [bind_of_some hrequest, if_pos rfl, bind_of_some hanswer]
  rfl

theorem doAttestation_of_answered (hrequest : requestMsg2 platform client = (some true, middle))
    (hanswer : receiveMsg2 platform verbose middle = (some true, next)) :
    (doAttestation platform verbose client).2 = (receiveMsg4 platform next).2 := by
  unfold doAttestation
  rw [bind_of_some hrequest, if_pos rfl, bind_of_some hanswer, if_pos rfl]

end

/-- The last turn sends nothing. -/
theorem receiveMsg4_msgio (platform : Platform) (client : Client) :
    (receiveMsg4 platform client).2.msgio = client.msgio.read.2 := by
  unfold receiveMsg4
  rw [read_bind]
  dsimp only
  split
  · rfl
  · split
    · rfl
    · rw [note_bind, load_bind, load_bind]
      split
      · rw [load_bind]
        split
        · rfl
        · rfl
      · split
        · rfl
        · rfl

end Client

/-! ## The server -/

section

variable {sys : Sys} {config : Config sys} {w next : World sys} {prepared : Prepared}

/-- Message 2 with the revocation list. -/
def Prepared.text (prepared : Prepared) : Bytes := prepared.msg2.bytes ++ prepared.sigrl

theorem Prepared.text_ne_nil (prepared : Prepared) : prepared.text ≠ [] := by
  refine List.ne_nil_of_length_pos ?_
  rw [Prepared.text, List.length_append, Msg2.length_bytes, sizeofMsg2]
  omega

/-- The size that message 2 states is that of its list. -/
structure Prepared.Sized (prepared : Prepared) : Prop where
  sigRlSize : prepared.msg2.sigRlSize = prepared.sigrl.length
  length_lt : prepared.sigrl.length < 2 ^ 31

/-- The client computes the size of the message it was sent. -/
theorem Prepared.Sized.msg2Size (hsized : prepared.Sized) {msg2 : Memory}
    (hblock : msg2.block = prepared.text) : Client.msg2Size msg2 = msg2.block.length := by
  have hlength := prepared.msg2.length_bytes
  have hfront : (prepared.msg2.authenticated ++ prepared.msg2.mac.bytes).length = 164 := by
    have hbytes := hlength
    rw [Msg2.bytes, List.length_append, length_leBytes, sizeofMsg2] at hbytes
    omega
  have hslice : msg2.slice 164 4 = leBytes 4 prepared.sigrl.length := by
    rw [Memory.slice_eq_take_drop, hblock, Prepared.text, Msg2.bytes, List.append_assoc,
      List.drop_left' hfront, List.take_left' (length_leBytes _ _), hsized.sigRlSize]
    rw [hblock, Prepared.text, List.length_append, hlength, sizeofMsg2]
    omega
  unfold Client.msg2Size Client.sigRlSize
  have hlist := hsized.length_lt
  rw [hslice, leNat_leBytes _ _ (by omega), hblock, Prepared.text, List.length_append, hlength]
  unfold sizeofMsg2
  exact Nat.mod_eq_of_lt (by omega)

/-- `process_msg01` reads one message and sends nothing. -/
theorem processMsg01_text (config : Config sys) (w : World sys) :
    (processMsg01 config w).2.msgio.text = w.msgio.text ∧
      (processMsg01 config w).2.msgio.wire = w.msgio.wire := by
  have hquiet := frame_quiet.processMsg01 config w
  refine ⟨?_, hquiet.wire⟩
  rw [MsgIo.text, MsgIo.text, hquiet.wire, hquiet.wbuffer]

/-- The turn from the messages 0 and 1 to message 2. -/
structure Turn01 (w : World sys) (prepared : Prepared) (next : World sys) : Prop where
  received : ¬ (w.readRv = 0 ∨ w.readRv = -1)
  msg1 : prepared.msg1 = w.readDest.msg1
  sized : prepared.Sized
  read : w.msgio.read.2.SameReceiver (sendMsg2 prepared next).2.msgio
  text : (sendMsg2 prepared next).2.msgio.text = w.msgio.text ++ messageLine prepared.text

theorem processMsg01_turn (hsocket : w.msgio.useStdio = false)
    (hreturn : processMsg01 config w = (some (some prepared), next)) :
    Turn01 w prepared next := by
  have htext := processMsg01_text config w
  rw [hreturn] at htext
  obtain ⟨answers, haccepted, rfl, rfl⟩ := processMsg01_eq_some_iff.mp hreturn
  have hread : (answers.final config w).msgio = w.msgio.read.2 := haccepted.trace.1
  have hstdio : (answers.final config w).msgio.useStdio = false := by
    rw [hread, w.msgio.read_quiet.1, hsocket]
  have hsend : (sendMsg2 (answers.prepared config w) (answers.final config w)).2.msgio =
      (((answers.final config w).msgio.sendPartial (answers.prepared config w).msg2.bytes).send
        ((answers.prepared config w).sigrl.take (answers.prepared config w).msg2.sigRlSize)) := rfl
  refine ⟨?_, rfl, ⟨rfl, answers.sigrl.length_lt⟩, ?_, ?_⟩
  · exact not_or.mpr ⟨haccepted.read_ok.2, haccepted.read_ok.1⟩
  · rw [hsend, ← hread]
    exact (MsgIo.sendPartial_receiver _ _).trans (MsgIo.send_receiver _ _)
  · have hall : (answers.prepared config w).sigrl.take
        (answers.prepared config w).msg2.sigRlSize = (answers.prepared config w).sigrl :=
      List.take_length
    rw [hsend, MsgIo.text_sendPartial_send hstdio, hall, htext.1, Prepared.text]

/-- What `process_msg3` writes: the line of a trusted verdict, or nothing. -/
def verdictLine : Option (Msg4 × Session) → Bytes
  | some (msg4, _) => if msg4.status.isTrusted then messageLine msg4.bytes else []
  | none => []

/-- `process_msg3` returns a verdict only for a message it has read. -/
theorem processMsg3_received {msg1 : Msg1} {session : Session} {verdict : Msg4 × Session}
    (hreturn : processMsg3 config msg1 session w = (some (some verdict), next)) :
    ¬ (w.readRv = 0 ∨ w.readRv = -1) := by
  obtain ⟨b64quote, response, report, haccepted⟩ := msg3Accepted_of_returns hreturn
  exact not_or.mpr ⟨haccepted.read_ok.2, haccepted.read_ok.1⟩

/-- The end of `process_msg3` puts message 4 of a trusted enclave behind what is there. -/
theorem sendMsg4_turn {verified session : Session} {judged msg4 : Msg4}
    (hsocket : w.msgio.useStdio = false) (htrusted : judged.status.isTrusted = true)
    (hreturn : sendMsg4 verified judged w = (some (msg4, session), next)) :
    w.msgio.wire <+: next.msgio.wire ∧ next.msgio.rbuffer = w.msgio.rbuffer ∧
      next.msgio.text = w.msgio.text ++ messageLine msg4.bytes := by
  have hverdict := World.afterVerdict_msgio hsocket judged
  obtain ⟨sending, hmsgio, _, hsend⟩ := sendMsg4_of_trusted verified w htrusted
  rw [hsend] at hreturn
  cases hreturn
  have hstdio : sending.msgio.useStdio = false := by
    rw [hmsgio, hverdict]
    exact hsocket
  have hbefore : sending.msgio.wire = w.msgio.wire := by
    rw [hmsgio, hverdict]
  rw [World.afterSend_msgio]
  refine ⟨hbefore ▸ MsgIo.wire_prefix_send hstdio _, ?_, ?_⟩
  · rw [(MsgIo.send_receiver _ _).rbuffer, hmsgio, hverdict]
  · -- The parts that were queued before and the ciphertext are one line.
    rw [MsgIo.text_send hstdio, hmsgio, hverdict]
    simp only [MsgIo.text, messageLine, Msg4.bytes, hexstring_append, List.append_assoc]

/-- `process_msg3` adds to the wire, and at most the line of the verdict behind what was
sent before. -/
theorem processMsg3_wire {msg1 : Msg1} {session : Session} (hsocket : w.msgio.useStdio = false)
    {returned : Option (Option (Msg4 × Session))}
    (hreturn : processMsg3 config msg1 session w = (returned, next)) :
    w.msgio.wire <+: next.msgio.wire ∧
      next.msgio.wire <+: w.msgio.text ++ verdictLine (returned.getD none) := by
  cases hcheck : checkMsg3 config msg1 session w with
  | mk checked after =>
      -- The checks write nothing.
      have hquiet := frame_quiet.checkMsg3 config msg1 session w
      rw [hcheck] at hquiet
      have hwire : after.msgio.wire = w.msgio.wire := hquiet.wire
      have hwbuffer : after.msgio.wbuffer = w.msgio.wbuffer := hquiet.wbuffer
      by_cases haccepted : ∃ verified msg4, checked = some (some (verified, msg4))
      · obtain ⟨verified, msg4, rfl⟩ := haccepted
        have hverdict := World.afterVerdict_msgio (hquiet.useStdio.trans hsocket) msg4
        rw [processMsg3_of_accepted hcheck] at hreturn
        cases htrusted : msg4.status.isTrusted with
        | true =>
            obtain ⟨_, _, _, hsend⟩ := sendMsg4_of_trusted verified after htrusted
            obtain ⟨hstart, _, htext⟩ :=
              sendMsg4_turn (hquiet.useStdio.trans hsocket) htrusted hsend
            have hsame : after.msgio.text = w.msgio.text := by
              rw [MsgIo.text, MsgIo.text, hwire, hwbuffer]
            rw [hsend] at hreturn
            cases hreturn
            refine ⟨hwire ▸ hstart, (MsgIo.wire_prefix_text _).trans ?_⟩
            rw [htext, hsame]
            simp only [Option.map_some, Option.getD_some, verdictLine, htrusted, if_true]
            exact List.prefix_rfl
        | false =>
            rw [sendMsg4_of_untrusted after htrusted] at hreturn
            cases hreturn
            rw [hverdict]
            dsimp only
            rw [hwire]
            exact ⟨List.prefix_rfl, (MsgIo.wire_prefix_text _).trans (List.prefix_append _ _)⟩
      · have hrejected := processMsg3_of_rejected hcheck fun checked' heq =>
          haccepted ⟨checked'.1, checked'.2, heq⟩
        rw [hreturn] at hrejected
        dsimp only at hrejected
        rw [hrejected, hwire]
        exact ⟨List.prefix_rfl, (MsgIo.wire_prefix_text _).trans (List.prefix_append _ _)⟩

end

end RemoteAttestation
