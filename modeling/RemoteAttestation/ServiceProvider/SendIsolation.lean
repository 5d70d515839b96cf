import RemoteAttestation.ServiceProvider.Message3

/-! # What one client receives of the others

The buffer behind `send` belongs to the server and not to the session. A session
that ends with bytes in it hands them to the next client, in front of its own
message 2. A session leaves nothing behind exactly if a verdict made in it is sent, and
the kernel takes what is sent.
-/

namespace RemoteAttestation

open Proc

variable {sys : Sys}

/-- The calls of `send` and `send_partial` made again on another object. -/
def resend (msgio : MsgIo) : Event sys → MsgIo
  | .sendPartial _ src => msgio.sendPartial src
  | .send _ src => msgio.send src
  | _ => msgio

/-- What a server with an empty buffer would have written to the client for these events. -/
def streamOf (client : Connection) (events : List (Event sys)) : Bytes :=
  (events.foldl resend { MsgIo.listen [] with client }).wire

/-- How many of `length` queued bytes the kernel leaves, and the results of `::send` that are left
for the next ones. -/
def unsent : List Sent → Nat → Nat × List Sent
  | [], length => (if toInt32 length = length then 0 else length, [])
  | result :: outgoing, length =>
      if length = 0 then (0, result :: outgoing)
      else match result with
        | .eintr => unsent outgoing length
        | .error => (length, outgoing)
        | .bytes count =>
            if toInt32 length < 0 then (length, outgoing)
            else unsent outgoing (length - min count (toInt32 length).toNat)

/-- The number of characters in the line of message 2. -/
def Prepared.lineLength (prepared : Prepared) : Nat :=
  2 * sizeofMsg2 + 2 * (prepared.sigrl.take prepared.msg2.sigRlSize).length + 1

/-- Message 3 is accepted, and this is the verdict on its enclave. -/
def Msg3Judged (config : Config sys) (prepared : Prepared) (w : World sys)
    (status : AttestationStatus) : Prop :=
  ∃ b64quote response msg4,
    Msg3Accepted config prepared.msg1 prepared.session w b64quote response msg4 ∧
      (config.judgeEnclave w.readDest.quoteReportBody msg4).status = status

/-- A session leaves nothing queued for the next client: if there is no verdict, the kernel takes
message 2 whole; if there is one, it is to trust the enclave, and the kernel takes message 4, of
121 bytes, with what it left of message 2. -/
structure LeavesNothing (config : Config sys) (start : World sys) : Prop where
  unjudged : ∀ prepared w, CallsMsg3 config start prepared w →
    (∀ status, ¬ Msg3Judged config prepared w status) →
      (unsent start.msgio.client.outgoing prepared.lineLength).1 = 0
  judged : ∀ prepared w status, CallsMsg3 config start prepared w →
    Msg3Judged config prepared w status →
      let left := unsent start.msgio.client.outgoing prepared.lineLength
      status.isTrusted ∧ (unsent left.2 (left.1 + 243)).1 = 0

/-- The two objects write alike. -/
structure SameSender (left right : MsgIo) : Prop where
  left_socket : left.useStdio = false
  right_socket : right.useStdio = false
  wbuffer : left.wbuffer = right.wbuffer
  wire : left.wire = right.wire
  outgoing : left.client.outgoing = right.client.outgoing

namespace SameSender

variable {left right : MsgIo}

theorem sendPartial (hsame : SameSender left right) (src : Bytes) :
    SameSender (left.sendPartial src) (right.sendPartial src) := by
  rw [MsgIo.sendPartial_socket hsame.left_socket, MsgIo.sendPartial_socket hsame.right_socket]
  exact
    { left_socket := hsame.left_socket
      right_socket := hsame.right_socket
      wbuffer := by rw [hsame.wbuffer]
      wire := hsame.wire
      outgoing := hsame.outgoing }

theorem send (hsame : SameSender left right) (src : Bytes) :
    SameSender (left.send src) (right.send src) := by
  unfold MsgIo.send
  rw [if_neg (by simp [hsame.left_socket]), if_neg (by simp [hsame.right_socket])]
  dsimp only
  rw [hsame.wbuffer, hsame.wire, hsame.outgoing]
  exact ⟨hsame.left_socket, hsame.right_socket, rfl, rfl, rfl⟩

theorem read_right (hsame : SameSender left right) : SameSender left right.read.2 := by
  obtain ⟨hstdio, hwbuffer, hwire, houtgoing⟩ := right.read_quiet
  exact
    { left_socket := hsame.left_socket
      right_socket := hstdio.trans hsame.right_socket
      wbuffer := hsame.wbuffer.trans hwbuffer.symm
      wire := hsame.wire.trans hwire.symm
      outgoing := hsame.outgoing.trans houtgoing.symm }

/-- One step of the transport, made again. -/
theorem step {next : MsgIo} {event : Event sys} (hmoves : right.Moves event next)
    (hsame : SameSender left right) : SameSender (resend left event) next := by
  cases event with
  | read before =>
      obtain ⟨_, rfl⟩ := hmoves
      exact hsame.read_right
  | sendPartial before src =>
      obtain ⟨_, rfl⟩ := hmoves
      exact hsame.sendPartial src
  | send before src =>
      obtain ⟨_, rfl⟩ := hmoves
      exact hsame.send src
  | _ =>
      cases hmoves
      exact hsame

end SameSender

/-- What a program does with the transport leaves it on its socket. -/
theorem socket_of_advances {α : Type} {x : Proc (World sys) α} (hx : Keeps Advances x)
    {w : World sys} (hsocket : w.msgio.useStdio = false) : (x w).2.msgio.useStdio = false := by
  have hchain := chain_emitted hx w
  have hfirst : SameSender w.msgio w.msgio := ⟨hsocket, hsocket, rfl, rfl, rfl⟩
  exact (hchain.carries SameSender.step hfirst).right_socket

/-! ## What a session leaves queued -/

/-- The loop of `send` leaves as many bytes, and uses as many results. -/
theorem sendLoop_unsent (outgoing : List Sent) (wbuffer wire : Bytes) :
    ((sendLoop outgoing wbuffer wire).wbuffer.length, (sendLoop outgoing wbuffer wire).outgoing) =
      unsent outgoing wbuffer.length := by
  induction outgoing generalizing wbuffer wire with
  | nil =>
      unfold sendLoop unsent
      split
      · rfl
      · rfl
  | cons result outgoing ih =>
      unfold sendLoop unsent
      by_cases hempty : wbuffer = []
      · subst hempty
        rfl
      · rw [if_neg hempty, if_neg (fun h => hempty (List.length_eq_zero_iff.mp h))]
        cases result with
        | eintr => exact ih wbuffer wire
        | error => rfl
        | bytes count =>
            dsimp only
            split
            · rfl
            · split
              next hall =>
                -- Nothing is left, and no further result is used.
                rw [hall, Nat.sub_self]
                cases outgoing with
                | nil => rfl
                | cons next outgoing => rfl
              next hpart =>
                rw [ih, List.length_drop]

theorem MsgIo.send_unsent {msgio : MsgIo} (hsocket : msgio.useStdio = false) (src : Bytes) :
    ((msgio.send src).wbuffer.length, (msgio.send src).client.outgoing) =
      unsent msgio.client.outgoing (msgio.wbuffer.length + 2 * src.length + 1) := by
  have hlength : (msgio.wbuffer ++ hexstring src ++ [10]).length =
      msgio.wbuffer.length + 2 * src.length + 1 := by
    simp [Nat.add_assoc]
  unfold MsgIo.send
  rw [if_neg (by simp [hsocket])]
  dsimp only
  rw [sendLoop_unsent, hlength]

section

variable {config : Config sys} {start w : World sys} {prepared : Prepared}

/-- Before message 3 is read the buffer holds what the kernel left of message 2. -/
theorem CallsMsg3.unsent (hcalls : CallsMsg3 config start prepared w)
    (hsocket : start.msgio.useStdio = false) (hempty : start.msgio.wbuffer = []) :
    w.msgio.useStdio = false ∧ (w.msgio.wbuffer.length, w.msgio.client.outgoing) =
      RemoteAttestation.unsent start.msgio.client.outgoing prepared.lineLength := by
  obtain ⟨next, hprocess, hsend⟩ := hcalls
  have hquiet := frame_quiet.processMsg01 config start
  rw [hprocess] at hquiet
  have hnext : next.msgio.useStdio = false := hquiet.useStdio.trans hsocket
  have hqueued := MsgIo.sendPartial_socket hnext prepared.msg2.bytes
  have hpartial : (next.msgio.sendPartial prepared.msg2.bytes).useStdio = false := by
    rw [hqueued]
    exact hnext
  cases hsend
  refine ⟨(MsgIo.send_receiver _ _).useStdio.trans hpartial, ?_⟩
  refine (MsgIo.send_unsent hpartial _).trans ?_
  rw [hqueued]
  dsimp only
  rw [hquiet.wbuffer, hquiet.outgoing, hempty, List.nil_append, length_hexstring,
    Msg2.length_bytes]
  rfl

/-- A verdict that is not sent stays in the buffer. -/
theorem wbuffer_sendMsg4_of_untrusted {session : Session} {msg4 : Msg4}
    (hsocket : w.msgio.useStdio = false) (hstatus : msg4.status.isTrusted = false) :
    (sendMsg4 session msg4 w).2.msgio.wbuffer ≠ [] := by
  rw [sendMsg4_of_untrusted w hstatus, World.afterVerdict_msgio hsocket]
  intro hempty
  have hlength := congrArg List.length hempty
  simp only [List.length_append, length_hexstring, length_leBytes, List.length_nil] at hlength
  omega

/-- A verdict to trust leaves what the kernel leaves of its line and of what was queued before. -/
theorem wbuffer_sendMsg4_of_trusted {session : Session} {msg4 : Msg4}
    (hsocket : w.msgio.useStdio = false) (hstatus : msg4.status.isTrusted = true) :
    (sendMsg4 session msg4 w).2.msgio.wbuffer.length =
      (unsent w.msgio.client.outgoing (w.msgio.wbuffer.length + 243)).1 := by
  obtain ⟨next, hmsgio, _, hsend⟩ := sendMsg4_of_trusted session w hstatus
  have hverdict := World.afterVerdict_msgio hsocket msg4
  have hstdio : (w.afterVerdict msg4).msgio.useStdio = false := by
    rw [hverdict]
    exact hsocket
  rw [hsend, World.afterSend_msgio, hmsgio]
  refine (congrArg Prod.fst (MsgIo.send_unsent hstdio _)).trans ?_
  rw [hverdict]
  simp only [List.length_append, length_hexstring, length_leBytes, Block.length_bytes,
    sizeofPlatformInfo, Nat.add_assoc, Nat.reduceMul, Nat.reduceAdd]

/-- A session without a verdict ends with what the kernel left of message 2. -/
theorem wbuffer_processMsg3_of_unjudged
    (hnone : ∀ status, ¬ Msg3Judged config prepared w status) :
    (processMsg3 config prepared.msg1 prepared.session w).2.msgio.wbuffer = w.msgio.wbuffer := by
  have hquiet := frame_quiet.checkMsg3 config prepared.msg1 prepared.session w
  cases hcheck : checkMsg3 config prepared.msg1 prepared.session w with
  | mk returned next =>
      rw [hcheck] at hquiet
      rw [processMsg3_of_rejected hcheck]
      · exact hquiet.wbuffer
      · rintro checked rfl
        obtain ⟨b64quote, response, msg4, haccepted, _⟩ := checkMsg3_eq_some_iff.mp hcheck
        exact hnone _ ⟨b64quote, response, msg4, haccepted, rfl⟩

/-- A session with a verdict leaves nothing exactly if the verdict is sent and taken. -/
theorem wbuffer_processMsg3_of_judged {status : AttestationStatus}
    (hsocket : w.msgio.useStdio = false) (hjudged : Msg3Judged config prepared w status) :
    (processMsg3 config prepared.msg1 prepared.session w).2.msgio.wbuffer = [] ↔
      status.isTrusted ∧
        (unsent w.msgio.client.outgoing (w.msgio.wbuffer.length + 243)).1 = 0 := by
  obtain ⟨b64quote, response, msg4, haccepted, rfl⟩ := hjudged
  have hcheck := checkMsg3_eq_some_iff.mpr ⟨b64quote, response, msg4, haccepted, rfl, rfl⟩
  have hquiet := frame_quiet.checkMsg3 config prepared.msg1 prepared.session w
  rw [hcheck] at hquiet
  have hstdio := hquiet.useStdio.trans hsocket
  rw [processMsg3_of_accepted hcheck]
  cases htrusted : (config.judgeEnclave w.readDest.quoteReportBody msg4).status.isTrusted with
  | false => exact iff_of_false (wbuffer_sendMsg4_of_untrusted hstdio htrusted) (by simp)
  | true =>
      rw [← List.length_eq_zero_iff, wbuffer_sendMsg4_of_trusted hstdio htrusted, hquiet.wbuffer,
        hquiet.outgoing]
      simp only [true_and]

theorem Msg3Judged.unique {left right : AttestationStatus}
    (hleft : Msg3Judged config prepared w left) (hright : Msg3Judged config prepared w right) :
    left = right := by
  obtain ⟨b64quote, response, msg4, haccepted, rfl⟩ := hleft
  obtain ⟨b64quote', response', msg4', haccepted', rfl⟩ := hright
  have hcheck := checkMsg3_eq_some_iff.mpr ⟨b64quote, response, msg4, haccepted, rfl, rfl⟩
  have hsame := hcheck.symm.trans
    (checkMsg3_eq_some_iff.mpr ⟨b64quote', response', msg4', haccepted', rfl, rfl⟩)
  simp only [Prod.mk.injEq, Option.some.injEq] at hsame
  exact congrArg Msg4.status hsame.1.2

/-- With a verdict the condition is the one on it. -/
theorem leavesNothing_iff_of_judged {status : AttestationStatus}
    (hcalls : CallsMsg3 config start prepared w) (hjudged : Msg3Judged config prepared w status) :
    let left := unsent start.msgio.client.outgoing prepared.lineLength
    LeavesNothing config start ↔ status.isTrusted ∧ (unsent left.2 (left.1 + 243)).1 = 0 := by
  refine ⟨fun hleaves => hleaves.judged prepared w status hcalls hjudged, fun htaken => ?_⟩
  constructor
  · intro prepared' w' hcalls' hnone
    obtain ⟨rfl, rfl⟩ := hcalls.unique hcalls'
    exact absurd hjudged (hnone status)
  · intro prepared' w' status' hcalls' hjudged'
    obtain ⟨rfl, rfl⟩ := hcalls.unique hcalls'
    rw [← hjudged.unique hjudged']
    exact htaken

/-- Without a verdict the condition is the one on message 2. -/
theorem leavesNothing_iff_of_unjudged (hcalls : CallsMsg3 config start prepared w)
    (hnone : ∀ status, ¬ Msg3Judged config prepared w status) :
    LeavesNothing config start ↔
      (unsent start.msgio.client.outgoing prepared.lineLength).1 = 0 := by
  refine ⟨fun hleaves => hleaves.unjudged prepared w hcalls hnone, fun htaken => ?_⟩
  constructor
  · intro prepared' w' hcalls' _
    obtain ⟨rfl, rfl⟩ := hcalls.unique hcalls'
    exact htaken
  · intro prepared' w' status' hcalls' hjudged'
    obtain ⟨rfl, rfl⟩ := hcalls.unique hcalls'
    exact absurd hjudged' (hnone status')

/-- The buffer is empty after a session exactly if verdict and kernel leave nothing in it. -/
theorem wbuffer_serveClient_iff (config : Config sys) (hsocket : start.msgio.useStdio = false)
    (hempty : start.msgio.wbuffer = []) :
    (serveClient config start).2.msgio.wbuffer = [] ↔ LeavesNothing config start := by
  by_cases hreturn : ∃ prepared w, CallsMsg3 config start prepared w
  · obtain ⟨prepared, w, hcalls⟩ := hreturn
    obtain ⟨hstdio, hleft⟩ := hcalls.unsent hsocket hempty
    rw [serveClient_of_callsMsg3 hcalls]
    by_cases hjudged : ∃ status, Msg3Judged config prepared w status
    · obtain ⟨status, hjudged⟩ := hjudged
      have hiff := leavesNothing_iff_of_judged hcalls hjudged
      rw [← hleft] at hiff
      exact (wbuffer_processMsg3_of_judged hstdio hjudged).trans hiff.symm
    · have hnone : ∀ status, ¬ Msg3Judged config prepared w status :=
        fun status h => hjudged ⟨status, h⟩
      rw [wbuffer_processMsg3_of_unjudged hnone, leavesNothing_iff_of_unjudged hcalls hnone,
        ← hleft, List.length_eq_zero_iff]
  · have hrejects : ∀ prepared next, processMsg01 config start ≠ (some (some prepared), next) :=
      fun prepared next hprocess => hreturn ⟨prepared, _, next, hprocess, rfl⟩
    rw [serveClient_of_rejected hrejects, (frame_quiet.processMsg01 config start).wbuffer]
    refine iff_of_true hempty ⟨?_, ?_⟩
    · exact fun prepared w hcalls => absurd ⟨prepared, w, hcalls⟩ hreturn
    · exact fun prepared w status hcalls => absurd ⟨prepared, w, hcalls⟩ hreturn

/-- A session that begins with nothing queued writes the stream of its own events. -/
theorem wire_serveClient (config : Config sys) (hsocket : start.msgio.useStdio = false)
    (hempty : start.msgio.wbuffer = []) (hwire : start.msgio.wire = []) :
    (serveClient config start).2.msgio.wire =
      streamOf start.msgio.client (sessionEvents config start) := by
  have hchain := chain_emitted (advances_serveClient config) start
  have hfirst : SameSender { MsgIo.listen [] with client := start.msgio.client } start.msgio :=
    ⟨rfl, hsocket, hempty.symm, hwire.symm, rfl⟩
  have hlast := hchain.carries SameSender.step hfirst
  exact hlast.wire.symm

end

end RemoteAttestation
