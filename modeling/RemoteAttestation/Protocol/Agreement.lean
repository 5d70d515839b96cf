import RemoteAttestation.Protocol.Network

/-! # Agreement of the two parties

What one party reads is the message that the other has sent, and it was sent for this session.
The invariant says for each party where it is in its program, what it has written and what it
has taken from its link; a turn of one party keeps what is said of the other.
-/

namespace RemoteAttestation

open Proc

variable {sys : Sys}

/-- The service provider finds the message 1 of the platform. -/
theorem Platform.msg1_of_block (platform : Platform) {msg01 : Memory}
    (hblock : msg01.block = platform.msg01) : msg01.msg1 = (platform.sgxRaGetMsg1 2).2 := by
  have hgroup : (leBytes 4 (platform.sgxGetExtendedEpidGroupId 1).2).length = 4 :=
    length_leBytes _ _
  have hpoint := (platform.sgxRaGetMsg1 2).2.gA.length_bytes
  have hgid := (platform.sgxRaGetMsg1 2).2.gid.length_bytes
  have hlength : msg01.block.length = 72 := by
    rw [hblock, Platform.msg01, Msg1.bytes, List.length_append, List.length_append, hgroup, hpoint,
      hgid]
  have hgA : (msg01.field 4 64) = (platform.sgxRaGetMsg1 2).2.gA := by
    ext1
    rw [Memory.bytes_field, Memory.slice_eq_take_drop _ _ _ (by omega), hblock, Platform.msg01,
      List.drop_left' hgroup, Msg1.bytes, List.take_left' hpoint]
  have hfront : (leBytes 4 (platform.sgxGetExtendedEpidGroupId 1).2 ++
      (platform.sgxRaGetMsg1 2).2.gA.bytes).length = 68 := by
    rw [List.length_append, hgroup, hpoint]
  have hback : (msg01.field 68 4) = (platform.sgxRaGetMsg1 2).2.gid := by
    ext1
    rw [Memory.bytes_field, Memory.slice_eq_take_drop _ _ _ (by omega), hblock, Platform.msg01,
      Msg1.bytes, ← List.append_assoc, List.drop_left' hfront, List.take_of_length_le hgid.le]
  rw [Memory.msg1, hgA, hback]

/-! ## The invariant -/

/-- The server still reads from its client. -/
def ServerPhase.Awaits (phase : ServerPhase sys) : Prop :=
  phase = .awaitsMsg01 ∨ ∃ prepared, phase = .awaitsMsg3 prepared

/-- What the client has written: the messages 0 and 1, and then message 3 for the message 2
that the server has made. -/
inductive ClientWrites (platform : Platform) (client : Client) : Option Prepared → Prop
  | request {made : Option Prepared} (hwire : client.msgio.wire <+: messageLine platform.msg01) :
      ClientWrites platform client made
  | answer {prepared : Prepared} {msg2 : Memory}
      (hgiven : ClientEvent.procMsg2 msg2 prepared.text.length ∈ client.log)
      (hblock : msg2.block = prepared.text)
      (hwire : client.msgio.wire <+:
        messageLine platform.msg01 ++ messageLine (platform.msg3 prepared.text)) :
      ClientWrites platform client (some prepared)

/-- What the server has written: message 2, and then message 4 if it trusts the enclave. -/
inductive ServerWrites (server : World sys) : ServerPhase sys → Prop
  | nothing {phase : ServerPhase sys} (hwire : server.msgio.wire = []) : ServerWrites server phase
  | msg2 {phase : ServerPhase sys} {prepared : Prepared}
      (hprepared : phase.prepared = some prepared)
      (hwire : server.msgio.wire <+: messageLine prepared.text) : ServerWrites server phase
  | msg4 {prepared : Prepared} {called : World sys} {msg4 : Msg4} {session : Session}
      (htrusted : msg4.status.isTrusted)
      (hwire : server.msgio.wire <+: messageLine prepared.text ++ messageLine msg4.bytes) :
      ServerWrites server (.judged prepared called (some (msg4, session)))

/-- Where the client is in `do_attestation`, and what it has taken from its link. -/
inductive ClientState (platform : Platform) (verbose : Bool) (start client : Client)
    (taken : Bytes) (made : Option Prepared) : ClientPhase → Prop
  | idle (hclient : client = start) (htaken : taken = []) :
      ClientState platform verbose start client taken made .idle
  | awaitsMsg2 (hrequest : Client.requestMsg2 platform start = (some true, client))
      (htaken : taken = []) : ClientState platform verbose start client taken made .awaitsMsg2
  | awaitsMsg4 {middle : Client} {prepared : Prepared}
      (hrequest : Client.requestMsg2 platform start = (some true, middle))
      (hanswer : Client.receiveMsg2 platform verbose middle = (some true, client))
      (hmade : made = some prepared) (htaken : taken = messageLine prepared.text)
      (htext : client.msgio.text =
        messageLine platform.msg01 ++ messageLine (platform.msg3 prepared.text))
      (hsocket : client.msgio.useStdio = false) (hempty : client.msgio.rbuffer = []) :
      ClientState platform verbose start client taken made .awaitsMsg4
  | ended (hrun : (Client.doAttestation platform verbose start).2 = client) :
      ClientState platform verbose start client taken made .ended

/-- Where the server is in its session, and what it has taken from its link. -/
inductive ServerState (config : Config sys) (platform : Platform) (start server : World sys)
    (taken : Bytes) : ServerPhase sys → Prop
  | awaitsMsg01 (hserver : server = start) (htaken : taken = []) :
      ServerState config platform start server taken .awaitsMsg01
  | awaitsMsg3 {prepared : Prepared} (hcalls : CallsMsg3 config start prepared server)
      (htext : server.msgio.text = messageLine prepared.text)
      (htaken : taken = messageLine platform.msg01) (hsocket : server.msgio.useStdio = false)
      (hempty : server.msgio.rbuffer = []) :
      ServerState config platform start server taken (.awaitsMsg3 prepared)
  | judged {prepared : Prepared} {called : World sys} {result : Option (Msg4 × Session)}
      (hcalls : CallsMsg3 config start prepared called)
      (hjudge : processMsg3 config prepared.msg1 prepared.session called = (some result, server)) :
      ServerState config platform start server taken (.judged prepared called result)
  | ended {made : Option Prepared} (hrun : (serveClient config start).2 = server) :
      ServerState config platform start server taken (.ended made)

/-- What the parties know of each other. -/
structure Agreement (platform : Platform) (start : World sys) (log : List ClientEvent)
    (phase : ServerPhase sys) : Prop where
  /-- A message 2 is made for the messages 0 and 1 that the client has sent. -/
  msg01 : ∀ prepared, phase.prepared = some prepared →
    start.readDest.block = platform.msg01 ∧ prepared.msg1 = (platform.sgxRaGetMsg1 2).2
  /-- The client receives the message 2 that was made for it. -/
  msg2 : ∀ msg2, .receivedMsg2 msg2 ∈ log →
    ∃ prepared, phase.prepared = some prepared ∧ msg2.block = prepared.text
  /-- `sgx_ra_proc_msg2` is given all of the message and its size. -/
  size : ∀ msg2 size, .procMsg2 msg2 size ∈ log →
    .receivedMsg2 msg2 ∈ log ∧ size = msg2.block.length
  /-- The server judges the message 3 that the platform made for this message 2. -/
  msg3 : ∀ prepared called verdict, phase = .judged prepared called (some verdict) →
    called.readDest.block = platform.msg3 prepared.text ∧
      ∃ msg2, .procMsg2 msg2 prepared.text.length ∈ log ∧ msg2.block = prepared.text
  /-- The client receives the message 4 of this verdict, and only where it is trusted. -/
  msg4 : ∀ msg4, .receivedMsg4 msg4 ∈ log →
    ∃ prepared called verdict session, phase = .judged prepared called (some (verdict, session)) ∧
      verdict.status.isTrusted ∧ msg4.block = verdict.bytes

/-- In front of a server that has not answered no message is received. -/
theorem Agreement.not_received {platform : Platform} {start : World sys} {log : List ClientEvent}
    (hagreement : Agreement platform start log .awaitsMsg01) :
    (∀ msg2, .receivedMsg2 msg2 ∉ log) ∧ ∀ msg4, .receivedMsg4 msg4 ∉ log := by
  constructor
  · intro msg2 hmem
    obtain ⟨prepared, hprepared, _⟩ := hagreement.msg2 msg2 hmem
    cases hprepared
  · intro msg4 hmem
    obtain ⟨_, _, _, _, hjudged, _⟩ := hagreement.msg4 msg4 hmem
    cases hjudged

/-- What holds in every state. -/
structure Network.Joined (config : Config sys) (platform : Platform) (verbose : Bool)
    (connection : Connection) (start : World sys) (n : Network sys) : Prop where
  clientLink : n.clientPhase ≠ .ended →
    n.toClient.Sound Recv.bytes n.client.msgio.client.incoming n.server.msgio.wire
  serverLink : n.serverPhase.Awaits →
    n.toServer.Sound Recv.bytes n.server.msgio.client.incoming n.client.msgio.wire
  clientWrites : ClientWrites platform n.client n.serverPhase.prepared
  serverWrites : ServerWrites n.server n.serverPhase
  clientState : ClientState platform verbose (.start (.connected connection)) n.client
    n.toClient.taken n.serverPhase.prepared n.clientPhase
  serverState : ServerState config platform start n.server n.toServer.taken n.serverPhase
  sized : ∀ prepared, n.serverPhase.prepared = some prepared → prepared.Sized
  agreement : Agreement platform start n.client.log n.serverPhase

section

variable {config : Config sys} {platform : Platform} {verbose : Bool} {connection : Connection}
  {start : World sys} {n : Network sys}

theorem Network.joined_opened (hfresh : start.Fresh) :
    (Network.opened connection start).Joined config platform verbose connection start where
  clientLink _ := Link.sound_opened _ _ _
  serverLink _ := Link.sound_opened _ _ _
  clientWrites := .request (List.nil_prefix)
  serverWrites := .nothing (List.append_eq_nil_iff.mp hfresh.text).1
  clientState := .idle rfl rfl
  serverState := .awaitsMsg01 rfl rfl
  sized := by
    intro prepared hprepared
    cases hprepared
  agreement :=
    { msg01 := by
        intro prepared hprepared
        cases hprepared
      msg2 := by
        intro msg2 hmem
        cases hmem
      size := by
        intro msg2 size hmem
        cases hmem
      msg3 := by
        intro prepared called verdict hphase
        cases hphase
      msg4 := by
        intro msg4 hmem
        cases hmem }

/-! ## The frame of a turn -/

theorem Agreement.append {log events : List ClientEvent} {phase : ServerPhase sys}
    (hagreement : Agreement platform start log phase)
    (hmsg2 : ∀ msg2, .receivedMsg2 msg2 ∈ events →
      ∃ prepared, phase.prepared = some prepared ∧ msg2.block = prepared.text)
    (hsize : ∀ msg2 size, .procMsg2 msg2 size ∈ events →
      .receivedMsg2 msg2 ∈ events ∧ size = msg2.block.length)
    (hmsg4 : ∀ msg4, .receivedMsg4 msg4 ∈ events →
      ∃ prepared called verdict session, phase = .judged prepared called (some (verdict, session)) ∧
        verdict.status.isTrusted ∧ msg4.block = verdict.bytes) :
    Agreement platform start (log ++ events) phase where
  msg01 := hagreement.msg01
  msg2 msg2 hmem := by
    rcases List.mem_append.mp hmem with hold | hnew
    · exact hagreement.msg2 msg2 hold
    · exact hmsg2 msg2 hnew
  size msg2 size hmem := by
    rcases List.mem_append.mp hmem with hold | hnew
    · obtain ⟨hreceived, hlength⟩ := hagreement.size msg2 size hold
      exact ⟨List.mem_append_left _ hreceived, hlength⟩
    · obtain ⟨hreceived, hlength⟩ := hsize msg2 size hnew
      exact ⟨List.mem_append_right _ hreceived, hlength⟩
  msg3 prepared called verdict hphase := by
    obtain ⟨hblock, msg2, hgiven, hmsg2⟩ := hagreement.msg3 prepared called verdict hphase
    exact ⟨hblock, msg2, List.mem_append_left _ hgiven, hmsg2⟩
  msg4 msg4 hmem := by
    rcases List.mem_append.mp hmem with hold | hnew
    · exact hagreement.msg4 msg4 hold
    · exact hmsg4 msg4 hnew

/-- What a client wrote for the server stays right when the server makes message 2. -/
theorem ClientWrites.mono {client : Client} {made made' : Option Prepared}
    (hwrites : ClientWrites platform client made) (hmade : made = none ∨ made = made') :
    ClientWrites platform client made' := by
  cases hwrites with
  | request hwire => exact .request hwire
  | answer hgiven hblock hwire =>
      rcases hmade with hnone | rfl
      · cases hnone
      · exact .answer hgiven hblock hwire

theorem ClientState.mono {first client : Client} {taken : Bytes} {made made' : Option Prepared}
    {phase : ClientPhase} (hstate : ClientState platform verbose first client taken made phase)
    (hmade : made = none ∨ made = made') :
    ClientState platform verbose first client taken made' phase := by
  cases hstate with
  | idle hclient htaken => exact .idle hclient htaken
  | awaitsMsg2 hrequest htaken => exact .awaitsMsg2 hrequest htaken
  | awaitsMsg4 hrequest hanswer hsome htaken htext hsocket hempty =>
      rcases hmade with rfl | rfl
      · cases hsome
      · exact .awaitsMsg4 hrequest hanswer hsome htaken htext hsocket hempty
  | ended hrun => exact .ended hrun

/-- A turn of the client says nothing new of the server. -/
theorem Network.Joined.clientTurn (hjoined : n.Joined config platform verbose connection start)
    {client : Client} {clientPhase : ClientPhase} {toClient : Link UInt8}
    (hwire : n.client.msgio.wire <+: client.msgio.wire)
    (hlink : clientPhase ≠ .ended →
      toClient.Sound Recv.bytes client.msgio.client.incoming n.server.msgio.wire)
    (hwrites : ClientWrites platform client n.serverPhase.prepared)
    (hstate : ClientState platform verbose (.start (.connected connection)) client toClient.taken
      n.serverPhase.prepared clientPhase)
    (hagreement : Agreement platform start client.log n.serverPhase) :
    Network.Joined config platform verbose connection start
      { n with client, clientPhase, toClient } where
  clientLink := hlink
  serverLink hawaits := (hjoined.serverLink hawaits).mono hwire
  clientWrites := hwrites
  serverWrites := hjoined.serverWrites
  clientState := hstate
  serverState := hjoined.serverState
  sized := hjoined.sized
  agreement := hagreement

/-- A turn of the server says nothing new of the client. -/
theorem Network.Joined.serverTurn (hjoined : n.Joined config platform verbose connection start)
    {server : World sys} {serverPhase : ServerPhase sys} {toServer : Link UInt8}
    (hmade : n.serverPhase.prepared = none ∨ n.serverPhase.prepared = serverPhase.prepared)
    (hwire : n.server.msgio.wire <+: server.msgio.wire)
    (hlink : serverPhase.Awaits →
      toServer.Sound Recv.bytes server.msgio.client.incoming n.client.msgio.wire)
    (hwrites : ServerWrites server serverPhase)
    (hstate : ServerState config platform start server toServer.taken serverPhase)
    (hsized : ∀ prepared, serverPhase.prepared = some prepared → prepared.Sized)
    (hagreement : Agreement platform start n.client.log serverPhase) :
    Network.Joined config platform verbose connection start
      { n with server, serverPhase, toServer } where
  clientLink hphase := (hjoined.clientLink hphase).mono hwire
  serverLink := hlink
  clientWrites := hjoined.clientWrites.mono hmade
  serverWrites := hwrites
  clientState := hjoined.clientState.mono hmade
  serverState := hstate
  sized := hsized
  agreement := hagreement

/-! ## The turns of the client -/

theorem Network.Joined.request (hjoined : n.Joined config platform verbose connection start)
    (hphase : n.clientPhase = .idle) :
    (n.request platform).Joined config platform verbose connection start := by
  have hstate := hjoined.clientState
  rw [hphase] at hstate
  cases hstate with
  | idle hclient htaken =>
      have hlink := hjoined.clientLink (by rw [hphase]; exact ClientPhase.noConfusion)
      have hagreement := hjoined.agreement
      unfold Network.request
      rw [hclient] at hlink hagreement ⊢
      rcases Client.requestMsg2_start platform (.connected connection) with
        hsent | ⟨clock, hrefused⟩
      · -- What is sent is the first line, of which the kernel has taken some.
        rw [hsent]
        dsimp only
        rw [if_pos rfl]
        apply hjoined.clientTurn
        · rw [hclient]
          exact List.nil_prefix
        · intro _
          exact hlink
        · apply ClientWrites.request
          exact (Client.requested_of_start hsent).text ▸ MsgIo.wire_prefix_text _
        · exact .awaitsMsg2 hsent htaken
        · exact hagreement
      · rw [hrefused]
        dsimp only
        rw [if_neg (by simp)]
        apply hjoined.clientTurn
        · rw [hclient]
          exact List.nil_prefix
        · intro hactive
          exact absurd rfl hactive
        · exact .request List.nil_prefix
        · exact .ended (Client.doAttestation_of_unrequested hrefused)
        · exact hagreement

/-- While the client has received nothing, the server has no verdict. -/
theorem Network.Joined.unjudged (hjoined : n.Joined config platform verbose connection start)
    (hlog : n.client.log = []) {prepared : Prepared} {called : World sys}
    {verdict : Msg4 × Session} :
    n.serverPhase ≠ .judged prepared called (some verdict) := by
  intro hphase
  obtain ⟨_, msg2, hgiven, _⟩ := hjoined.agreement.msg3 _ _ _ hphase
  rw [hlog] at hgiven
  cases hgiven

/-- What a client that waits for message 2 is read. -/
theorem Network.Joined.read_msg2 (hjoined : n.Joined config platform verbose connection start)
    (hphase : n.clientPhase = .awaitsMsg2) (hlog : n.client.log = [])
    (htaken : n.toClient.taken = []) (hsocket : n.client.msgio.useStdio = false)
    (hempty : n.client.msgio.rbuffer = []) (hready : n.client.msgio.usedCount ≤ n.toClient.ready) :
    (n.client.readRv = 0 ∨ n.client.readRv = -1) ∨
      ∃ prepared, n.serverPhase.prepared = some prepared ∧
        n.clientUse.taken = messageLine prepared.text ∧ n.client.afterRead.msgio.rbuffer = [] ∧
        (n.client.readDest platform).block = prepared.text := by
  have hlink := hjoined.clientLink (by rw [hphase]; exact ClientPhase.noConfusion)
  have hwrites := hjoined.serverWrites
  have hunjudged := @Network.Joined.unjudged _ _ _ _ _ _ _ hjoined hlog
  generalize n.serverPhase = phase at hwrites hunjudged ⊢
  cases hwrites with
  | nothing hwire =>
      exact .inl (MsgIo.read_of_exhausted hsocket hempty hlink hready htaken (by rw [hwire]))
  | @msg2 _ prepared hprepared hwire =>
      rcases MsgIo.read_of_link hsocket hempty prepared.text_ne_nil hlink hready htaken hwire with
        hnothing | ⟨hused, hrbuffer, memory, hread, hblock⟩
      · exact .inl hnothing
      · refine .inr ⟨prepared, hprepared, hused, hrbuffer, ?_⟩
        rw [Client.readDest, hread]
        exact hblock
  | msg4 htrusted hwire => exact absurd rfl hunjudged

/-- What a client that waits for message 4 is read. -/
theorem Network.Joined.read_msg4 (hjoined : n.Joined config platform verbose connection start)
    (hphase : n.clientPhase = .awaitsMsg4) {prepared : Prepared}
    (hmade : n.serverPhase.prepared = some prepared)
    (htaken : n.toClient.taken = messageLine prepared.text)
    (hsocket : n.client.msgio.useStdio = false) (hempty : n.client.msgio.rbuffer = [])
    (hready : n.client.msgio.usedCount ≤ n.toClient.ready) :
    (n.client.readRv = 0 ∨ n.client.readRv = -1) ∨
      ∃ called verdict session, n.serverPhase = .judged prepared called (some (verdict, session)) ∧
        verdict.status.isTrusted ∧ (n.client.readDest platform).block = verdict.bytes := by
  have hlink := hjoined.clientLink (by rw [hphase]; exact ClientPhase.noConfusion)
  have hwrites := hjoined.serverWrites
  generalize n.serverPhase = phase at hwrites hmade ⊢
  cases hwrites with
  | nothing hwire =>
      refine .inl (MsgIo.read_of_exhausted hsocket hempty hlink hready htaken ?_)
      rw [hwire]
      exact List.nil_prefix
  | msg2 hprepared hwire =>
      obtain rfl : prepared = _ := Option.some_inj.mp (hmade.symm.trans hprepared)
      exact .inl (MsgIo.read_of_exhausted hsocket hempty hlink hready htaken hwire)
  | @msg4 _ called verdict session htrusted hwire =>
      obtain rfl : prepared = _ := Option.some_inj.mp hmade.symm
      have hmessage : verdict.bytes ≠ [] :=
        List.ne_nil_of_length_pos (by rw [verdict.length_bytes]; omega)
      rcases MsgIo.read_of_link hsocket hempty hmessage hlink hready htaken hwire with
        hnothing | ⟨_, _, memory, hread, hblock⟩
      · exact .inl hnothing
      · refine .inr ⟨called, verdict, session, rfl, htrusted, ?_⟩
        rw [Client.readDest, hread]
        exact hblock

theorem Network.Joined.receiveMsg2 (hjoined : n.Joined config platform verbose connection start)
    (hphase : n.clientPhase = .awaitsMsg2)
    (hready : n.client.msgio.usedCount ≤ n.toClient.ready) :
    (n.receiveMsg2 platform verbose).Joined config platform verbose connection start := by
  have hstate := hjoined.clientState
  rw [hphase] at hstate
  cases hstate with
  | awaitsMsg2 hrequest htaken =>
      have hlink := hjoined.clientLink (by rw [hphase]; exact ClientPhase.noConfusion)
      have hrequested := Client.requested_of_start hrequest
      obtain ⟨hstdio, _, hsame, _⟩ := n.client.msgio.read_quiet
      have hwire : n.client.msgio.read.2.wire <+: messageLine platform.msg01 := by
        rw [hsame, ← hrequested.text]
        exact MsgIo.wire_prefix_text _
      have hread := hjoined.read_msg2 hphase hrequested.log htaken hrequested.socket
        hrequested.rbuffer hready
      have hturn := Client.receiveMsg2_turn platform verbose n.client
      unfold Network.receiveMsg2
      generalize hanswer : Client.receiveMsg2 platform verbose n.client = result at hturn ⊢
      -- What becomes of a message 2 that is read.
      have hreceived : ∀ prepared, n.serverPhase.prepared = some prepared →
          (n.client.readDest platform).block = prepared.text →
          Agreement platform start
            (n.client.log ++ Client.msg2Log verbose (n.client.readDest platform)) n.serverPhase := by
        intro prepared hmade hblock
        apply hjoined.agreement.append
        · intro msg2 hmem
          obtain rfl := Client.receivedMsg2_mem_msg2Log.mp hmem
          exact ⟨prepared, hmade, hblock⟩
        · intro msg2 size hmem
          obtain ⟨rfl, rfl⟩ := Client.procMsg2_mem_msg2Log.mp hmem
          exact ⟨Client.receivedMsg2_mem_msg2Log.mpr rfl, (hjoined.sized prepared hmade).msg2Size hblock⟩
        · intro msg4 hmem
          exact absurd hmem Client.receivedMsg4_notMem_msg2Log
      cases hturn with
      | unread hrv =>
          dsimp only
          rw [if_neg (by simp)]
          apply hjoined.clientTurn
          · exact hsame ▸ List.prefix_rfl
          · intro hactive
            exact absurd rfl hactive
          · exact .request hwire
          · exact .ended (Client.doAttestation_of_unanswered hrequest hanswer)
          · exact hjoined.agreement
      | refused hrv hstatus =>
          obtain ⟨prepared, hmade, _, _, hblock⟩ := hread.resolve_left hrv
          dsimp only
          rw [if_neg (by simp)]
          apply hjoined.clientTurn
          · exact hsame ▸ List.prefix_rfl
          · intro hactive
            exact absurd rfl hactive
          · exact .request hwire
          · exact .ended (Client.doAttestation_of_unanswered hrequest hanswer)
          · exact hreceived prepared hmade hblock
      | answered hrv =>
          obtain ⟨prepared, hmade, hused, hrbuffer, hblock⟩ := hread.resolve_left hrv
          have hsize := (hjoined.sized prepared hmade).msg2Size hblock
          have hlog := hreceived prepared hmade hblock
          -- The platform is given the message that was made, so message 3 is the one for it.
          have hgiven : platform.sgxRaProcMsg2 (n.client.clock + 1)
              ((n.client.readDest platform).slice 0 (Client.msg2Size (n.client.readDest platform))) =
                platform.sgxRaProcMsg2 4 prepared.text := by
            rw [hrequested.clock, hsize, Memory.slice_eq_take_drop _ _ _ (by omega), List.drop_zero,
              List.take_length, hblock]
          rw [hgiven] at hanswer ⊢
          have hsocket : n.client.msgio.read.2.useStdio = false := hstdio.trans hrequested.socket
          have hreceiver :=
            MsgIo.send_receiver n.client.msgio.read.2 (platform.sgxRaProcMsg2 4 prepared.text).2
          have htext := MsgIo.text_send hsocket (platform.msg3 prepared.text)
          rw [MsgIo.text_read, hrequested.text] at htext
          dsimp only
          rw [if_pos rfl]
          apply hjoined.clientTurn
          · rw [← hsame]
            exact MsgIo.wire_prefix_send hsocket _
          · intro _
            have hsound := MsgIo.sound_useLink hrequested.socket hlink hready
            rw [← hreceiver.incoming] at hsound
            exact hsound
          · rw [hmade]
            refine .answer (List.mem_append_right _ ?_) hblock ?_
            · rw [Client.procMsg2_mem_msg2Log, hsize, hblock]
              exact ⟨rfl, rfl⟩
            · exact htext ▸ MsgIo.wire_prefix_text _
          · exact .awaitsMsg4 hrequest hanswer hmade hused htext
              (hreceiver.useStdio.trans hsocket) (hreceiver.rbuffer.trans hrbuffer)
          · exact hlog

theorem Network.Joined.receiveMsg4 (hjoined : n.Joined config platform verbose connection start)
    (hphase : n.clientPhase = .awaitsMsg4)
    (hready : n.client.msgio.usedCount ≤ n.toClient.ready) :
    (n.receiveMsg4 platform).Joined config platform verbose connection start := by
  have hstate := hjoined.clientState
  rw [hphase] at hstate
  cases hstate with
  | awaitsMsg4 hrequest hanswer hmade htaken htext hsocket hempty =>
      have hread := hjoined.read_msg4 hphase hmade htaken hsocket hempty hready
      have hmsgio := Client.receiveMsg4_msgio platform n.client
      have hwire := n.client.msgio.read_quiet.2.2.1
      have hlog := @Client.log_receiveMsg4 platform n.client
      apply hjoined.clientTurn
      · rw [hmsgio, hwire]
      · intro hactive
        exact absurd rfl hactive
      · have hwrites := hjoined.clientWrites
        rw [hmade] at hwrites ⊢
        cases hwrites with
        | request hold => exact .request (by rw [hmsgio, hwire]; exact hold)
        | answer hgiven hblock hold =>
            refine .answer ?_ hblock (by rw [hmsgio, hwire]; exact hold)
            rw [hlog]
            exact List.mem_append_left _ hgiven
      · exact .ended (Client.doAttestation_of_answered hrequest hanswer)
      · rw [hlog]
        -- The log grows only if a message was read.
        by_cases hrv : n.client.readRv = 0 ∨ n.client.readRv = -1
        · rw [if_pos hrv, List.append_nil]
          exact hjoined.agreement
        · obtain ⟨called, verdict, session, hserver, htrusted, hblock⟩ := hread.resolve_left hrv
          rw [if_neg hrv]
          apply hjoined.agreement.append
          · intro msg2 hmem
            exact absurd hmem (@Client.msg2_notMem_msg4Log _ _ 0).1
          · intro msg2 size hmem
            exact absurd hmem Client.msg2_notMem_msg4Log.2
          · intro msg4 hmem
            obtain rfl := Client.receivedMsg4_mem_msg4Log.mp hmem
            exact ⟨_, called, verdict, session, hserver, htrusted, hblock⟩

/-! ## The turns of the server -/

/-- Before the server has made message 2, the client has received nothing. -/
theorem Agreement.of_unmade {log : List ClientEvent} {phase phase' : ServerPhase sys}
    (hagreement : Agreement platform start log phase) (hunmade : phase.prepared = none)
    (hmsg01 : ∀ prepared, phase'.prepared = some prepared →
      start.readDest.block = platform.msg01 ∧ prepared.msg1 = (platform.sgxRaGetMsg1 2).2)
    (hunjudged : ∀ prepared called verdict, phase' ≠ .judged prepared called verdict) :
    Agreement platform start log phase' where
  msg01 := hmsg01
  msg2 msg2 hmem := by
    obtain ⟨prepared, hprepared, _⟩ := hagreement.msg2 msg2 hmem
    rw [hunmade] at hprepared
    cases hprepared
  size := hagreement.size
  msg3 prepared called verdict hphase := absurd hphase (hunjudged _ _ _)
  msg4 msg4 hmem := by
    obtain ⟨prepared, called, verdict, session, rfl, _⟩ := hagreement.msg4 msg4 hmem
    cases hunmade

/-- What a server that waits for the messages 0 and 1 is read. -/
theorem Network.Joined.read_msg01 (hjoined : n.Joined config platform verbose connection start)
    (hfresh : start.Fresh) (hphase : n.serverPhase = .awaitsMsg01) (hserver : n.server = start)
    (htaken : n.toServer.taken = [])
    (hready : n.server.msgio.usedCount ≤ n.toServer.ready) :
    (n.server.readRv = 0 ∨ n.server.readRv = -1) ∨
      n.serverUse.taken = messageLine platform.msg01 ∧ n.server.msgio.read.2.rbuffer = [] ∧
        n.server.readDest.block = platform.msg01 := by
  have hlink := hjoined.serverLink (.inl hphase)
  have hwrites := hjoined.clientWrites
  rw [hphase] at hwrites
  cases hwrites with
  | request hwire =>
      have hread := MsgIo.read_of_link (hserver ▸ hfresh.socket) (hserver ▸ hfresh.rbuffer)
        platform.msg01_ne_nil hlink hready htaken hwire
      rcases hread with hnothing | ⟨hused, hrbuffer, memory, hread, hblock⟩
      · exact .inl hnothing
      · refine .inr ⟨hused, hrbuffer, ?_⟩
        rw [World.readDest, hread]
        exact hblock

theorem Network.Joined.serveMsg01 (hjoined : n.Joined config platform verbose connection start)
    (hfresh : start.Fresh) (hphase : n.serverPhase = .awaitsMsg01)
    (hready : n.server.msgio.usedCount ≤ n.toServer.ready) :
    (n.serveMsg01 config).Joined config platform verbose connection start := by
  have hstate := hjoined.serverState
  rw [hphase] at hstate
  cases hstate with
  | awaitsMsg01 hserver htaken =>
      have hread := hjoined.read_msg01 hfresh hphase hserver htaken hready
      have hlink := hjoined.serverLink (.inl hphase)
      have hunmade : n.serverPhase.prepared = none := by
        rw [hphase]
        rfl
      have hblank := List.append_eq_nil_iff.mp hfresh.text
      have hwire : n.server.msgio.wire = [] := by
        rw [hserver]
        exact hblank.1
      -- Either message 2 was prepared and queued, or nothing is written.
      by_cases hreturn : ∃ prepared next,
          processMsg01 config n.server = (some (some prepared), next)
      · obtain ⟨prepared, next, hreturn⟩ := hreturn
        have hturn := processMsg01_turn (hserver ▸ hfresh.socket) hreturn
        obtain ⟨hused, hrbuffer, hblock⟩ := hread.resolve_left hturn.received
        have htext : (sendMsg2 prepared next).2.msgio.text = messageLine prepared.text := by
          rw [hturn.text, hserver, hfresh.text, List.nil_append]
        unfold Network.serveMsg01
        rw [hreturn]
        dsimp only
        apply hjoined.serverTurn
        · exact .inl hunmade
        · rw [hwire]
          exact List.nil_prefix
        · intro _
          have hsound := MsgIo.sound_useLink (hserver ▸ hfresh.socket) hlink hready
          rw [← hturn.read.incoming] at hsound
          exact hsound
        · exact .msg2 rfl (htext ▸ MsgIo.wire_prefix_text _)
        · refine .awaitsMsg3 ⟨next, hserver ▸ hreturn, rfl⟩ htext hused ?_ ?_
          · rw [hturn.read.useStdio, n.server.msgio.read_quiet.1, hserver]
            exact hfresh.socket
          · rw [hturn.read.rbuffer, hrbuffer]
        · intro made hmade
          cases hmade
          exact hturn.sized
        · apply hjoined.agreement.of_unmade hunmade
          · intro made hmade
            cases hmade
            refine ⟨hserver ▸ hblock, ?_⟩
            rw [hturn.msg1, platform.msg1_of_block hblock]
          · intro made called verdict hjudged
            cases hjudged
      · have hrejects : ∀ prepared next,
            processMsg01 config n.server ≠ (some (some prepared), next) :=
          fun prepared next h => hreturn ⟨prepared, next, h⟩
        have hsilent : (processMsg01 config n.server).2.msgio.wire = [] := by
          rw [(processMsg01_text config n.server).2, hwire]
        have hrun := serveClient_of_rejected hrejects
        rw [n.serveMsg01_of_rejected hrejects]
        apply hjoined.serverTurn
        · exact .inl hunmade
        · rw [hwire]
          exact List.nil_prefix
        · rintro (hawaits | ⟨_, hawaits⟩)
          · cases hawaits
          · cases hawaits
        · exact .nothing hsilent
        · exact .ended (hserver ▸ hrun)
        · intro made hmade
          cases hmade
        · apply hjoined.agreement.of_unmade hunmade
          · intro made hmade
            cases hmade
          · intro made called verdict hjudged
            cases hjudged

/-- While the client has no message 4, a verdict only adds what it was for. -/
theorem Agreement.of_unheard {log : List ClientEvent} {phase phase' : ServerPhase sys}
    (hagreement : Agreement platform start log phase) {prepared : Prepared}
    (hmade : phase.prepared = some prepared) (hmade' : phase'.prepared = some prepared)
    (hunheard : ∀ msg4, .receivedMsg4 msg4 ∉ log)
    (hmsg3 : ∀ prepared called verdict, phase' = .judged prepared called (some verdict) →
      called.readDest.block = platform.msg3 prepared.text ∧
        ∃ msg2, .procMsg2 msg2 prepared.text.length ∈ log ∧ msg2.block = prepared.text) :
    Agreement platform start log phase' where
  msg01 := (hmade.trans hmade'.symm) ▸ hagreement.msg01
  msg2 := (hmade.trans hmade'.symm) ▸ hagreement.msg2
  size := hagreement.size
  msg3 := hmsg3
  msg4 msg4 hmem := absurd hmem (hunheard msg4)

/-- What a server that waits for message 3 is read. -/
theorem Network.Joined.read_msg3 (hjoined : n.Joined config platform verbose connection start)
    (hspeaks : platform.Speaks) {prepared : Prepared}
    (hphase : n.serverPhase = .awaitsMsg3 prepared)
    (htaken : n.toServer.taken = messageLine platform.msg01)
    (hsocket : n.server.msgio.useStdio = false) (hempty : n.server.msgio.rbuffer = [])
    (hready : n.server.msgio.usedCount ≤ n.toServer.ready) :
    (n.server.readRv = 0 ∨ n.server.readRv = -1) ∨
      n.server.readDest.block = platform.msg3 prepared.text ∧
        ∃ msg2, .procMsg2 msg2 prepared.text.length ∈ n.client.log ∧
          msg2.block = prepared.text := by
  have hlink := hjoined.serverLink (.inr ⟨prepared, hphase⟩)
  have hwrites := hjoined.clientWrites
  rw [hphase] at hwrites
  dsimp only [ServerPhase.prepared] at hwrites
  cases hwrites with
  | request hwire => exact .inl (MsgIo.read_of_exhausted hsocket hempty hlink hready htaken hwire)
  | @answer _ msg2 hgiven hblock hwire =>
      rcases MsgIo.read_of_link hsocket hempty (hspeaks 4 prepared.text) hlink hready htaken hwire
        with hnothing | ⟨_, _, memory, hread, hmsg3⟩
      · exact .inl hnothing
      · refine .inr ⟨?_, msg2, hgiven, hblock⟩
        rw [World.readDest, hread]
        exact hmsg3

theorem Network.Joined.serveMsg3 (hjoined : n.Joined config platform verbose connection start)
    (hspeaks : platform.Speaks) {prepared : Prepared}
    (hphase : n.serverPhase = .awaitsMsg3 prepared)
    (hready : n.server.msgio.usedCount ≤ n.toServer.ready) :
    (n.serveMsg3 config prepared).Joined config platform verbose connection start := by
  have hstate := hjoined.serverState
  rw [hphase] at hstate
  cases hstate with
  | awaitsMsg3 hcalls htext htaken hsocket hempty =>
      have hread := hjoined.read_msg3 hspeaks hphase htaken hsocket hempty hready
      have hmade : n.serverPhase.prepared = some prepared := by
        rw [hphase]
        rfl
      have hrun := serveClient_of_callsMsg3 hcalls
      unfold Network.serveMsg3
      -- What is written is message 4 if the verdict trusts the enclave, and nothing otherwise.
      cases hjudge : processMsg3 config prepared.msg1 prepared.session n.server with
      | mk returned next =>
          obtain ⟨hkept, hwritten⟩ := processMsg3_wire hsocket hjudge
          rw [htext] at hwritten
          rw [hjudge] at hrun
          have hunheard : ∀ msg4, .receivedMsg4 msg4 ∉ n.client.log := by
            intro msg4 hmem
            obtain ⟨_, _, _, _, hjudged, _⟩ := hjoined.agreement.msg4 msg4 hmem
            rw [hphase] at hjudged
            cases hjudged
          have hsized := hmade ▸ hjoined.sized
          have hnowhere : ∀ {phase : ServerPhase sys}, ¬ phase.Awaits → phase.Awaits →
              n.serverUse.Sound Recv.bytes next.msgio.client.incoming n.client.msgio.wire :=
            fun hno hyes => absurd hyes hno
          cases returned with
          | none =>
              rw [Option.getD_none, verdictLine, List.append_nil] at hwritten
              apply hjoined.serverTurn
              · exact .inr hmade
              · exact hkept
              · apply hnowhere
                rintro (hawaits | ⟨_, hawaits⟩)
                · cases hawaits
                · cases hawaits
              · exact .msg2 rfl hwritten
              · exact .ended hrun
              · exact hsized
              · apply hjoined.agreement.of_unheard hmade rfl hunheard
                intro made called verdict hjudged
                cases hjudged
          | some result =>
              rw [Option.getD_some] at hwritten
              apply hjoined.serverTurn
              · exact .inr hmade
              · exact hkept
              · apply hnowhere
                rintro (hawaits | ⟨_, hawaits⟩)
                · cases hawaits
                · cases hawaits
              · cases result with
                | none =>
                    rw [verdictLine, List.append_nil] at hwritten
                    exact .msg2 rfl hwritten
                | some verdict =>
                    rw [verdictLine] at hwritten
                    split at hwritten
                    next htrusted => exact .msg4 htrusted hwritten
                    next =>
                      rw [List.append_nil] at hwritten
                      exact .msg2 rfl hwritten
              · exact .judged hcalls hjudge
              · exact hsized
              · apply hjoined.agreement.of_unheard hmade rfl hunheard
                intro made called verdict hjudged
                cases hjudged
                exact hread.resolve_left (processMsg3_received hjudge)

/-! ## Every run -/

theorem Network.Joined.step (hjoined : n.Joined config platform verbose connection start)
    (hfresh : start.Fresh) (hspeaks : platform.Speaks) {next : Network sys}
    (hstep : Network.Step config platform verbose n next) :
    next.Joined config platform verbose connection start := by
  cases hstep with
  | @arriveServer link harrives =>
      -- An arrival adds to what can be read and takes nothing.
      have htaken : link.taken = n.toServer.taken := by
        rw [harrives.counted]
      apply hjoined.serverTurn
      · exact .inr rfl
      · exact List.prefix_rfl
      · exact fun _ => harrives.sound
      · exact hjoined.serverWrites
      · exact htaken ▸ hjoined.serverState
      · exact hjoined.sized
      · exact hjoined.agreement
  | @arriveClient link harrives =>
      have htaken : link.taken = n.toClient.taken := by
        rw [harrives.counted]
      apply hjoined.clientTurn
      · exact List.prefix_rfl
      · exact fun _ => harrives.sound
      · exact hjoined.clientWrites
      · exact htaken ▸ hjoined.clientState
      · exact hjoined.agreement
  | request hphase => exact hjoined.request hphase
  | receiveMsg2 hphase hready => exact hjoined.receiveMsg2 hphase hready
  | receiveMsg4 hphase hready => exact hjoined.receiveMsg4 hphase hready
  | serveMsg01 hphase hready => exact hjoined.serveMsg01 hfresh hphase hready
  | serveMsg3 hphase hready => exact hjoined.serveMsg3 hspeaks hphase hready

theorem Network.joined_of_reachable (hfresh : start.Fresh) (hspeaks : platform.Speaks)
    (hreachable : Network.Reachable config platform verbose connection start n) :
    n.Joined config platform verbose connection start := by
  induction hreachable with
  | refl => exact Network.joined_opened hfresh
  | tail _ hstep ih => exact ih.step hfresh hspeaks hstep

end

end RemoteAttestation
