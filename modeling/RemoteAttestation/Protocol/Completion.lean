import RemoteAttestation.Protocol.Progress
import RemoteAttestation.Enclave.CiphertextTransport

/-! # A session that goes well

When every call succeeds and the lines arrive, the client has its message 4 in the end. Into
which pieces the lines are cut, and where a `recv` is interrupted, does not matter.
-/

namespace RemoteAttestation

open Proc Relation

variable {sys : Sys}

/-- What the parties do when nothing fails. -/
structure Exchange (config : Config sys) (platform : Platform) (verbose : Bool)
    (connection : Connection) (start : World sys) (requested answered : Client)
    (prepared : Prepared) (called last : World sys) (verdict : Msg4) (session : Session) :
    Prop where
  fresh : start.Fresh
  working : WorkingSocket config start
  allocs : connection.allocs = [] ∧ start.msgio.client.allocs = []
  request : Client.requestMsg2 platform (.start (.connected connection)) = (some true, requested)
  requested_wbuffer : requested.msgio.wbuffer = []
  calls : CallsMsg3 config start prepared called
  answer : Client.receiveMsg2 platform verbose requested = (some true, answered)
  answered_wbuffer : answered.msgio.wbuffer = []
  judge : processMsg3 config prepared.msg1 prepared.session called =
    (some (some (verdict, session)), last)
  trusted : verdict.status.isTrusted
  /-- The lines that the server receives. -/
  serverLines : ∃ middle rest, Delivers start.msgio.client.incoming (messageLine platform.msg01) middle ∧
    Delivers middle (messageLine (platform.msg3 prepared.text)) rest
  /-- The lines that the client receives. -/
  clientLines : ∃ middle rest, Delivers connection.incoming (messageLine prepared.text) middle ∧
    Delivers middle (messageLine verdict.bytes) rest

section

variable {config : Config sys} {platform : Platform} {verbose : Bool} {connection : Connection}
  {start : World sys} {n : Network sys} {text : Bytes} {rest : List Recv}

/-! ## Lines that arrive -/

theorem sound_of_delivers {incoming : List Recv} {link : Link UInt8}
    (hdelivers : Delivers incoming text rest) (hready : link.ready = 0) :
    Link.Sound Recv.bytes incoming (link.taken ++ text)
      { link with ready := link.ready + (incoming.length - rest.length) } := by
  obtain ⟨used, hincoming, htext⟩ := hdelivers.used
  have hcount : incoming.length - rest.length = used.length := by
    rw [hincoming, List.length_append, Nat.add_sub_cancel]
  rw [hready, Nat.zero_add, hcount]
  refine ⟨?_, ?_⟩
  · dsimp only
    rw [hincoming, List.length_append]
    exact Nat.le_add_right _ _
  · rw [Link.delivered]
    dsimp only
    rw [hincoming, List.take_left, htext]

theorem Network.arrives_server (hready : n.toServer.ready = 0)
    (hdelivers : Delivers n.server.msgio.client.incoming text rest)
    (hwire : n.client.msgio.wire = n.toServer.taken ++ text) :
    ReflTransGen (Network.Step config platform verbose) n
      { n with
        toServer := ⟨n.toServer.taken, n.server.msgio.client.incoming.length - rest.length⟩ } := by
  have hpath := Link.arrives_add _ (sound_of_delivers hdelivers hready)
  rw [hready, Nat.zero_add, ← hwire] at hpath
  exact hpath.lift (fun link => { n with toServer := link }) fun left right harrives =>
    Network.Step.arriveServer (n := { n with toServer := left }) harrives

theorem Network.arrives_client (hready : n.toClient.ready = 0)
    (hdelivers : Delivers n.client.msgio.client.incoming text rest)
    (hwire : n.server.msgio.wire = n.toClient.taken ++ text) :
    ReflTransGen (Network.Step config platform verbose) n
      { n with
        toClient := ⟨n.toClient.taken, n.client.msgio.client.incoming.length - rest.length⟩ } := by
  have hpath := Link.arrives_add _ (sound_of_delivers hdelivers hready)
  rw [hready, Nat.zero_add, ← hwire] at hpath
  exact hpath.lift (fun link => { n with toClient := link }) fun left right harrives =>
    Network.Step.arriveClient (n := { n with toClient := left }) harrives

/-! ## The turns, when a line is read -/

theorem MsgIo.wire_of_flushed {msgio : MsgIo} (hempty : msgio.wbuffer = []) :
    msgio.wire = msgio.text := by
  rw [MsgIo.text, hempty, List.append_nil]

/-- A line arrives and the server takes its turn. -/
theorem Network.server_turn (hready : n.toServer.ready = 0)
    (hdelivers : Delivers n.server.msgio.client.incoming text rest)
    (hwire : n.client.msgio.wire = n.toServer.taken ++ text)
    (hrest : n.server.msgio.read.2.client.incoming = rest) :
    ∃ link, ReflTransGen (Network.Step config platform verbose) n { n with toServer := link } ∧
      n.server.msgio.usedCount ≤ link.ready ∧
      n.server.msgio.useLink link = ⟨n.toServer.taken ++ text, 0⟩ := by
  obtain ⟨hused, huse⟩ :=
    @MsgIo.useLink_of_delivers n.server.msgio ⟨n.toServer.taken, _⟩ _ _ hdelivers hrest rfl
  exact ⟨_, Network.arrives_server hready hdelivers hwire, hused, huse⟩

/-- A line arrives and the client takes its turn. -/
theorem Network.client_turn (hready : n.toClient.ready = 0)
    (hdelivers : Delivers n.client.msgio.client.incoming text rest)
    (hwire : n.server.msgio.wire = n.toClient.taken ++ text)
    (hrest : n.client.msgio.read.2.client.incoming = rest) :
    ∃ link, ReflTransGen (Network.Step config platform verbose) n { n with toClient := link } ∧
      n.client.msgio.usedCount ≤ link.ready ∧
      n.client.msgio.useLink link = ⟨n.toClient.taken ++ text, 0⟩ := by
  obtain ⟨hused, huse⟩ :=
    @MsgIo.useLink_of_delivers n.client.msgio ⟨n.toClient.taken, _⟩ _ _ hdelivers hrest rfl
  exact ⟨_, Network.arrives_client hready hdelivers hwire, hused, huse⟩

/-! ## The parties of an exchange -/

section

variable {requested answered : Client} {prepared : Prepared} {called last : World sys}
  {verdict : Msg4} {session : Session} {middle : List Recv}

/-- The client when it has sent the messages 0 and 1. -/
theorem Exchange.client_requested
    (hexchange : Exchange config platform verbose connection start requested answered prepared
      called last verdict session) :
    requested.msgio.wire = messageLine platform.msg01 ∧
      requested.msgio.client.incoming = connection.incoming ∧
      requested.msgio.client.allocs = [] := by
  have hrequest := hexchange.request
  have hwire := MsgIo.wire_of_flushed hexchange.requested_wbuffer
  rw [(Client.requested_of_start hrequest).text] at hwire
  rcases Client.requestMsg2_start platform (.connected connection) with hsent | ⟨clock, hrefused⟩
  · rw [hsent] at hrequest
    cases hrequest
    have hreceiver := (MsgIo.sendPartial_receiver (.connected connection)
      (leBytes 4 (platform.sgxGetExtendedEpidGroupId 1).2)).trans
        (MsgIo.send_receiver _ (platform.sgxRaGetMsg1 2).2.bytes)
    exact ⟨hwire, hreceiver.incoming, hreceiver.allocs.trans hexchange.allocs.1⟩
  · rw [hrefused] at hrequest
    cases hrequest

/-- The server when it has sent message 2. -/
theorem Exchange.server_called
    (hexchange : Exchange config platform verbose connection start requested answered prepared
      called last verdict session)
    (hmsg01 : Delivers start.msgio.client.incoming (messageLine platform.msg01) middle) :
    start.msgio.read.2.client.incoming = middle ∧ called.msgio.useStdio = false ∧
      called.msgio.rbuffer = [] ∧ called.msgio.wire = messageLine prepared.text ∧
      called.msgio.client.incoming = middle ∧ called.msgio.client.allocs = [] := by
  have hfresh := hexchange.fresh
  have hmalloc : (malloc start.msgio.client.allocs).1 = some .blank := by
    rw [hexchange.allocs.2]
    rfl
  obtain ⟨_, _, _, hrbuffer, hincoming, hallocs⟩ := MsgIo.read_hexstring hfresh.socket
    hfresh.rbuffer platform.msg01_ne_nil hmsg01 hmalloc
  obtain ⟨hsocket, hempty, _⟩ := hexchange.working.wbuffer_eq_nil hexchange.calls
  obtain ⟨next, hprocess, hsend⟩ := hexchange.calls
  have hturn := processMsg01_turn hfresh.socket hprocess
  have hcalled : (sendMsg2 prepared next).2 = called := congrArg Prod.snd hsend
  have hread := hcalled ▸ hturn.read
  have htext := hcalled ▸ hturn.text
  refine ⟨hincoming, hsocket, hread.rbuffer.trans hrbuffer, ?_, hread.incoming.trans hincoming, ?_⟩
  · rw [MsgIo.wire_of_flushed hempty, htext, hfresh.text, List.nil_append]
  · rw [hread.allocs, hallocs, hexchange.allocs.2]
    rfl

/-- The client when it has sent message 3. -/
theorem Exchange.client_answered
    (hexchange : Exchange config platform verbose connection start requested answered prepared
      called last verdict session)
    (hmsg2 : Delivers connection.incoming (messageLine prepared.text) middle) :
    requested.msgio.read.2.client.incoming = middle ∧ answered.msgio.useStdio = false ∧
      answered.msgio.rbuffer = [] ∧
      answered.msgio.wire = messageLine platform.msg01 ++ messageLine (platform.msg3 prepared.text) ∧
      answered.msgio.client.incoming = middle ∧ answered.msgio.client.allocs = [] := by
  have hrequested := Client.requested_of_start hexchange.request
  obtain ⟨hwire, hincoming, hallocs⟩ := hexchange.client_requested
  have hmalloc : (malloc requested.msgio.client.allocs).1 = some .blank := by
    rw [hallocs]
    rfl
  obtain ⟨memory, hread, hblock, hrbuffer, hrest, htail⟩ := MsgIo.read_hexstring hrequested.socket
    hrequested.rbuffer prepared.text_ne_nil (hincoming ▸ hmsg2) hmalloc
  have hdest : requested.readDest platform = memory := by
    rw [Client.readDest, hread]
    rfl
  have hturn := Client.receiveMsg2_turn platform verbose requested
  rw [hexchange.answer] at hturn
  have hempty := hexchange.answered_wbuffer
  cases hturn with
  | answered hrv =>
      obtain ⟨middle', hprocess, hsend⟩ := hexchange.calls
      have hsized := (processMsg01_turn hexchange.fresh.socket hprocess).sized
      have hsocket : requested.msgio.read.2.useStdio = false :=
        requested.msgio.read_quiet.1.trans hrequested.socket
      -- `sgx_ra_proc_msg2` is given the whole message.
      have hgiven : memory.slice 0 (Client.msg2Size memory) = prepared.text := by
        rw [hsized.msg2Size hblock, Memory.slice_eq_take_drop _ _ _ (by omega), List.drop_zero,
          List.take_length, hblock]
      rw [hdest, hgiven, hrequested.clock] at hempty ⊢
      have hreceiver :=
        MsgIo.send_receiver requested.msgio.read.2 (platform.msg3 prepared.text)
      refine ⟨hrest, hreceiver.useStdio.trans hsocket, hreceiver.rbuffer.trans hrbuffer, ?_,
        hreceiver.incoming.trans hrest, ?_⟩
      · rw [MsgIo.wire_of_flushed hempty]
        dsimp only
        rw [MsgIo.text_send hsocket, MsgIo.text_read, hrequested.text]
        rfl
      · refine hreceiver.allocs.trans ?_
        rw [htail, hallocs]
        rfl

/-- What the server has written in the end. -/
theorem Exchange.server_last
    (hexchange : Exchange config platform verbose connection start requested answered prepared
      called last verdict session) :
    last.msgio.wire = called.msgio.wire ++ messageLine verdict.bytes := by
  rw [wire_of_trusted hexchange.working hexchange.calls hexchange.judge hexchange.trusted,
    List.append_assoc]
  rfl

/-- `process_msg3` reads once, and for a trusted enclave it puts message 4 behind what is there. -/
theorem processMsg3_turn {msg1 : Msg1} {w w' : World sys} {session session' : Session}
    {msg4 : Msg4} (hsocket : w.msgio.useStdio = false)
    (hreturn : processMsg3 config msg1 session w = (some (some (msg4, session')), w'))
    (htrusted : msg4.status.isTrusted = true) :
    w'.msgio.rbuffer = w.msgio.read.2.rbuffer ∧
      w'.msgio.text = w.msgio.text ++ messageLine msg4.bytes := by
  obtain ⟨b64quote, response, report, haccepted⟩ := msg3Accepted_of_returns hreturn
  have hcheck := checkMsg3_eq_some_iff.mpr ⟨b64quote, response, report, haccepted, rfl, rfl⟩
  have hmsgio : (w.afterCheck config session b64quote response).msgio = w.msgio.read.2 := rfl
  have hstdio := w.msgio.read_quiet.1
  rw [processMsg3_of_accepted hcheck] at hreturn
  cases hsend : sendMsg4 { session with vk := (w.vkCall session).2 }
      (config.judgeEnclave w.readDest.quoteReportBody report)
      (w.afterCheck config session b64quote response) with
  | mk returned last =>
      rw [hsend] at hreturn
      obtain ⟨hsome, hlast⟩ := Prod.mk.inj hreturn
      subst hlast
      cases returned with
      | none => cases hsome
      | some answer =>
          cases hsome
          have hjudged :
              (config.judgeEnclave w.readDest.quoteReportBody report).status.isTrusted = true :=
            status_of_sendMsg4 hsend ▸ htrusted
          obtain ⟨_, hrbuffer, htext⟩ := sendMsg4_turn (hmsgio ▸ hstdio.trans hsocket) hjudged hsend
          rw [hmsgio] at htext hrbuffer
          rw [MsgIo.text_read] at htext
          exact ⟨hrbuffer, htext⟩

/-- It has read all it was sent, and the kernel has taken all it wrote. -/
theorem Exchange.server_left
    (hexchange : Exchange config platform verbose connection start requested answered prepared
      called last verdict session) (hspeaks : platform.Speaks) :
    last.msgio.wbuffer = [] ∧ last.msgio.rbuffer = [] := by
  obtain ⟨middle, rest, hmsg01, hmsg3⟩ := hexchange.serverLines
  obtain ⟨_, hsocket, hempty, hwire, hincoming, hallocs⟩ := hexchange.server_called hmsg01
  have hmalloc : (malloc called.msgio.client.allocs).1 = some .blank := by
    rw [hallocs]
    rfl
  obtain ⟨_, _, _, hread, _⟩ := MsgIo.read_hexstring hsocket hempty (hspeaks 4 prepared.text)
    (hincoming ▸ hmsg3) hmalloc
  obtain ⟨hrbuffer, htext⟩ := processMsg3_turn hsocket hexchange.judge hexchange.trusted
  obtain ⟨_, hqueued, _⟩ := hexchange.working.wbuffer_eq_nil hexchange.calls
  refine ⟨?_, hrbuffer.trans hread⟩
  rw [MsgIo.text, MsgIo.text, hqueued, List.append_nil, hexchange.server_last] at htext
  exact List.append_right_eq_self.mp htext

/-! ## The whole exchange -/

/-- The messages 0 and 1 arrive, and message 2 is made. -/
theorem Network.takes_msg01 (hphase : n.serverPhase = .awaitsMsg01) (hready : n.toServer.ready = 0)
    (hdelivers : Delivers n.server.msgio.client.incoming text rest)
    (hwire : n.client.msgio.wire = n.toServer.taken ++ text)
    (hrest : n.server.msgio.read.2.client.incoming = rest)
    (hcalls : CallsMsg3 config n.server prepared called) :
    ReflTransGen (Network.Step config platform verbose) n
      { n with
        server := called
        serverPhase := .awaitsMsg3 prepared
        toServer := ⟨n.toServer.taken ++ text, 0⟩ } := by
  obtain ⟨link, harrives, hused, huse⟩ :=
    @Network.server_turn _ config platform verbose n _ _ hready hdelivers hwire hrest
  refine .tail harrives ?_
  obtain ⟨next, hprocess, hsend⟩ := hcalls
  have hserve : Network.Step config platform verbose { n with toServer := link }
      (Network.serveMsg01 config { n with toServer := link }) := .serveMsg01 hphase hused
  have hnext : Network.serveMsg01 config { n with toServer := link } =
      { n with
        server := (sendMsg2 prepared next).2
        serverPhase := .awaitsMsg3 prepared
        toServer := n.server.msgio.useLink link } := by
    unfold Network.serveMsg01
    rw [hprocess]
    rfl
  rw [hnext, hsend, huse] at hserve
  exact hserve

/-- Message 2 arrives and is answered. -/
theorem Network.takes_msg2 (hphase : n.clientPhase = .awaitsMsg2) (hready : n.toClient.ready = 0)
    (hdelivers : Delivers n.client.msgio.client.incoming text rest)
    (hwire : n.server.msgio.wire = n.toClient.taken ++ text)
    (hrest : n.client.msgio.read.2.client.incoming = rest)
    (hanswer : Client.receiveMsg2 platform verbose n.client = (some true, answered)) :
    ReflTransGen (Network.Step config platform verbose) n
      { n with
        client := answered
        clientPhase := .awaitsMsg4
        toClient := ⟨n.toClient.taken ++ text, 0⟩ } := by
  obtain ⟨link, harrives, hused, huse⟩ :=
    @Network.client_turn _ config platform verbose n _ _ hready hdelivers hwire hrest
  refine .tail harrives ?_
  have hturn : Network.Step config platform verbose { n with toClient := link }
      (Network.receiveMsg2 platform verbose { n with toClient := link }) :=
    .receiveMsg2 hphase hused
  have hnext : Network.receiveMsg2 platform verbose { n with toClient := link } =
      { n with
        client := answered
        clientPhase := .awaitsMsg4
        toClient := n.client.msgio.useLink link } := by
    unfold Network.receiveMsg2
    rw [hanswer]
    rfl
  rw [hnext, huse] at hturn
  exact hturn

/-- Message 3 arrives and is judged. -/
theorem Network.takes_msg3 (hphase : n.serverPhase = .awaitsMsg3 prepared)
    (hready : n.toServer.ready = 0)
    (hdelivers : Delivers n.server.msgio.client.incoming text rest)
    (hwire : n.client.msgio.wire = n.toServer.taken ++ text)
    (hrest : n.server.msgio.read.2.client.incoming = rest) {result : Option (Msg4 × Session)}
    (hjudge : processMsg3 config prepared.msg1 prepared.session n.server = (some result, last)) :
    ReflTransGen (Network.Step config platform verbose) n
      { n with
        server := last
        serverPhase := .judged prepared n.server result
        toServer := ⟨n.toServer.taken ++ text, 0⟩ } := by
  obtain ⟨link, harrives, hused, huse⟩ :=
    @Network.server_turn _ config platform verbose n _ _ hready hdelivers hwire hrest
  refine .tail harrives ?_
  have hserve : Network.Step config platform verbose { n with toServer := link }
      (Network.serveMsg3 config prepared { n with toServer := link }) := .serveMsg3 hphase hused
  have hnext : Network.serveMsg3 config prepared { n with toServer := link } =
      { n with
        server := last
        serverPhase := .judged prepared n.server result
        toServer := n.server.msgio.useLink link } := by
    unfold Network.serveMsg3
    rw [hjudge]
    rfl
  rw [hnext, huse] at hserve
  exact hserve

/-- Message 4 arrives. -/
theorem Network.takes_msg4 (hphase : n.clientPhase = .awaitsMsg4) (hready : n.toClient.ready = 0)
    (hdelivers : Delivers n.client.msgio.client.incoming text rest)
    (hwire : n.server.msgio.wire = n.toClient.taken ++ text)
    (hrest : n.client.msgio.read.2.client.incoming = rest) :
    ∃ link, ReflTransGen (Network.Step config platform verbose) n
      { n with
        client := (Client.receiveMsg4 platform n.client).2
        clientPhase := .ended
        toClient := link } := by
  obtain ⟨link, harrives, hused, huse⟩ :=
    @Network.client_turn _ config platform verbose n _ _ hready hdelivers hwire hrest
  have hturn : Network.Step config platform verbose { n with toClient := link }
      (Network.receiveMsg4 platform { n with toClient := link }) := .receiveMsg4 hphase hused
  exact ⟨_, .tail harrives hturn⟩

/-- When every call succeeds and the lines arrive, the client receives its message 4. -/
theorem Exchange.reaches_end
    (hexchange : Exchange config platform verbose connection start requested answered prepared
      called last verdict session) (hspeaks : platform.Speaks) :
    ∃ n, Network.Reachable config platform verbose connection start n ∧
      n.clientPhase = .ended ∧ n.serverPhase = .judged prepared called (some (verdict, session)) ∧
        ∃ msg4, .receivedMsg4 msg4 ∈ n.client.log ∧ msg4.block = verdict.bytes := by
  obtain ⟨middle, rest, hmsg01, hmsg3⟩ := hexchange.serverLines
  obtain ⟨middle', rest', hmsg2, hmsg4⟩ := hexchange.clientLines
  obtain ⟨hwire, hincoming, _⟩ := hexchange.client_requested
  obtain ⟨hread, hsocket, hempty, hwire2, hincoming2, hallocs2⟩ := hexchange.server_called hmsg01
  obtain ⟨hread2, hsocket3, hempty3, hwire3, hincoming3, hallocs3⟩ :=
    hexchange.client_answered hmsg2
  have hlast := hexchange.server_last
  have hmalloc : ∀ {allocs : List (Option Heap)}, allocs = [] → (malloc allocs).1 = some .blank := by
    rintro _ rfl
    rfl
  obtain ⟨_, _, _, _, hread3, _⟩ := MsgIo.read_hexstring hsocket hempty (hspeaks 4 prepared.text)
    (hincoming2 ▸ hmsg3) (hmalloc hallocs2)
  obtain ⟨memory, hresult, hblock, _, hread4, _⟩ := MsgIo.read_hexstring hsocket3 hempty3
    verdict.bytes_ne_nil (hincoming3 ▸ hmsg4) (hmalloc hallocs3)
  -- The states in which the messages are taken.
  let n1 : Network sys := ⟨requested, .awaitsMsg2, start, .awaitsMsg01, .opened, .opened⟩
  let n2 : Network sys :=
    ⟨requested, .awaitsMsg2, called, .awaitsMsg3 prepared, ⟨messageLine platform.msg01, 0⟩, .opened⟩
  let n3 : Network sys :=
    ⟨answered, .awaitsMsg4, called, .awaitsMsg3 prepared, ⟨messageLine platform.msg01, 0⟩,
      ⟨messageLine prepared.text, 0⟩⟩
  let n4 : Network sys :=
    ⟨answered, .awaitsMsg4, last, .judged prepared called (some (verdict, session)),
      ⟨messageLine platform.msg01 ++ messageLine (platform.msg3 prepared.text), 0⟩,
      ⟨messageLine prepared.text, 0⟩⟩
  -- Each message is taken as soon as its line has arrived.
  have hrequest : (Network.opened connection start).request platform = n1 := by
    unfold Network.request Network.opened
    rw [hexchange.request]
    rfl
  have h1 : Network.Reachable config platform verbose connection start n1 :=
    hrequest ▸ .single (.request rfl)
  have h2 : ReflTransGen (Network.Step config platform verbose) n1 n2 :=
    @Network.takes_msg01 _ _ _ _ n1 _ _ _ _ rfl rfl hmsg01 hwire hread hexchange.calls
  have h3 : ReflTransGen (Network.Step config platform verbose) n2 n3 :=
    @Network.takes_msg2 _ _ _ _ n2 _ _ _ rfl rfl (hincoming ▸ hmsg2) hwire2 hread2 hexchange.answer
  have h4 : ReflTransGen (Network.Step config platform verbose) n3 n4 :=
    @Network.takes_msg3 _ _ _ _ n3 _ _ _ _ rfl rfl (hincoming2 ▸ hmsg3) hwire3 hread3 _
      hexchange.judge
  obtain ⟨link, h5⟩ := @Network.takes_msg4 _ config platform verbose n4 _ _ rfl rfl
    (hincoming3 ▸ hmsg4) (hlast.trans (congrArg (· ++ messageLine verdict.bytes) hwire2)) hread4
  refine ⟨_, (((h1.trans h2).trans h3).trans h4).trans h5, rfl, rfl, memory, ?_, hblock⟩
  have hrv : answered.readRv = 1 := by
    rw [Client.readRv, hresult]
  have hdest : answered.readDest platform = memory := by
    rw [Client.readDest, hresult]
    rfl
  change _ ∈ (Client.receiveMsg4 platform answered).2.log
  rw [Client.log_receiveMsg4, hrv, if_neg (by decide), hdest]
  exact List.mem_append_right _ (Client.receivedMsg4_mem_msg4Log.mpr rfl)

end

end

/-! ## A client whose messages are plain -/

/-- A client that has sent the plain messages 0 and 1 answers the message 2 that it receives. -/
theorem Client.answer_plain {connection : Connection} {message : Bytes} {rest : List Recv}
    (hconnection : connection.outgoing = [] ∧ connection.allocs = []) (hmessage : message ≠ [])
    (hline : Delivers connection.incoming (messageLine message) rest) :
    (requestedPlain connection).msgio.wbuffer = [] ∧
      ∃ answered, receiveMsg2 .plain false (requestedPlain connection) = (some true, answered) ∧
        answered.msgio.wbuffer = [] := by
  have hrequested := requested_of_start (request_plain connection)
  have hpartial := MsgIo.sendPartial_receiver (.connected connection) (leBytes 4 0)
  have hreceiver := hpartial.trans (MsgIo.send_receiver _ (⟨basePoint, .zero 4⟩ : Msg1).bytes)
  have hflushed := requestedPlain_wbuffer hconnection.1
  have houtgoing : (requestedPlain connection).msgio.client.outgoing = [] := by
    have hless := MsgIo.send_outgoing hpartial.useStdio (⟨basePoint, .zero 4⟩ : Msg1).bytes
    rw [MsgIo.sendPartial_socket rfl] at hless
    exact List.suffix_nil.mp (hconnection.1 ▸ hless)
  refine ⟨hflushed, ?_⟩
  have hmalloc : (malloc (requestedPlain connection).msgio.client.allocs).1 = some .blank := by
    have hallocs : (requestedPlain connection).msgio.client.allocs = [] :=
      hreceiver.allocs.trans hconnection.2
    rw [hallocs]
    rfl
  obtain ⟨memory, hread, _⟩ := MsgIo.read_hexstring hrequested.socket hrequested.rbuffer hmessage
    (hreceiver.incoming ▸ hline) hmalloc
  have hrv : ¬ ((requestedPlain connection).readRv = 0 ∨ (requestedPlain connection).readRv = -1) := by
    rw [readRv, hread]
    simp
  have hturn := receiveMsg2_turn .plain false (requestedPlain connection)
  generalize hanswer : receiveMsg2 .plain false (requestedPlain connection) = result at hturn ⊢
  cases hturn with
  | unread hnothing => exact absurd hnothing hrv
  | refused _ hstatus => exact absurd rfl hstatus
  | answered _ =>
      refine ⟨_, rfl, ?_⟩
      obtain ⟨hstdio, hwbuffer, _, hsame⟩ := (requestedPlain connection).msgio.read_quiet
      refine (MsgIo.send_wbuffer_eq_nil_iff (hstdio.trans hrequested.socket) _).mpr
        (MsgIo.flushes_of_no_error ?_ ?_)
      · rw [hsame, houtgoing]
        exact List.not_mem_nil
      · rw [hwbuffer, hflushed]
        change 0 + 2 * (plainMsg3 692).length + 1 < 2 ^ 31
        rw [length_plainMsg3]
        decide

/-- A server that trusts it. -/
theorem judged_plain :
    ∃ (prepared : Prepared) (called last : World (.reporting .zero (reportText "OK")))
      (verdict : Msg4) (session : Session),
      CallsMsg3 (.plain _ ()) (.serving _ [.plainMsg01, .plainMsg3]) prepared called ∧
        processMsg3 (.plain _ ()) prepared.msg1 prepared.session called =
          (some (some (verdict, session)), last) ∧ verdict.status.isTrusted := by
  obtain ⟨prepared, called, hcalls, hmsg1, hread⟩ := callsMsg3_plain .zero (reportText "OK")
    (Recv.delivers_line _ _ [.plainMsg3]) (Recv.delivers_line (plainMsg3 692) _ [])
    (plainMsg3_ne_nil _)
  have hzero := plainFields_plainMsg3 (n := 692) (by decide)
  have haccepted := msg3Accepted_plain prepared.session hread hmsg1 hzero rfl
    (fun _ => rfl) evaluateReport_ok
  have hjudged := judgeEnclave_plain ⟨.trusted, .zero _, .zero _⟩ hread hzero
  obtain ⟨verdict, session, last, hjudge, hstatus⟩ := processMsg3_returns haccepted
  refine ⟨prepared, called, last, verdict, session, hcalls, hjudge, ?_⟩
  rw [hstatus, hjudged]
  rfl

/-- They go through the whole exchange. -/
theorem exchange_plain :
    ∃ (connection : Connection) (requested answered : Client) (prepared : Prepared)
      (called last : World (.reporting .zero (reportText "OK"))) (verdict : Msg4)
      (session : Session),
      Exchange (.plain _ ()) .plain false connection (.serving _ [.plainMsg01, .plainMsg3]) requested
        answered prepared called last verdict session := by
  obtain ⟨prepared, called, last, verdict, session, hcalls, hjudge, htrusted⟩ := judged_plain
  have hshort : prepared.text.length = 168 := by
    have hread : (World.serving (.reporting .zero (reportText "OK"))
        [.plainMsg01, .plainMsg3]).Receives plainMsg01 [.plainMsg3] :=
      World.receives_line rfl rfl plainMsg01_ne_nil (Recv.delivers_line _ _ _) rfl
    obtain ⟨made, next, hprocess, _, hsigrl, _⟩ := processMsg01_plain hread
    obtain ⟨rfl, _⟩ := hcalls.unique ⟨next, hprocess, rfl⟩
    rw [Prepared.text, hsigrl, List.append_nil, Msg2.length_bytes, sizeofMsg2]
  have hfits : 2 * prepared.text.length < msgioBufferSz := by
    rw [hshort]
    decide
  have hfits' : 2 * verdict.bytes.length < msgioBufferSz := by
    rw [verdict.length_bytes]
    decide
  obtain ⟨connection, hconnection⟩ : ∃ connection : Connection, connection =
      .sending [.line prepared.text hfits, .line verdict.bytes hfits'] := ⟨_, rfl⟩
  have hline : Delivers connection.incoming (messageLine prepared.text)
      [.line verdict.bytes hfits'] := by
    rw [hconnection]
    exact Recv.delivers_line _ _ _
  have hworks : connection.outgoing = [] ∧ connection.allocs = [] := by
    rw [hconnection]
    exact ⟨rfl, rfl⟩
  obtain ⟨hflushed, answered, hanswer, hanswered⟩ :=
    Client.answer_plain hworks prepared.text_ne_nil hline
  refine ⟨connection, .requestedPlain connection, answered, prepared, called, last, verdict,
    session, ?_⟩
  exact
    { fresh := ⟨rfl, rfl, rfl⟩
      working := workingSocket_plain _ _ _
      allocs := ⟨hworks.2, rfl⟩
      request := Client.request_plain _
      requested_wbuffer := hflushed
      calls := hcalls
      answer := hanswer
      answered_wbuffer := hanswered
      judge := hjudge
      trusted := htrusted
      serverLines := by
        refine ⟨[.plainMsg3], [], ?_, Recv.delivers_line (plainMsg3 692) _ []⟩
        rw [Platform.plain_msg01]
        exact Recv.delivers_line plainMsg01 _ _
      clientLines := ⟨_, [], hline, Recv.delivers_line _ _ []⟩ }

end RemoteAttestation
