import RemoteAttestation.ServiceProvider.Authorisation

/-! # What becomes of a verdict

Message 4 is queued in pieces, and only the piece that a trusted enclave is sent ends
the line. So a client reads its verdict exactly if the verdict is to trust it.
-/

namespace RemoteAttestation

open Proc

variable {sys : Sys}

/-- The session is on a socket, and the kernel takes all that is sent in it. -/
structure WorkingSocket (config : Config sys) (start : World sys) : Prop where
  socket : start.msgio.useStdio = false
  flushes : ∀ before src, Event.send before src ∈ sessionEvents config start → before.Flushes src

/-- A client that has read everything before reads the next line as this message 4,
however the line arrives. -/
def ReadsMsg4 (body : Bytes) (msg4 : Msg4) : Prop :=
  ∀ (client : MsgIo) (rest : List Recv) (heap : Heap), client.useStdio = false →
    client.rbuffer = [] → Delivers client.client.incoming (body ++ [10]) rest →
    (malloc client.client.allocs).1 = some heap →
    ∃ memory sz, client.read.1 = ⟨1, some memory, sz⟩ ∧
      memory.msg4Status = msg4.status.toNat ∧
      memory.msg4PlatformInfoBlob = msg4.platformInfoBlob

/-- Between two worlds a line was written which the client reads as this message 4. -/
def DeliversMsg4 (w w' : World sys) (msg4 : Msg4) : Prop :=
  ∃ body rest, w'.msgio.wire = w.msgio.wire ++ body ++ [10] ++ rest ∧ (10 : UInt8) ∉ body ∧
    ReadsMsg4 body msg4

/-- The reply to the report request of message 3 has a status that is trusted, and the
policy admits the enclave. -/
structure VerdictTrusted (config : Config sys) (events : List (Event sys)) (report : ReportBody) :
    Prop where
  status : ∃ request response reportObj, Event.request request (some response) ∈ events ∧
    Json.load response.content = .ok reportObj ∧
    AcceptableStatus config.strictTrust (quoteStatus reportObj)
  identity : IdentityAllowed config report

/-- The text of a message 4 is read as this message 4. -/
theorem readsMsg4_hexstring (msg4 : Msg4) : ReadsMsg4 (hexstring msg4.bytes) msg4 := by
  intro client rest heap hsocket hempty hline hmalloc
  have hmessage : msg4.bytes ≠ [] :=
    List.ne_nil_of_length_pos (by rw [msg4.length_bytes]; omega)
  obtain ⟨memory, hread, hblock, _⟩ :=
    MsgIo.read_hexstring hsocket hempty hmessage hline hmalloc
  obtain ⟨hstatus, hblob, _⟩ := Memory.msg4_fields hblock
  exact ⟨memory, _, hread, hstatus, hblob⟩

section

variable {config : Config sys} {start w : World sys} {prepared : Prepared}

/-- Where the kernel reports no error, it takes the ciphertext. -/
theorem flushes_processMsg3 {msg1 : Msg1} {session : Session} (hsocket : w.msgio.useStdio = false)
    (hempty : w.msgio.wbuffer = []) (hok : Sent.error ∉ w.msgio.client.outgoing)
    {before : MsgIo} {src : Bytes}
    (hmem : Event.send before src ∈ emitted (processMsg3 config msg1 session) w) :
    before.Flushes src := by
  obtain ⟨b64quote, response, msg4, haccepted, htrusted⟩ :=
    processMsg3_sends_iff.mp ⟨before, src, hmem⟩
  have hcheck := checkMsg3_eq_some_iff.mpr ⟨b64quote, response, msg4, haccepted, rfl, rfl⟩
  have hquiet := frame_quiet.checkMsg3 config msg1 session w
  rw [hcheck] at hquiet
  rw [emitted_processMsg3 haccepted htrusted] at hmem
  simp only [World.checkEvents, World.verdictEvents, World.keyEvents, List.cons_append,
    List.nil_append, List.mem_cons, List.not_mem_nil, reduceCtorEq, Event.send.injEq, or_false,
    false_or] at hmem
  obtain ⟨rfl, rfl⟩ := hmem
  have hverdict := World.afterVerdict_msgio (hquiet.useStdio.trans hsocket)
    (config.judgeEnclave w.readDest.quoteReportBody msg4)
  apply MsgIo.flushes_of_no_error
  · rw [hverdict]
    exact hquiet.outgoing ▸ hok
  · rw [hverdict, hquiet.wbuffer, hempty]
    simp only [List.nil_append, List.length_append, length_hexstring, length_leBytes,
      Block.length_bytes, sizeofPlatformInfo]
    decide

/-- A kernel that reports no error makes a working socket, while the revocation list is
of reasonable size. -/
theorem workingSocket_of_no_error (hsocket : start.msgio.useStdio = false)
    (hempty : start.msgio.wbuffer = []) (hok : Sent.error ∉ start.msgio.client.outgoing)
    (hsigrl : ∀ prepared next, processMsg01 config start = (some (some prepared), next) →
      prepared.sigrl.length < 2 ^ 29) : WorkingSocket config start := by
  refine ⟨hsocket, ?_⟩
  intro before src hmem
  have hquiet := frame_quiet.processMsg01 config start
  have hnone : Event.send before src ∉ emitted (processMsg01 config) start :=
    fun h => not_sends_of_quiet hquiet ⟨before, src, h⟩
  by_cases hreturn : ∃ prepared next, processMsg01 config start = (some (some prepared), next)
  · obtain ⟨prepared, next, hprocess⟩ := hreturn
    have hshort := hsigrl prepared next hprocess
    rw [hprocess] at hquiet
    rw [sessionEvents_eq hprocess rfl] at hmem
    have hqueued := MsgIo.sendPartial_socket (hquiet.useStdio.trans hsocket) prepared.msg2.bytes
    have hpartial : (next.msgio.sendPartial prepared.msg2.bytes).useStdio = false := by
      rw [hqueued]
      exact hquiet.useStdio.trans hsocket
    have houtgoing : Sent.error ∉ (next.msgio.sendPartial prepared.msg2.bytes).client.outgoing := by
      rw [hqueued]
      exact hquiet.outgoing ▸ hok
    have hmsg2 : (next.msgio.sendPartial prepared.msg2.bytes).Flushes
        (prepared.sigrl.take prepared.msg2.sigRlSize) := by
      apply MsgIo.flushes_of_no_error houtgoing
      rw [hqueued, hquiet.wbuffer, hempty]
      simp only [List.nil_append, length_hexstring, Msg2.length_bytes, sizeofMsg2,
        List.length_take]
      omega
    rcases List.mem_append.mp hmem with hmem | hmem
    · exact absurd hmem hnone
    · rcases List.mem_append.mp hmem with hmem | hmem
      · simp only [msg2Events, List.mem_cons, List.not_mem_nil, reduceCtorEq, Event.send.injEq,
          or_false, false_or] at hmem
        obtain ⟨rfl, rfl⟩ := hmem
        exact hmsg2
      · refine flushes_processMsg3 ?_ ?_ ?_ hmem
        · exact (MsgIo.send_receiver _ _).useStdio.trans hpartial
        · exact (MsgIo.send_wbuffer_eq_nil_iff hpartial _).mpr hmsg2
        · exact fun h => houtgoing ((MsgIo.send_outgoing hpartial _).subset h)
  · rw [sessionEvents_of_rejected] at hmem
    · exact absurd hmem hnone
    · exact fun prepared next hprocess => hreturn ⟨prepared, next, hprocess⟩

/-- When message 3 is read on a working socket, message 2 has left the buffer. -/
theorem WorkingSocket.wbuffer_eq_nil (hworking : WorkingSocket config start)
    (hcalls : CallsMsg3 config start prepared w) :
    w.msgio.useStdio = false ∧ w.msgio.wbuffer = [] ∧
      ∀ before src, Event.send before src ∈
        emitted (processMsg3 config prepared.msg1 prepared.session) w → before.Flushes src := by
  obtain ⟨next, hprocess, hsend⟩ := hcalls
  have hquiet := frame_quiet.processMsg01 config start
  rw [hprocess] at hquiet
  have hflushes := hworking.flushes
  rw [sessionEvents_eq hprocess hsend] at hflushes
  have hpartial : (next.msgio.sendPartial prepared.msg2.bytes).useStdio = false := by
    rw [(MsgIo.sendPartial_receiver _ _).useStdio, hquiet.useStdio, hworking.socket]
  have hmsg2 : (next.msgio.sendPartial prepared.msg2.bytes).Flushes
      (prepared.sigrl.take prepared.msg2.sigRlSize) := by
    refine hflushes _ _ (List.mem_append_right _ (List.mem_append_left _ ?_))
    simp [msg2Events]
  cases hsend
  refine ⟨(MsgIo.send_receiver _ _).useStdio.trans hpartial,
    (MsgIo.send_wbuffer_eq_nil_iff hpartial _).mpr hmsg2, ?_⟩
  intro before src hmem
  exact hflushes before src (List.mem_append_right _ (List.mem_append_right _ hmem))

/-- The end of `process_msg3` writes one line for a trusted verdict and nothing for another. -/
theorem wire_sendMsg4 {session session' : Session} {judged msg4 : Msg4} {w' : World sys}
    (hsocket : w.msgio.useStdio = false) (hempty : w.msgio.wbuffer = [])
    (hreturn : sendMsg4 session judged w = (some (msg4, session'), w')) :
    (judged.status.isTrusted = true →
      (w.afterVerdict judged).msgio.Flushes (w.ciphertext session).bytes →
      w'.msgio.wire = w.msgio.wire ++ hexstring msg4.bytes ++ [10]) ∧
      (judged.status.isTrusted = false → w'.msgio.wire = w.msgio.wire) := by
  have hverdict := World.afterVerdict_msgio hsocket judged
  constructor
  · intro htrusted hflush
    obtain ⟨next, hmsgio, _, hsend⟩ := sendMsg4_of_trusted session w htrusted
    rw [hsend] at hreturn
    cases hreturn
    have hstdio : (w.afterVerdict judged).msgio.useStdio = false := by
      rw [hverdict]
      exact hsocket
    rw [World.afterSend_msgio, hmsgio, MsgIo.send_wire_of_flushes hstdio hflush, hverdict]
    simp only [hempty, Msg4.bytes, hexstring_append, List.nil_append, List.append_assoc]
  · intro huntrusted
    rw [sendMsg4_of_untrusted w huntrusted] at hreturn
    cases hreturn
    rw [hverdict]

/-- `process_msg3` writes one line for a trusted verdict and nothing for another. -/
theorem wire_processMsg3 {msg1 : Msg1} {session session' : Session} {b64quote : Bytes}
    {response : Response} {report msg4 : Msg4} {w' : World sys}
    (hsocket : w.msgio.useStdio = false) (hempty : w.msgio.wbuffer = [])
    (haccepted : Msg3Accepted config msg1 session w b64quote response report)
    (hreturn : processMsg3 config msg1 session w = (some (some (msg4, session')), w')) :
    let judged := config.judgeEnclave w.readDest.quoteReportBody report
    (judged.status.isTrusted = true →
      (∀ before src, Event.send before src ∈ emitted (processMsg3 config msg1 session) w →
        before.Flushes src) →
      w'.msgio.wire = w.msgio.wire ++ hexstring msg4.bytes ++ [10]) ∧
      (judged.status.isTrusted = false → w'.msgio.wire = w.msgio.wire) := by
  intro judged
  have hcheck := checkMsg3_eq_some_iff.mpr ⟨b64quote, response, report, haccepted, rfl, rfl⟩
  have hquiet := frame_quiet.checkMsg3 config msg1 session w
  rw [hcheck] at hquiet
  rw [processMsg3_of_accepted hcheck] at hreturn
  cases hsend : sendMsg4 { session with vk := (w.vkCall session).2 } judged
      (w.afterCheck config session b64quote response) with
  | mk returned last =>
      rw [hsend] at hreturn
      cases returned with
      | none => cases hreturn
      | some answer =>
          cases hreturn
          obtain ⟨hline, hnothing⟩ := wire_sendMsg4 (hquiet.useStdio.trans hsocket)
            (hquiet.wbuffer.trans hempty) hsend
          rw [hquiet.wire] at hline hnothing
          refine ⟨fun htrusted hflushes => hline htrusted (hflushes _ _ ?_), hnothing⟩
          rw [emitted_processMsg3 haccepted htrusted]
          exact List.mem_append_right _ List.mem_cons_self

/-- The verdict after the policy, in terms of the reply and of the policy. -/
theorem verdictTrusted_iff {msg1 : Msg1} {session : Session} {b64quote : Bytes}
    {response : Response} {report : Msg4}
    (haccepted : Msg3Accepted config msg1 session w b64quote response report) :
    VerdictTrusted config (emitted (processMsg3 config msg1 session) w)
        w.readDest.quoteReportBody ↔
      (config.judgeEnclave w.readDest.quoteReportBody report).status.isTrusted = true := by
  obtain ⟨reportObj, hload, hverdict⟩ := evaluateReport_eq_some haccepted.report.evaluated
  cases htrusted : (config.judgeEnclave w.readDest.quoteReportBody report).status.isTrusted with
  | true =>
      obtain ⟨hidentity, hstatus⟩ := isTrusted_judgeEnclave.mp htrusted
      rw [hverdict] at hstatus
      rw [emitted_processMsg3 haccepted htrusted]
      refine iff_of_true ?_ rfl
      refine ⟨⟨w.ias.reportRequest config.apiver [(ascii "isvEnclaveQuote", cstr b64quote)],
        response, reportObj, ?_, hload, isTrusted_attestationStatus_iff.mp hstatus⟩,
        verifyEnclaveIdentity_iff.mp hidentity⟩
      simp [World.checkEvents]
  | false =>
      rw [emitted_processMsg3_of_untrusted haccepted htrusted]
      refine iff_of_false ?_ (by simp)
      rintro ⟨⟨request, response', reportObj', hmem, hload', hacceptable⟩, hidentity⟩
      -- The only request in these events is the one for this report.
      simp only [World.checkEvents, World.verdictEvents, List.cons_append, List.nil_append,
        List.mem_cons, List.not_mem_nil, reduceCtorEq, Event.request.injEq, Option.some.injEq,
        or_false, false_or] at hmem
      obtain ⟨_, rfl⟩ := hmem
      rw [hload] at hload'
      cases hload'
      refine absurd (isTrusted_judgeEnclave.mpr ⟨verifyEnclaveIdentity_iff.mpr hidentity, ?_⟩)
        (Bool.eq_false_iff.mp htrusted)
      rw [hverdict]
      exact isTrusted_attestationStatus_iff.mpr hacceptable

/-- Where nothing was written no line was. -/
theorem not_deliversMsg4 {w' : World sys} (hwire : w'.msgio.wire = w.msgio.wire) (msg4 : Msg4) :
    ¬ DeliversMsg4 w w' msg4 := by
  rintro ⟨body, rest, hline, _⟩
  have hlength := congrArg List.length hline
  rw [hwire] at hlength
  simp only [List.length_append, List.length_singleton] at hlength
  omega

end

/-- A client that sends the plain messages 0 and 1 has a working socket. -/
theorem workingSocket_plain (digests : Digests) (content : Bytes) (rest : List Recv) :
    WorkingSocket (.plain (.reporting digests content) ()) (.serving _ (.plainMsg01 :: rest)) := by
  have hread : (World.serving (.reporting digests content) (.plainMsg01 :: rest)).Receives
      plainMsg01 rest :=
    World.receives_line rfl rfl (by decide) (Recv.delivers_line _ _ rest) rfl
  obtain ⟨prepared, next, hprocess, _, hsigrl, _⟩ := processMsg01_plain hread
  refine workingSocket_of_no_error rfl rfl (List.not_mem_nil) ?_
  intro prepared' next' hprocess'
  rw [hprocess] at hprocess'
  cases hprocess'
  rw [hsigrl]
  decide

theorem evaluateReport_groupOutOfDate :
    evaluateReport 4 false false (fun _ => 0) (reportText "GROUP_OUT_OF_DATE") =
      some (some ⟨.notTrustedItsComplicated, .zero _, .zero _⟩) := by
  decide +kernel

end RemoteAttestation
