import RemoteAttestation.ServiceProvider.Attestation
import RemoteAttestation.ServiceProvider.TransportTrace

/-! # What message 3 leads to

`checkMsg3` accepts a message exactly under the answers collected in `Msg3Accepted`;
the ciphertext is sent exactly if the message is accepted and the verdict is to trust.
Nothing is assumed about the calls: each answer is the one of the call's own time.
-/

namespace RemoteAttestation

open Proc

variable {sys : Sys}

namespace World

/-- The size of the quote in the next message, if that is message 3. -/
def quoteSz (w : World sys) : Nat := quoteSize w.readSz

/-- The bytes under the MAC of message 3. -/
def msg3Authenticated (w : World sys) : Bytes := w.readDest.slice 16 (sizeofMsg3 - 16 + w.quoteSz)

/-- The bytes that are sent to the attestation service as the quote. -/
def msg3Quote (w : World sys) : Bytes := w.readDest.slice sizeofMsg3 w.quoteSz

/-- The call that computes the MAC of message 3. -/
def vrfymac (w : World sys) (session : Session) : Bool × Block 16 :=
  sys.cmac128 (w.clock + 1) session.smk w.msg3Authenticated

/-- The world in which the report is asked for. -/
def atReport (w : World sys) (session : Session) : World sys :=
  (w.afterRead.tick [.cmac128 session.smk w.msg3Authenticated (w.vrfymac session).1
    (w.vrfymac session).2]).tick []

/-- The call that derives the key under which the report data was hashed. -/
def vkCall (w : World sys) (session : Session) : Bool × Block 16 :=
  sys.cmac128 (w.clock + 7) session.kdk (keyLabel "VK")

/-- What is hashed into the report data. -/
def reportText (w : World sys) (session : Session) : Bytes :=
  session.gA.bytes ++ session.gB.bytes ++ (w.vkCall session).2.bytes

def reportDigest (w : World sys) (session : Session) : Option (Block 32) :=
  sys.sha256Digest (w.clock + 8) (w.reportText session)

/-- The world after message 3 was accepted. -/
def afterCheck (w : World sys) (config : Config sys) (session : Session) (b64quote : Bytes)
    (response : Response) : World sys :=
  (((w.atReport session).afterReport config b64quote response).tick
    [.cmac128 session.kdk (keyLabel "VK") (w.vkCall session).1 (w.vkCall session).2]).tick
    [.sha256Digest (w.reportText session) (w.reportDigest session)]

/-- What the checks leave in the log when they accept. -/
def checkEvents (w : World sys) (config : Config sys) (session : Session) (b64quote : Bytes)
    (response : Response) : List (Event sys) :=
  [.read w.msgio,
    .cmac128 session.smk w.msg3Authenticated (w.vrfymac session).1 (w.vrfymac session).2,
    .request (w.ias.reportRequest config.apiver [(ascii "isvEnclaveQuote", cstr b64quote)])
      (some response),
    .cmac128 session.kdk (keyLabel "VK") (w.vkCall session).1 (w.vkCall session).2,
    .sha256Digest (w.reportText session) (w.reportDigest session)]

theorem afterCheck_log (w : World sys) (config : Config sys) (session : Session) (b64quote : Bytes)
    (response : Response) : (w.afterCheck config session b64quote response).log =
      w.log ++ w.checkEvents config session b64quote response := by
  simp [afterCheck, afterReport, afterRequest, atReport, checkEvents]

end World

/-- The answers and the contents of message 3 under which it is accepted. -/
structure Msg3Accepted (config : Config sys) (msg1 : Msg1) (session : Session) (w : World sys)
    (b64quote : Bytes) (response : Response) (msg4 : Msg4) : Prop where
  read_ok : w.readRv ≠ -1 ∧ w.readRv ≠ 0
  gA : w.readDest.msg3GA = msg1.gA
  mac : w.readDest.msg3Mac = (w.vrfymac session).2
  encoded : sys.base64Encode (w.clock + 2) w.msg3Quote = some b64quote
  gid : msg1.gid = w.readDest.quoteEpidGroupId
  report : ReportAccepted config b64quote (w.atReport session) response msg4
  reportData : ((w.reportDigest session).getD (.zero 32)).bytes ++ List.replicate 32 0 =
    w.readDest.quoteReportBody.reportData.bytes

/-- A check that rejects with a return value of 0 was passed if 1 is returned. -/
theorem reject_eq_some_iff {α : Type} {c : Prop} [Decidable c] {x : Proc (World sys) (Option α)}
    {w w' : World sys} {a : α} :
    (if c then pure none else x) w = (some (some a), w') ↔ ¬ c ∧ x w = (some (some a), w') := by
  by_cases hc : c
  · rw [if_pos hc]
    constructor
    · intro hreturn
      cases hreturn
    · exact fun h => absurd hc h.1
  · rw [if_neg hc]
    exact ⟨fun hreturn => ⟨hc, hreturn⟩, fun h => h.2⟩

theorem verifyReportData_eq_some_iff {session verified : Session} {msg3 : Memory}
    {w w' : World sys} :
    verifyReportData session msg3 w = (some (some verified), w') ↔
      let vk := sys.cmac128 w.clock session.kdk (keyLabel "VK")
      let text := session.gA.bytes ++ session.gB.bytes ++ vk.2.bytes
      let digest := sys.sha256Digest (w.clock + 1) text
      (digest.getD (.zero 32)).bytes ++ List.replicate 32 0 =
          msg3.quoteReportBody.reportData.bytes ∧
        verified = { session with vk := vk.2 } ∧
        w' = (w.tick [.cmac128 session.kdk (keyLabel "VK") vk.1 vk.2]).tick
          [.sha256Digest text digest] := by
  unfold verifyReportData
  simp +instances only [cmac128_bind, sha256Digest_bind, World.tick_clock]
  rw [reject_eq_some_iff, not_not]
  refine and_congr_right fun _ => ?_
  constructor
  · intro hreturn
    cases hreturn
    exact ⟨rfl, rfl⟩
  · rintro ⟨rfl, rfl⟩
    rfl

/-- `process_msg3` accepts message 3 exactly under these conditions. -/
theorem checkMsg3_eq_some_iff {config : Config sys} {msg1 : Msg1} {session : Session}
    {w w' : World sys} {checked : Session × Msg4} :
    checkMsg3 config msg1 session w = (some (some checked), w') ↔
      ∃ b64quote response msg4, Msg3Accepted config msg1 session w b64quote response msg4 ∧
        checked = ({ session with vk := (w.vkCall session).2 },
          config.judgeEnclave w.readDest.quoteReportBody msg4) ∧
        w' = w.afterCheck config session b64quote response := by
  unfold checkMsg3
  simp +instances only [read_bind, cmac128_bind, base64Encode_bind, reject_eq_some_iff,
    World.tick_clock, World.afterRead_clock, Nat.add_assoc, Nat.reduceAdd]
  constructor
  · rintro ⟨hsystem, hprotocol, hgA, hmac, hrest⟩
    cases hencoded : sys.base64Encode (w.clock + 2)
        (w.readDest.slice sizeofMsg3 (quoteSize w.readSz)) with
    | none =>
        rw [hencoded] at hrest
        cases hrest
    | some b64quote =>
        rw [hencoded] at hrest
        dsimp only at hrest
        rw [reject_eq_some_iff, bind_eq_some] at hrest
        obtain ⟨hgid, returned, next, hreport, hrest⟩ := hrest
        cases returned with
        | none => cases hrest
        | some msg4 =>
            obtain ⟨response, haccepted, rfl⟩ := getAttestationReport_eq_some_iff.mp hreport
            obtain ⟨verified, last, hverify, hrest⟩ := bind_eq_some.mp hrest
            cases verified with
            | none => cases hrest
            | some verified =>
                obtain ⟨hdata, rfl, rfl⟩ := verifyReportData_eq_some_iff.mp hverify
                cases hrest
                refine ⟨b64quote, response, msg4, ?_, rfl, rfl⟩
                exact ⟨⟨hsystem, hprotocol⟩, not_not.mp hgA, not_not.mp hmac, hencoded,
                  not_not.mp hgid, haccepted, hdata⟩
  · rintro ⟨b64quote, response, msg4, haccepted, rfl, rfl⟩
    refine ⟨haccepted.read_ok.1, haccepted.read_ok.2, not_not.mpr haccepted.gA,
      not_not.mpr haccepted.mac, ?_⟩
    have hencoded := haccepted.encoded
    unfold World.msg3Quote World.quoteSz at hencoded
    rw [hencoded]
    dsimp only
    rw [reject_eq_some_iff, bind_eq_some]
    refine ⟨not_not.mpr haccepted.gid, some msg4, _,
      getAttestationReport_eq_some_iff.mpr ⟨response, haccepted.report, rfl⟩, ?_⟩
    refine bind_eq_some.mpr ⟨some _, _,
      verifyReportData_eq_some_iff.mpr ⟨haccepted.reportData, rfl, rfl⟩, rfl⟩

/-! ## Message 4 -/

namespace World

/-- The world after status and platform info blob were queued. -/
def afterVerdict (w : World sys) (msg4 : Msg4) : World sys :=
  (w.afterSendPartial (leBytes 4 msg4.status.toNat)).afterSendPartial msg4.platformInfoBlob.bytes

def verdictEvents (w : World sys) (msg4 : Msg4) : List (Event sys) :=
  [.sendPartial w.msgio (leBytes 4 msg4.status.toNat),
    .sendPartial (w.msgio.sendPartial (leBytes 4 msg4.status.toNat)) msg4.platformInfoBlob.bytes]

theorem afterVerdict_log (w : World sys) (msg4 : Msg4) :
    (w.afterVerdict msg4).log = w.log ++ w.verdictEvents msg4 := by
  simp [afterVerdict, verdictEvents]

/-- The calls that derive the keys shared with a trusted enclave. -/
def mkCall (w : World sys) (session : Session) : Bool × Block 16 :=
  sys.cmac128 w.clock session.kdk (keyLabel "MK")

def skCall (w : World sys) (session : Session) : Bool × Block 16 :=
  sys.cmac128 (w.clock + 1) session.kdk (keyLabel "SK")

/-- The encrypted greeting for a trusted enclave. -/
def ciphertext (w : World sys) (session : Session) : Block 16 :=
  sys.aesEncrypt (w.skCall session).2 plaintext

/-- What deriving and hashing the keys leaves in the log. -/
def keyEvents (w : World sys) (session : Session) : List (Event sys) :=
  let mk := w.mkCall session
  let sk := w.skCall session
  [.cmac128 session.kdk (keyLabel "MK") mk.1 mk.2, .cmac128 session.kdk (keyLabel "SK") sk.1 sk.2,
    .sha256Digest mk.2.bytes (sys.sha256Digest (w.clock + 2) mk.2.bytes),
    .sha256Digest sk.2.bytes (sys.sha256Digest (w.clock + 3) sk.2.bytes)]

end World

/-- Status and blob are queued behind what is in the buffer, and nothing is written. -/
theorem World.afterVerdict_msgio {w : World sys} (hsocket : w.msgio.useStdio = false)
    (msg4 : Msg4) :
    (w.afterVerdict msg4).msgio = { w.msgio with
      wbuffer := w.msgio.wbuffer ++ hexstring (leBytes 4 msg4.status.toNat) ++
        hexstring msg4.platformInfoBlob.bytes } := by
  unfold World.afterVerdict
  rw [World.afterSendPartial_msgio, World.afterSendPartial_msgio, MsgIo.sendPartial_socket hsocket,
    MsgIo.sendPartial_socket]
  exact hsocket

theorem sendMsg4_of_untrusted {session : Session} {msg4 : Msg4} (w : World sys)
    (hstatus : msg4.status.isTrusted = false) :
    sendMsg4 session msg4 w = (some (msg4, session), w.afterVerdict msg4) := by
  unfold sendMsg4
  rw [sendPartial_bind, sendPartial_bind, if_neg (by simp [hstatus])]
  rfl

theorem sendMsg4_of_trusted (session : Session) {msg4 : Msg4} (w : World sys)
    (hstatus : msg4.status.isTrusted = true) :
    ∃ next : World sys, next.msgio = (w.afterVerdict msg4).msgio ∧
      next.log = w.log ++ w.verdictEvents msg4 ++ w.keyEvents session ∧
      sendMsg4 session msg4 w =
        (some ({ msg4 with ciphertext := w.ciphertext session },
            { session with mk := (w.mkCall session).2, sk := (w.skCall session).2 }),
          next.afterSend (w.ciphertext session).bytes) := by
  unfold sendMsg4
  rw [sendPartial_bind, sendPartial_bind, if_pos hstatus]
  refine ⟨_, ?_, ?_, rfl⟩
  · rfl
  · rw [← World.afterVerdict_log]
    simp only [World.tick_log, List.append_assoc]
    rfl

/-- The verdict is sent as it was made. -/
theorem status_of_sendMsg4 {session session' : Session} {judged msg4 : Msg4} {w next : World sys}
    (hreturn : sendMsg4 session judged w = (some (msg4, session'), next)) :
    msg4.status = judged.status := by
  cases htrusted : judged.status.isTrusted with
  | false =>
      rw [sendMsg4_of_untrusted w htrusted] at hreturn
      cases hreturn
      rfl
  | true =>
      obtain ⟨_, _, _, hsend⟩ := sendMsg4_of_trusted session w htrusted
      rw [hsend] at hreturn
      cases hreturn
      rfl

/-- Some `send` is among the events a program adds to the log. -/
def Sends {α : Type} (x : Proc (World sys) α) (w : World sys) : Prop :=
  ∃ before src, Event.send before src ∈ emitted x w

theorem not_sends_of_quiet {α : Type} {x : Proc (World sys) α} {w : World sys}
    (hquiet : Quiet w (x w).2) : ¬ Sends x w := by
  rintro ⟨before, src, hmem⟩
  obtain ⟨events, hlog, hevents⟩ := hquiet.log
  rw [emitted_eq hlog] at hmem
  exact (hevents _ hmem before src).1 rfl

theorem isTrusted_judgeEnclave {config : Config sys} {report : ReportBody} {msg4 : Msg4} :
    (config.judgeEnclave report msg4).status.isTrusted ↔
      verifyEnclaveIdentity config.reqMrSigner config.reqIsvProductId config.minIsvsvn
          config.allowDebugEnclave report ∧ msg4.status.isTrusted := by
  unfold Config.judgeEnclave
  split
  next hidentity => simp [hidentity]
  next hidentity => simp [hidentity, AttestationStatus.isTrusted]

/-- The end of `process_msg3` when message 3 is not accepted. -/
theorem processMsg3_of_rejected {config : Config sys} {msg1 : Msg1} {session : Session}
    {w next : World sys} {returned : Option (Option (Session × Msg4))}
    (hcheck : checkMsg3 config msg1 session w = (returned, next))
    (hreturned : ∀ checked, returned ≠ some (some checked)) :
    (processMsg3 config msg1 session w).2 = next := by
  unfold processMsg3
  rw [bind_apply, hcheck]
  cases returned with
  | none => rfl
  | some returned =>
      cases returned with
      | none => rfl
      | some checked => exact absurd rfl (hreturned checked)

theorem processMsg3_of_accepted {config : Config sys} {msg1 : Msg1} {session verified : Session}
    {msg4 : Msg4} {w next : World sys}
    (hcheck : checkMsg3 config msg1 session w = (some (some (verified, msg4)), next)) :
    processMsg3 config msg1 session w =
      ((sendMsg4 verified msg4 next).1.map some, (sendMsg4 verified msg4 next).2) := by
  unfold processMsg3
  rw [bind_of_some hcheck]
  dsimp only
  rw [bind_apply]
  cases hsend : sendMsg4 verified msg4 next with
  | mk returned last =>
      cases returned with
      | none => rfl
      | some answer => rfl

/-- `process_msg3` returns 1 only for an accepted message. -/
theorem msg3Accepted_of_returns {config : Config sys} {msg1 : Msg1} {session session' : Session}
    {w w' : World sys} {sent : Msg4}
    (hreturn : processMsg3 config msg1 session w = (some (some (sent, session')), w')) :
    ∃ b64quote response msg4, Msg3Accepted config msg1 session w b64quote response msg4 := by
  unfold processMsg3 at hreturn
  obtain ⟨checked, next, hcheck, hrest⟩ := bind_eq_some.mp hreturn
  cases checked with
  | none => cases hrest
  | some checked =>
      obtain ⟨b64quote, response, msg4, haccepted, _⟩ := checkMsg3_eq_some_iff.mp hcheck
      exact ⟨b64quote, response, msg4, haccepted⟩

/-- After an accepted message `process_msg3` always returns 1. -/
theorem processMsg3_returns {config : Config sys} {msg1 : Msg1} {session : Session} {w : World sys}
    {b64quote : Bytes} {response : Response} {msg4 : Msg4}
    (haccepted : Msg3Accepted config msg1 session w b64quote response msg4) :
    ∃ sent session' w', processMsg3 config msg1 session w =
      (some (some (sent, session')), w') ∧
        sent.status = (config.judgeEnclave w.readDest.quoteReportBody msg4).status := by
  have hcheck := checkMsg3_eq_some_iff.mpr ⟨b64quote, response, msg4, haccepted, rfl, rfl⟩
  rw [processMsg3_of_accepted hcheck]
  cases hstatus : (config.judgeEnclave w.readDest.quoteReportBody msg4).status.isTrusted with
  | false =>
      rw [sendMsg4_of_untrusted _ hstatus]
      exact ⟨_, _, _, rfl, rfl⟩
  | true =>
      obtain ⟨next, _, _, hsend⟩ := sendMsg4_of_trusted { session with vk := (w.vkCall session).2 }
        (w.afterCheck config session b64quote response) hstatus
      rw [hsend]
      exact ⟨_, _, _, rfl, rfl⟩

/-- The events of `process_msg3` for an accepted message of a trusted enclave. -/
theorem emitted_processMsg3 {config : Config sys} {msg1 : Msg1} {session : Session} {w : World sys}
    {b64quote : Bytes} {response : Response} {msg4 : Msg4}
    (haccepted : Msg3Accepted config msg1 session w b64quote response msg4)
    (htrusted : (config.judgeEnclave w.readDest.quoteReportBody msg4).status.isTrusted) :
    let next := w.afterCheck config session b64quote response
    let judged := config.judgeEnclave w.readDest.quoteReportBody msg4
    emitted (processMsg3 config msg1 session) w =
      w.checkEvents config session b64quote response ++ next.verdictEvents judged ++
        next.keyEvents session ++
          [.send (next.afterVerdict judged).msgio (next.ciphertext session).bytes] := by
  have hcheck := checkMsg3_eq_some_iff.mpr ⟨b64quote, response, msg4, haccepted, rfl, rfl⟩
  obtain ⟨next, hmsgio, hlog, hsend⟩ :=
    sendMsg4_of_trusted { session with vk := (w.vkCall session).2 }
      (w.afterCheck config session b64quote response) htrusted
  apply emitted_eq
  rw [processMsg3_of_accepted hcheck, hsend]
  simp only [World.afterSend_log, hlog, hmsgio, World.afterCheck_log, List.append_assoc]
  rfl

/-- An enclave that is not trusted has its verdict queued, and nothing is sent. -/
theorem emitted_processMsg3_of_untrusted {config : Config sys} {msg1 : Msg1} {session : Session}
    {w : World sys} {b64quote : Bytes} {response : Response} {msg4 : Msg4}
    (haccepted : Msg3Accepted config msg1 session w b64quote response msg4)
    (huntrusted :
      (config.judgeEnclave w.readDest.quoteReportBody msg4).status.isTrusted = false) :
    emitted (processMsg3 config msg1 session) w =
      w.checkEvents config session b64quote response ++
        (w.afterCheck config session b64quote response).verdictEvents
          (config.judgeEnclave w.readDest.quoteReportBody msg4) := by
  have hcheck := checkMsg3_eq_some_iff.mpr ⟨b64quote, response, msg4, haccepted, rfl, rfl⟩
  apply emitted_eq
  rw [processMsg3_of_accepted hcheck, sendMsg4_of_untrusted _ huntrusted, World.afterVerdict_log,
    World.afterCheck_log, List.append_assoc]

/-- The ciphertext is sent exactly if message 3 is accepted, its enclave is recognised
and the attestation service trusts it. -/
theorem processMsg3_sends_iff {config : Config sys} {msg1 : Msg1} {session : Session}
    {w : World sys} :
    Sends (processMsg3 config msg1 session) w ↔
      ∃ b64quote response msg4, Msg3Accepted config msg1 session w b64quote response msg4 ∧
        (config.judgeEnclave w.readDest.quoteReportBody msg4).status.isTrusted := by
  have hquiet := frame_quiet.checkMsg3 config msg1 session w
  constructor
  · intro hsends
    cases hcheck : checkMsg3 config msg1 session w with
    | mk returned next =>
        rw [hcheck] at hquiet
        by_cases haccepts : ∃ checked, returned = some (some checked)
        · obtain ⟨⟨verified, judged⟩, rfl⟩ := haccepts
          obtain ⟨b64quote, response, msg4, haccepted, hjudged, rfl⟩ :=
            checkMsg3_eq_some_iff.mp hcheck
          cases hjudged
          refine ⟨b64quote, response, msg4, haccepted, ?_⟩
          by_contra hstatus
          obtain ⟨before, src, hmem⟩ := hsends
          rw [emitted_processMsg3_of_untrusted haccepted (Bool.eq_false_iff.mpr hstatus)] at hmem
          simp [World.checkEvents, World.verdictEvents] at hmem
        · refine absurd hsends (not_sends_of_quiet ?_)
          rw [processMsg3_of_rejected hcheck (fun checked h => haccepts ⟨checked, h⟩)]
          exact hquiet
  · rintro ⟨b64quote, response, msg4, haccepted, htrusted⟩
    have hemitted := emitted_processMsg3 haccepted htrusted
    unfold Sends
    rw [hemitted]
    exact ⟨_, _, List.mem_append_right _ List.mem_cons_self⟩

end RemoteAttestation
