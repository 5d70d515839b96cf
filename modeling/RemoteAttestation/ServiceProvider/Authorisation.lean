import RemoteAttestation.ServiceProvider.PlainClient

/-! # Who gets the secret

In every session of a run the ciphertext is sent exactly to an enclave that is
`Authorised`: message 3 continues the exchange that message 1 of the same session began,
and the attestation service and the policy of the configuration accept its quote. The
size of the quote is kept in 32 bits, so this holds while message 3 is no longer than
such a quote.
-/

namespace RemoteAttestation

open Proc

variable {sys : Sys}

/-- The statuses of a quote that are trusted. -/
def AcceptableStatus (strictTrust : Bool) (status : Bytes) : Prop :=
  status = ascii "OK" ∨
    (strictTrust = false ∧ (status = ascii "SW_HARDENING_NEEDED" ∨
      status = ascii "CONFIGURATION_AND_SW_HARDENING_NEEDED"))

/-- The policy on the identity of an enclave. -/
structure IdentityAllowed (config : Config sys) (report : ReportBody) : Prop where
  debug : config.allowDebugEnclave = true ∨ report.attributesFlags &&& sgxFlagsDebug = 0
  isvProdId : report.isvProdId = config.reqIsvProductId
  isvSvn : config.minIsvsvn ≤ report.isvSvn
  mrSigner : report.mrSigner = config.reqMrSigner

/-- The keys a session derives from its own message 1, in an environment whose digests
are functions. -/
structure DerivedSession (digests : Digests) (start : World sys) (prepared : Prepared) : Prop where
  msg1 : prepared.msg1 = start.readDest.msg1
  gA : prepared.session.gA = start.readDest.msg1.gA
  shared : ∃ gb ga secret, sys.keyGenerate (start.clock + 1) = some gb ∧
    sys.keyFromSgxEc256 (start.clock + 2) start.readDest.msg1.gA = some ga ∧
    sys.keySharedSecret (start.clock + 3) gb ga = some secret ∧
    prepared.session.gB = (sys.keyToSgxEc256 (start.clock + 6) gb).2 ∧
    prepared.session.kdk = digests.cmac (.zero 16) secret.reverse
  smk : prepared.session.smk = digests.cmac prepared.session.kdk (keyLabel "SMK")

/-- What the ciphertext is sent for: `w` is the world in which message 3 is read, in the
session that started in `start`. -/
structure Authorised (digests : Digests) (config : Config sys) (start : World sys)
    (session : Session) (w : World sys) : Prop where
  received : w.readRv = 1
  gA : w.readDest.msg3GA = start.readDest.msg1.gA
  mac : w.readDest.msg3Mac = digests.cmac session.smk (w.readDest.block.drop 16)
  gid : w.readDest.quoteEpidGroupId = start.readDest.msg1.gid
  report : ∃ response msg4 reportObj,
    ReportAccepted config (digests.base64 (w.readDest.block.drop sizeofMsg3))
      (w.atReport session) response msg4 ∧
    Json.load response.content = .ok reportObj ∧
    AcceptableStatus config.strictTrust (quoteStatus reportObj)
  reportData : w.readDest.quoteReportBody.reportData.bytes =
    (digests.sha256 (session.gA.bytes ++ session.gB.bytes ++
      (digests.cmac session.kdk (keyLabel "VK")).bytes)).bytes ++ List.replicate 32 0
  identity : IdentityAllowed config w.readDest.quoteReportBody

/-- A message 3 that was received is long enough for the structures it is cast to. -/
def Msg3Long (w : World sys) : Prop :=
  w.readRv = 1 → sizeofMsg3 + sizeofQuote ≤ w.readDest.block.length

/-- The size of its quote fits into 32 bits. -/
def Msg3Fits (w : World sys) : Prop :=
  w.readRv = 1 → w.readDest.block.length < 2 ^ 32 + sizeofMsg3

theorem isTrusted_attestationStatus_iff {strictTrust : Bool} {status : Bytes} :
    (attestationStatus status strictTrust).isTrusted ↔ AcceptableStatus strictTrust status := by
  have hdifferent : ascii "OK" ≠ ascii "SW_HARDENING_NEEDED" ∧
      ascii "OK" ≠ ascii "CONFIGURATION_AND_SW_HARDENING_NEEDED" := by decide
  unfold attestationStatus AcceptableStatus
  split
  next hok => simp [hok, AttestationStatus.isTrusted]
  next hok =>
    split
    next hhardening =>
      cases strictTrust with
      | false => simp [hhardening, AttestationStatus.isTrusted]
      | true => simp [hok, AttestationStatus.isTrusted]
    next hhardening =>
      split
      next => simp [hok, hhardening, AttestationStatus.isTrusted]
      next => simp [hok, hhardening, AttestationStatus.isTrusted]

theorem verifyEnclaveIdentity_iff {config : Config sys} {report : ReportBody} :
    verifyEnclaveIdentity config.reqMrSigner config.reqIsvProductId config.minIsvsvn
        config.allowDebugEnclave report ↔ IdentityAllowed config report := by
  unfold verifyEnclaveIdentity
  constructor
  · intro hverify
    split at hverify
    · simp at hverify
    next hdebug =>
      split at hverify
      · simp at hverify
      next hprod =>
        split at hverify
        · simp at hverify
        next hsvn =>
          split at hverify
          · simp at hverify
          next hsigner =>
            refine ⟨?_, not_not.mp hprod, UInt16.not_lt.mp hsvn, not_not.mp hsigner⟩
            by_cases hallowed : config.allowDebugEnclave = true
            · exact .inl hallowed
            · simpa [hallowed] using hdebug
  · rintro ⟨hdebug, hprod, hsvn, hsigner⟩
    rw [if_neg, if_neg (not_not.mpr hprod), if_neg (UInt16.not_lt.mpr hsvn),
      if_neg (not_not.mpr hsigner)]
    rcases hdebug with hallowed | hflags
    · simp [hallowed]
    · simp [hflags]

/-- In every session that reaches message 3, its keys come from its own message 1. -/
theorem derivedSession_of_callsMsg3 {digests : Digests} (hcomputes : sys.Computes digests)
    {config : Config sys} {start w : World sys} {prepared : Prepared}
    (hcalls : CallsMsg3 config start prepared w) : DerivedSession digests start prepared := by
  obtain ⟨next, hprocess, _⟩ := hcalls
  obtain ⟨answers, haccepted, rfl, _⟩ := processMsg01_eq_some_iff.mp hprocess
  have hkdk : (answers.kdkCall start).2 = digests.cmac (.zero 16) answers.secret.reverse := by
    rw [Msg01Answers.kdkCall, hcomputes.cmac128]
  have hsmk : (answers.smkCall start).2 =
      digests.cmac (answers.kdkCall start).2 (keyLabel "SMK") := by
    rw [Msg01Answers.smkCall, hcomputes.cmac128]
  exact
    { msg1 := rfl
      gA := rfl
      shared := ⟨answers.gb, answers.ga, answers.secret, haccepted.generated, haccepted.peer,
        haccepted.shared, rfl, hkdk⟩
      smk := hsmk }

section

variable {w : World sys}

/-- A message that was received and assigned has the size that was reported. -/
theorem World.length_readDest (hlong : Msg3Long w) (hreceived : w.readRv = 1) :
    w.readDest.block.length = w.readSz / 2 := by
  have hlength := hlong hreceived
  unfold World.readDest at hlength ⊢
  cases hdest : w.msgio.read.1.dest with
  | none =>
      rw [hdest] at hlength
      simp [Memory.wild, sizeofMsg3, sizeofQuote] at hlength
  | some memory => exact (w.msgio.read_wellFormed.dest memory hdest).2

theorem World.quoteSz_eq (hlong : Msg3Long w) (hfits : Msg3Fits w) (hreceived : w.readRv = 1) :
    w.quoteSz = w.readDest.block.length - sizeofMsg3 := by
  have hlength := hlong hreceived
  have hsmall := hfits hreceived
  unfold World.quoteSz quoteSize
  rw [← World.length_readDest hlong hreceived]
  unfold sizeofMsg3 sizeofQuote at *
  omega

/-- The quote and the bytes under the MAC then reach to the end of the message. -/
theorem World.msg3_slices (hlong : Msg3Long w) (hfits : Msg3Fits w) (hreceived : w.readRv = 1) :
    w.msg3Authenticated = w.readDest.block.drop 16 ∧
      w.msg3Quote = w.readDest.block.drop sizeofMsg3 := by
  have hlength := hlong hreceived
  have hquoteSz := World.quoteSz_eq hlong hfits hreceived
  unfold sizeofMsg3 sizeofQuote at hlength
  unfold World.msg3Authenticated World.msg3Quote
  rw [hquoteSz]
  unfold sizeofMsg3
  constructor
  · rw [Memory.slice_eq_take_drop _ _ _ (by omega), List.take_of_length_le]
    rw [List.length_drop]
    omega
  · rw [Memory.slice_eq_take_drop _ _ _ (by omega), List.take_of_length_le]
    rw [List.length_drop]

/-- The checks of the handler and the verdict are those of `Authorised`. -/
theorem msg3Accepted_iff_authorised {digests : Digests} (hcomputes : sys.Computes digests)
    {config : Config sys} {start : World sys} {prepared : Prepared} (hlong : Msg3Long w)
    (hfits : Msg3Fits w) (hderived : DerivedSession digests start prepared) :
    (∃ b64quote response msg4,
        Msg3Accepted config prepared.msg1 prepared.session w b64quote response msg4 ∧
        (config.judgeEnclave w.readDest.quoteReportBody msg4).status.isTrusted) ↔
      Authorised digests config start prepared.session w := by
  have hvk : (w.vkCall prepared.session).2 = digests.cmac prepared.session.kdk (keyLabel "VK") := by
    rw [World.vkCall, hcomputes.cmac128]
  have hdigest : w.reportDigest prepared.session = some (digests.sha256
      (prepared.session.gA.bytes ++ prepared.session.gB.bytes ++
        (digests.cmac prepared.session.kdk (keyLabel "VK")).bytes)) := by
    rw [World.reportDigest, hcomputes.sha256Digest, World.reportText, hvk]
  have hmac : (w.vrfymac prepared.session).2 =
      digests.cmac prepared.session.smk w.msg3Authenticated := by
    rw [World.vrfymac, hcomputes.cmac128]
  constructor
  · rintro ⟨b64quote, response, msg4, haccepted, htrusted⟩
    have hreceived : w.readRv = 1 := by
      rcases w.msgio.read_wellFormed.rv with hrv | hrv | hrv
      · exact hrv
      · exact absurd hrv haccepted.read_ok.2
      · exact absurd hrv haccepted.read_ok.1
    obtain ⟨hauthenticated, hquote⟩ := World.msg3_slices hlong hfits hreceived
    obtain ⟨hidentity, hstatus⟩ := isTrusted_judgeEnclave.mp htrusted
    obtain ⟨reportObj, hload, hverdict⟩ := evaluateReport_eq_some haccepted.report.evaluated
    have hencoded := haccepted.encoded
    rw [hcomputes.base64Encode, hquote] at hencoded
    cases hencoded
    rw [hverdict] at hstatus
    exact
      { received := hreceived
        gA := by rw [haccepted.gA, hderived.msg1]
        mac := by rw [haccepted.mac, hmac, hauthenticated]
        gid := by rw [← haccepted.gid, hderived.msg1]
        report := ⟨response, msg4, reportObj, haccepted.report, hload,
          isTrusted_attestationStatus_iff.mp hstatus⟩
        reportData := by rw [← haccepted.reportData, hdigest, Option.getD_some]
        identity := verifyEnclaveIdentity_iff.mp hidentity }
  · intro hauthorised
    obtain ⟨hauthenticated, hquote⟩ := World.msg3_slices hlong hfits hauthorised.received
    obtain ⟨response, msg4, reportObj, hreport, hload, hacceptable⟩ := hauthorised.report
    refine ⟨digests.base64 (w.readDest.block.drop sizeofMsg3), response, msg4, ?_, ?_⟩
    · exact
        { read_ok := by rw [hauthorised.received]; decide
          gA := by rw [hauthorised.gA, hderived.msg1]
          mac := by rw [hauthorised.mac, hmac, hauthenticated]
          encoded := by rw [hcomputes.base64Encode, hquote]
          gid := by rw [hauthorised.gid, hderived.msg1]
          report := hreport
          reportData := by rw [hauthorised.reportData, hdigest, Option.getD_some] }
    · obtain ⟨reportObj', hload', hverdict⟩ := evaluateReport_eq_some hreport.evaluated
      rw [hload] at hload'
      cases hload'
      refine isTrusted_judgeEnclave.mpr ⟨verifyEnclaveIdentity_iff.mpr hauthorised.identity, ?_⟩
      rw [hverdict]
      exact isTrusted_attestationStatus_iff.mpr hacceptable

/-- All that `process_msg3` ever sends is one block under the key the session derives for it. -/
theorem sent_of_processMsg3 {digests : Digests} (hcomputes : sys.Computes digests)
    {config : Config sys} {msg1 : Msg1} {session : Session} {before : MsgIo} {src : Bytes}
    (hmem : Event.send before src ∈ emitted (processMsg3 config msg1 session) w) :
    src = (sys.aesEncrypt (digests.cmac session.kdk (keyLabel "SK")) plaintext).bytes := by
  obtain ⟨b64quote, response, msg4, haccepted, htrusted⟩ :=
    processMsg3_sends_iff.mp ⟨before, src, hmem⟩
  rw [emitted_processMsg3 haccepted htrusted] at hmem
  simp only [World.checkEvents, World.verdictEvents, World.keyEvents, List.cons_append,
    List.nil_append, List.mem_cons, List.not_mem_nil, reduceCtorEq, Event.send.injEq, or_false,
    false_or] at hmem
  rw [hmem.2, World.ciphertext, World.skCall, hcomputes.cmac128]

end

/-- In every session of a run whose quotes have sizes of 32 bits, `process_msg3` sends
the ciphertext exactly to an authorised enclave, and encrypted under the key of that session. -/
theorem ciphertext_sent_iff_authorised {digests : Digests} (hcomputes : sys.Computes digests)
    (config : Config sys) (n : Nat) (w₀ : World sys)
    (hlong : ∀ start ∈ (mainLoop config n w₀).1, ∀ prepared w,
      CallsMsg3 config start prepared w → Msg3Long w)
    (hfits : ∀ start ∈ (mainLoop config n w₀).1, ∀ prepared w,
      CallsMsg3 config start prepared w → Msg3Fits w) :
    ∀ start ∈ (mainLoop config n w₀).1, ∀ prepared w, CallsMsg3 config start prepared w →
      DerivedSession digests start prepared ∧
      (Sends (processMsg3 config prepared.msg1 prepared.session) w ↔
        Authorised digests config start prepared.session w) ∧
      ∀ before src,
        Event.send before src ∈ emitted (processMsg3 config prepared.msg1 prepared.session) w →
        src = (sys.aesEncrypt (digests.cmac prepared.session.kdk (keyLabel "SK")) plaintext).bytes := by
  intro start hstart prepared w hcalls
  have hderived := derivedSession_of_callsMsg3 hcomputes hcalls
  refine ⟨hderived, ?_, fun before src hmem => sent_of_processMsg3 hcomputes hmem⟩
  rw [processMsg3_sends_iff]
  exact msg3Accepted_iff_authorised hcomputes (hlong start hstart prepared w hcalls)
    (hfits start hstart prepared w hcalls) hderived

/-- The secret is sent to a client with a key on the curve, in a world of zero digests. -/
theorem ciphertext_sent_plain :
    let w₀ := World.server (.reporting .zero (reportText "OK")) [.plainMsg01, .plainMsg3]
    ∃ start ∈ (mainLoop (.plain _ ()) 1 w₀).1,
      ∃ prepared w, CallsMsg3 (.plain _ ()) start prepared w ∧
        Sends (processMsg3 (.plain _ ()) prepared.msg1 prepared.session) w ∧
        Authorised .zero (.plain _ ()) start prepared.session w := by
  intro w₀
  obtain ⟨prepared, w, hcalls, hmsg1, hread⟩ := callsMsg3_plain .zero (reportText "OK")
    (Recv.delivers_line _ _ [.plainMsg3]) (Recv.delivers_line (plainMsg3 692) _ [])
    (plainMsg3_ne_nil _)
  have hsends : Sends (processMsg3 (.plain _ ()) prepared.msg1 prepared.session) w :=
    sends_plain _ hread hmsg1 (plainFields_plainMsg3 (by decide)) rfl (fun _ => rfl)
      evaluateReport_ok (by decide)
  have hstarts : (mainLoop (.plain _ ()) 1 w₀).1 = [.serving _ [.plainMsg01, .plainMsg3]] :=
    mainLoop_server _ _
  have hlength : ∀ start' ∈ (mainLoop (.plain _ ()) 1 w₀).1, ∀ prepared' w',
      CallsMsg3 (.plain _ ()) start' prepared' w' → w'.readDest.block.length = 772 := by
    intro start' hstart' prepared' w' hcalls'
    rw [hstarts, List.mem_singleton] at hstart'
    subst hstart'
    obtain ⟨_, rfl⟩ := hcalls.unique hcalls'
    rw [hread.block, length_plainMsg3]
  have hstart : World.serving _ [.plainMsg01, .plainMsg3] ∈ (mainLoop (.plain _ ()) 1 w₀).1 := by
    rw [hstarts]
    exact List.mem_cons_self
  obtain ⟨_, hiff, _⟩ := ciphertext_sent_iff_authorised (Sys.working_computes _ _) (.plain _ ()) 1 w₀
    (fun start' hstart' prepared' w' hcalls' _ => by
      rw [hlength start' hstart' prepared' w' hcalls']
      decide)
    (fun start' hstart' prepared' w' hcalls' _ => by
      rw [hlength start' hstart' prepared' w' hcalls']
      decide) _ hstart prepared w hcalls
  exact ⟨_, hstart, prepared, w, hcalls, hsends, hiff.mp hsends⟩

/-- Digests that are zero but for the MAC of a message that does not have the length of
the authenticated part of the shortest message 3. -/
def Digests.zeroMac756 : Digests :=
  { Digests.zero with
    cmac := fun _ message => if message.length = 756 then .zero 16 else .fill 16 1 }

theorem Digests.cmac_zeroMac756 (key : Block 16) (message : Bytes) :
    Digests.zeroMac756.cmac key message =
      if message.length = 756 then .zero 16 else .fill 16 1 := rfl

/-- What a client with a key on the curve sends, one byte at a time. -/
def plainBytewise (n : Nat) : List Recv :=
  bytewise (hexstring plainMsg01 ++ [10]) ++ (bytewise (hexstring (plainMsg3 n) ++ [10]) ++ [])

/-- A message 3 of 2^32 + 772 bytes is authenticated and attested by its first 772 bytes only. -/
theorem ciphertext_sent_unauthorised :
    ∃ start ∈ (mainLoop (.plain _ ()) 1 (.server (.reporting .zeroMac756 (reportText "OK"))
        (plainBytewise (2 ^ 32 + 692)))).1,
      ∃ prepared w, CallsMsg3 (.plain _ ()) start prepared w ∧ Msg3Long w ∧
        Sends (processMsg3 (.plain _ ()) prepared.msg1 prepared.session) w ∧
        ¬ Authorised .zeroMac756 (.plain _ ()) start prepared.session w := by
  obtain ⟨n, hn⟩ : ∃ n, n = 2 ^ 32 + 692 := ⟨_, rfl⟩
  rw [← hn, mainLoop_server]
  have hlong : sizeofMsg3 + sizeofQuote ≤ 80 + n := by
    rw [sizeofMsg3, sizeofQuote]
    omega
  obtain ⟨prepared, w, hcalls, hmsg1, hread⟩ := callsMsg3_plain .zeroMac756 (reportText "OK")
    (delivers_bytewise (by simp) _) (delivers_bytewise (by simp) []) (plainMsg3_ne_nil n)
  refine ⟨_, List.mem_cons_self, prepared, w, hcalls, ?_, ?_, ?_⟩
  · intro _
    rw [hread.block, length_plainMsg3]
    exact hlong
  · refine sends_plain _ hread hmsg1 (plainFields_plainMsg3 hlong) ?_ (fun _ => rfl)
      evaluateReport_ok (by decide)
    have hquoteSz : w.quoteSz = 436 := by
      rw [World.quoteSz, hread.sz, length_plainMsg3, quoteSize, hn]
      decide
    rw [Digests.cmac_zeroMac756, if_pos]
    rw [World.msg3Authenticated, Memory.length_slice, hquoteSz, sizeofMsg3]
  · intro hauthorised
    have hmac := hauthorised.mac
    have hlength : ((plainMsg3 n).drop 16).length ≠ 756 := by
      rw [List.length_drop, length_plainMsg3]
      omega
    have hzero := mac_plainMsg3 n
    rw [← hread.block] at hzero hlength
    rw [Memory.msg3Mac, Memory.field_eq (b := .zero 16) hzero, Digests.cmac_zeroMac756,
      if_neg hlength] at hmac
    exact absurd hmac (by decide)

end RemoteAttestation
