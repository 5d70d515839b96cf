import RemoteAttestation.ServiceProvider.PlainClient

/-! # The attestation policy

`get_attestation_report` states its policy on `isvEnclaveQuoteStatus` in a comment. The code
below the comment is compared with it, from the parsed report to the status that
`process_msg3` sends.
-/

namespace RemoteAttestation

open Proc

variable {sys : Sys}

/-- The policy of the comment. -/
def documentedStatus (quoteStatus : Bytes) (strictTrust : Bool) : AttestationStatus :=
  if quoteStatus = ascii "OK" then .trusted
  else if quoteStatus = ascii "CONFIGURATION_NEEDED" ∨
      quoteStatus = ascii "SW_HARDENING_NEEDED" ∨
      quoteStatus = ascii "CONFIGURATION_AND_SW_HARDENING_NEEDED" then
    if strictTrust then .notTrustedItsComplicated else .trustedItsComplicated
  else .notTrusted

/-- The quote statuses for which the code does as the comment says. -/
def AsDocumented (quoteStatus : Bytes) : Prop :=
  quoteStatus ≠ ascii "CONFIGURATION_NEEDED" ∧ quoteStatus ≠ ascii "GROUP_OUT_OF_DATE"

/-- A recognised enclave keeps its status, and any other is not trusted. -/
def identityStatus (config : Config sys) (report : ReportBody) (status : AttestationStatus) :
    AttestationStatus :=
  if verifyEnclaveIdentity config.reqMrSigner config.reqIsvProductId config.minIsvsvn
    config.allowDebugEnclave report then status else .notTrusted

theorem attestationStatus_eq_documented_iff (quoteStatus : Bytes) (strictTrust : Bool) :
    attestationStatus quoteStatus strictTrust = documentedStatus quoteStatus strictTrust ↔
      AsDocumented quoteStatus := by
  unfold attestationStatus documentedStatus AsDocumented
  by_cases hok : quoteStatus = ascii "OK"
  · subst hok
    exact iff_of_true rfl (by decide)
  · rw [if_neg hok, if_neg hok]
    by_cases hconfiguration : quoteStatus = ascii "CONFIGURATION_NEEDED"
    · subst hconfiguration
      refine iff_of_false ?_ fun h => h.1 rfl
      cases strictTrust with
      | false => decide
      | true => decide
    · by_cases hhardening : quoteStatus = ascii "SW_HARDENING_NEEDED" ∨
          quoteStatus = ascii "CONFIGURATION_AND_SW_HARDENING_NEEDED"
      · have hdocumented : quoteStatus = ascii "CONFIGURATION_NEEDED" ∨
            quoteStatus = ascii "SW_HARDENING_NEEDED" ∨
            quoteStatus = ascii "CONFIGURATION_AND_SW_HARDENING_NEEDED" := .inr hhardening
        rw [if_pos hhardening, if_pos hdocumented]
        refine iff_of_true rfl ⟨hconfiguration, ?_⟩
        rcases hhardening with rfl | rfl
        · decide
        · decide
      · have hother : ¬ (quoteStatus = ascii "CONFIGURATION_NEEDED" ∨
            quoteStatus = ascii "SW_HARDENING_NEEDED" ∨
            quoteStatus = ascii "CONFIGURATION_AND_SW_HARDENING_NEEDED") := by
          rintro (h | h)
          · exact hconfiguration h
          · exact hhardening h
        rw [if_neg hhardening, if_neg hother]
        by_cases hgroup : quoteStatus = ascii "GROUP_OUT_OF_DATE"
        · rw [if_pos hgroup]
          exact iff_of_false (by decide) fun h => h.2 hgroup
        · rw [if_neg hgroup]
          exact iff_of_true rfl ⟨hconfiguration, hgroup⟩

theorem status_judgeEnclave (config : Config sys) (report : ReportBody) (msg4 : Msg4) :
    (config.judgeEnclave report msg4).status = identityStatus config report msg4.status := by
  unfold Config.judgeEnclave identityStatus
  split
  · rfl
  · rfl

/-- A report with an acceptable version is not refused. -/
theorem judgeReport_of_version {version : Nat} {strictTrust : Bool} {stale : Nat → UInt8}
    {reportObj : Json} {verdict : Option Msg4} (hversion : checkVersion version reportObj = true)
    (hjudge : judgeReport version strictTrust stale reportObj = some verdict) :
    ∃ msg4, verdict = some msg4 := by
  unfold judgeReport at hjudge
  rw [hversion, Bool.not_true, if_neg Bool.false_ne_true] at hjudge
  generalize decodedPlatformInfoBlob stale _ = decoded at hjudge
  cases decoded with
  | none => cases hjudge
  | some stored =>
      obtain ⟨msg4, _, hmsg4⟩ := Option.map_eq_some_iff.mp hjudge
      exact ⟨msg4, hmsg4.symm⟩

/-- The status of message 4 is among the parts that `process_msg3` sends. -/
theorem status_sent {config : Config sys} {msg1 : Msg1} {session : Session} {w : World sys}
    {b64quote : Bytes} {response : Response} {msg4 : Msg4}
    (haccepted : Msg3Accepted config msg1 session w b64quote response msg4) :
    ∃ before, Event.sendPartial before
      (leBytes 4 (config.judgeEnclave w.readDest.quoteReportBody msg4).status.toNat) ∈
        emitted (processMsg3 config msg1 session) w := by
  refine ⟨(w.afterCheck config session b64quote response).msgio, ?_⟩
  cases hstatus : (config.judgeEnclave w.readDest.quoteReportBody msg4).status.isTrusted with
  | true =>
      rw [emitted_processMsg3 haccepted hstatus]
      simp [World.verdictEvents]
  | false =>
      rw [emitted_processMsg3_of_untrusted haccepted hstatus]
      simp [World.verdictEvents]

/-- The report that `get_attestation_report` accepted, and whether the comment describes the
status it stored. -/
theorem getAttestationReport_documented {config : Config sys} {b64quote : Bytes}
    {w w' : World sys} {msg4 : Msg4}
    (hreturn : getAttestationReport config b64quote w = (some (some msg4), w')) :
    ∃ result next reportObj,
      report config.apiver [(ascii "isvEnclaveQuote", cstr b64quote)] w = (some result, next) ∧
      Json.load result.content = .ok reportObj ∧
      (msg4.status = documentedStatus (quoteStatus reportObj) config.strictTrust ↔
        AsDocumented (quoteStatus reportObj)) := by
  obtain ⟨response, haccepted, _⟩ := getAttestationReport_eq_some_iff.mp hreturn
  obtain ⟨hreport, _⟩ := report_eq_ok_iff.mpr ⟨response, haccepted.agent, haccepted.answered,
    haccepted.statusCode, rfl, haccepted.verified, rfl⟩
  obtain ⟨reportObj, hload, hstatus⟩ := evaluateReport_eq_some haccepted.evaluated
  refine ⟨_, _, reportObj, hreport, ?_, ?_⟩
  · rw [content_verifyResponse haccepted.verified]
    exact hload
  · rw [hstatus]
    exact attestationStatus_eq_documented_iff _ _

/-- What a return value of 1 of `process_msg3` says about the status it sent: it is the status
of an accepted report after the check of the enclave, and it is as the comment has it exactly
for these quote statuses. -/
structure SentStatus (config : Config sys) (msg1 : Msg1) (session : Session) (w : World sys)
    (sent stored : Msg4) (reportObj : Json) : Prop where
  reported : ∃ b64quote last result next,
    getAttestationReport config b64quote (w.atReport session) = (some (some stored), last) ∧
      report config.apiver [(ascii "isvEnclaveQuote", cstr b64quote)] (w.atReport session) =
        (some result, next) ∧
      Json.load result.content = .ok reportObj
  emitted : ∃ before, Event.sendPartial before (leBytes 4 sent.status.toNat) ∈
    emitted (processMsg3 config msg1 session) w
  judged : sent.status = identityStatus config w.readDest.quoteReportBody stored.status
  documented : stored.status = documentedStatus (quoteStatus reportObj) config.strictTrust ∧
      sent.status = identityStatus config w.readDest.quoteReportBody
        (documentedStatus (quoteStatus reportObj) config.strictTrust) ↔
    AsDocumented (quoteStatus reportObj)

theorem sentStatus_of_returns {config : Config sys} {msg1 : Msg1} {session session' : Session}
    {w w' : World sys} {sent : Msg4}
    (hreturn : processMsg3 config msg1 session w = (some (some (sent, session')), w')) :
    ∃ stored reportObj, SentStatus config msg1 session w sent stored reportObj := by
  obtain ⟨b64quote, response, stored, haccepted⟩ := msg3Accepted_of_returns hreturn
  obtain ⟨sent', session₁, w₁, hreturn', hsent⟩ := processMsg3_returns haccepted
  rw [hreturn] at hreturn'
  cases hreturn'
  have hasked := getAttestationReport_eq_some_iff.mpr ⟨response, haccepted.report, rfl⟩
  obtain ⟨result, next, reportObj, hreport, hload, hdocumented⟩ :=
    getAttestationReport_documented hasked
  have hemitted := status_sent haccepted
  rw [← hsent] at hemitted
  rw [status_judgeEnclave] at hsent
  refine ⟨stored, reportObj, ⟨b64quote, _, result, next, hasked, hreport, hload⟩, hemitted,
    hsent, ?_⟩
  rw [← hdocumented]
  refine ⟨fun h => h.1, fun h => ⟨h, ?_⟩⟩
  rw [hsent, h]

/-- The comment describes the status of a report, and what is sent for it, exactly for these
quote statuses. -/
theorem documented_policy_iff (sys : Sys) (config : Config sys) :
    (∀ stale reportObj verdict, checkVersion config.apiver reportObj = true →
      judgeReport config.apiver config.strictTrust stale reportObj = some verdict →
        ∃ msg4, verdict = some msg4 ∧
          (msg4.status = documentedStatus (quoteStatus reportObj) config.strictTrust ↔
            AsDocumented (quoteStatus reportObj))) ∧
    (∀ b64quote (w w' : World sys) msg4,
      getAttestationReport config b64quote w = (some (some msg4), w') →
        ∃ result next reportObj,
          report config.apiver [(ascii "isvEnclaveQuote", cstr b64quote)] w =
            (some result, next) ∧
          Json.load result.content = .ok reportObj ∧
          (msg4.status = documentedStatus (quoteStatus reportObj) config.strictTrust ↔
            AsDocumented (quoteStatus reportObj))) ∧
    (∀ msg1 session (w w' : World sys) sent session',
      processMsg3 config msg1 session w = (some (some (sent, session')), w') →
        ∃ stored reportObj, SentStatus config msg1 session w sent stored reportObj) := by
  refine ⟨?_, ?_, ?_⟩
  · intro stale reportObj verdict hversion hjudge
    obtain ⟨msg4, rfl⟩ := judgeReport_of_version hversion hjudge
    refine ⟨msg4, rfl, ?_⟩
    rw [status_judgeReport hjudge]
    exact attestationStatus_eq_documented_iff _ _
  · intro b64quote w w' msg4 hreturn
    exact getAttestationReport_documented hreturn
  · intro msg1 session w w' sent session' hreturn
    exact sentStatus_of_returns hreturn

/-- The policy in a session with a client whose messages are plain and whose report is in
order. -/
theorem documented_policy_plain :
    ∃ (prepared : Prepared) (w w' : World (.reporting .zero (reportText "OK"))) (sent stored : Msg4)
      (session : Session) (reportObj : Json),
      CallsMsg3 (.plain _ ()) (.serving _ [.plainMsg01, .plainMsg3]) prepared w ∧
        processMsg3 (.plain _ ()) prepared.msg1 prepared.session w =
          (some (some (sent, session)), w') ∧
        SentStatus (.plain _ ()) prepared.msg1 prepared.session w sent stored reportObj := by
  obtain ⟨prepared, w, hcalls, hmsg1, hread⟩ := callsMsg3_plain .zero (reportText "OK")
    (Recv.delivers_line _ _ [.plainMsg3]) (Recv.delivers_line (plainMsg3 692) _ [])
    (plainMsg3_ne_nil _)
  have hzero := plainFields_plainMsg3 (n := 692) (by decide)
  have haccepted := msg3Accepted_plain prepared.session hread hmsg1 hzero rfl
    (fun _ => rfl) evaluateReport_ok
  obtain ⟨sent, session, w', hreturn, _⟩ := processMsg3_returns haccepted
  obtain ⟨stored, reportObj, hsent⟩ :=
    (documented_policy_iff _ (.plain _ ())).2.2 _ _ _ _ _ _ hreturn
  exact ⟨prepared, w, w', sent, stored, session, reportObj, hcalls, hreturn, hsent⟩

theorem evaluateReport_configurationNeeded :
    evaluateReport 4 false false (fun _ => 0) (reportText "CONFIGURATION_NEEDED") =
      some (some ⟨.notTrusted, .zero _, .zero _⟩) := by
  decide +kernel

theorem load_configurationNeeded :
    ∃ reportObj, Json.load (reportText "CONFIGURATION_NEEDED") = .ok reportObj ∧
      checkVersion 4 reportObj = true ∧ quoteStatus reportObj = ascii "CONFIGURATION_NEEDED" := by
  have hload : (match Json.load (reportText "CONFIGURATION_NEEDED") with
      | .ok reportObj =>
          checkVersion 4 reportObj && (quoteStatus reportObj == ascii "CONFIGURATION_NEEDED")
      | .error _ => false) = true := by
    decide +kernel
  generalize Json.load (reportText "CONFIGURATION_NEEDED") = loaded at hload ⊢
  cases loaded with
  | error _ => cases hload
  | ok reportObj =>
      obtain ⟨hversion, hstatus⟩ := Bool.and_eq_true_iff.mp hload
      exact ⟨reportObj, rfl, hversion, eq_of_beq hstatus⟩

/-- An enclave that needs configuration is not trusted, although the comment says so. -/
theorem configurationNeeded_not_documented :
    ∃ (w w' : World (.reporting .zero (reportText "CONFIGURATION_NEEDED"))) (msg4 : Msg4)
      (reportObj : Json),
      getAttestationReport (.plain _ ()) [] w = (some (some msg4), w') ∧
        Json.load (reportText "CONFIGURATION_NEEDED") = .ok reportObj ∧
        checkVersion 4 reportObj = true ∧
        quoteStatus reportObj = ascii "CONFIGURATION_NEEDED" ∧
        documentedStatus (quoteStatus reportObj) false = .trustedItsComplicated ∧
        msg4.status = .notTrusted := by
  have hreturn := getAttestationReport_eq_some_iff.mpr ⟨_, reporting_accepts []
    (.start (.listen []) (.plain (.reporting .zero (reportText "CONFIGURATION_NEEDED"))))
    evaluateReport_configurationNeeded, rfl⟩
  obtain ⟨reportObj, hload, hversion, hstatus⟩ := load_configurationNeeded
  refine ⟨_, _, _, reportObj, hreturn, hload, hversion, hstatus, ?_, rfl⟩
  rw [hstatus]
  decide

end RemoteAttestation
