import RemoteAttestation.Report.CertChain
import RemoteAttestation.ServiceProvider.Environment

/-! # The attestation report of a quote

What a return value of 1 of `get_attestation_report` means: which request was made, on
what grounds the answer was accepted, and how the verdict follows from it.
-/

namespace RemoteAttestation

open Proc

variable {sys : Sys}

/-! ## Looking up fields -/

namespace Json

theorem index_append_null (key new : Bytes) (entries : List (Bytes × Json)) :
    (Json.object (entries ++ [(new, .null)])).index key = (Json.object entries).index key := by
  simp only [index]
  rw [List.find?_append]
  cases hfind : entries.find? (fun entry => entry.1 == key) with
  | some entry => rfl
  | none =>
      by_cases hkey : (new == key) = true
      · simp [hkey]
      · simp [hkey]

/-- Looking up one field does not change what another lookup finds. -/
@[simp] theorem index_touch (key touched : Bytes) (value : Json) :
    (value.touch touched).index key = value.index key := by
  cases value with
  | object entries =>
      simp only [touch]
      split
      next => rfl
      next => exact index_append_null key touched entries
  | _ =>
      by_cases hkey : (touched == key) = true
      · simp [touch, index, hkey]
      · simp [touch, index, hkey]

@[simp] theorem index_touches (key : Bytes) (touched : List Bytes) (value : Json) :
    (touched.foldl (fun obj name => obj.touch name) value).index key = value.index key := by
  induction touched generalizing value with
  | nil => rfl
  | cons name touched ih =>
      rw [List.foldl_cons, ih, index_touch]

end Json

theorem status_storePlatformInfoBlob {status : AttestationStatus} {stored : Bytes} {msg4 : Msg4}
    (hstore : storePlatformInfoBlob status stored = some msg4) : msg4.status = status := by
  unfold storePlatformInfoBlob at hstore
  split at hstore
  · simp at hstore
  · cases hstore
    rfl

theorem status_judgeReport {version : Nat} {strictTrust : Bool} {stale : Nat → UInt8}
    {reportObj : Json} {msg4 : Msg4}
    (hjudge : judgeReport version strictTrust stale reportObj = some (some msg4)) :
    msg4.status = attestationStatus (quoteStatus reportObj) strictTrust := by
  unfold judgeReport at hjudge
  split at hjudge
  next => simp at hjudge
  next =>
    dsimp only at hjudge
    split at hjudge
    next => simp at hjudge
    next stored _ =>
      obtain ⟨stored4, hstore, hmsg4⟩ := Option.map_eq_some_iff.mp hjudge
      cases hmsg4
      exact status_storePlatformInfoBlob hstore

/-- A report that is evaluated parses, and its quote status determines the verdict. -/
theorem evaluateReport_eq_some {version : Nat} {strictTrust verbose : Bool} {stale : Nat → UInt8}
    {content : Bytes} {msg4 : Msg4}
    (heval : evaluateReport version strictTrust verbose stale content = some (some msg4)) :
    ∃ reportObj, Json.load content = .ok reportObj ∧
      msg4.status = attestationStatus (quoteStatus reportObj) strictTrust := by
  unfold evaluateReport at heval
  split at heval
  next => simp at heval
  next reportObj hload =>
    refine ⟨reportObj, hload, ?_⟩
    have hstatus := status_judgeReport heval
    split at hstatus
    · rw [hstatus, quoteStatus, quoteStatus, Json.index_touches]
    · exact hstatus

/-! ## The request -/

/-- The world after an agent was asked once, and its answer examined. -/
def World.afterRequest (w : World sys) (request : Request) (response : Response) : World sys :=
  ((w.tick []).tick [.request request (some response)]).tick []

/-- `report` returns `IAS_OK` only for a response of status 200 it has verified. -/
theorem report_eq_ok_iff {version : Nat} {payload : List (Bytes × Bytes)} {w w' : World sys}
    {result : Report} :
    (report version payload w = (some result, w') ∧ result.status = iasOk) ↔
      ∃ response, sys.newAgent w.clock = true ∧
        sys.agentRequest (w.clock + 1) (w.ias.reportRequest version payload) = some response ∧
        response.statusCode = iasOk ∧
        result = verifyResponse sys (w.clock + 2) w.ias.store version response ∧
        result.status = iasOk ∧
        w' = w.afterRequest (w.ias.reportRequest version payload) response := by
  unfold report
  rw [connection_bind, newAgent_bind]
  cases hagent : sys.newAgent w.clock with
  | false =>
      constructor
      · rintro ⟨hreturn, hok⟩
        cases hreturn
        exact absurd hok (by decide)
      · rintro ⟨response, htrue, _⟩
        simp at htrue
  | true =>
      simp only [Bool.not_true, Bool.false_eq_true, if_false, agentRequest_bind, World.tick_clock]
      cases hanswer : sys.agentRequest (w.clock + 1) (w.ias.reportRequest version payload) with
      | none =>
          constructor
          · rintro ⟨hreturn, hok⟩
            cases hreturn
            exact absurd hok (by decide)
          · rintro ⟨response, _, hsome, _⟩
            cases hsome
      | some response =>
          by_cases hstatus : response.statusCode = iasOk
          · simp only [hstatus, ne_eq, not_true_eq_false, if_false]
            constructor
            · rintro ⟨hreturn, hok⟩
              cases hreturn
              exact ⟨response, trivial, rfl, hstatus, rfl, hok, rfl⟩
            · rintro ⟨response', _, hsome, _, rfl, hok, rfl⟩
              cases hsome
              exact ⟨rfl, hok⟩
          · simp only [hstatus, ne_eq, not_false_eq_true, if_true]
            constructor
            · rintro ⟨hreturn, hok⟩
              cases hreturn
              exact absurd hok hstatus
            · rintro ⟨response', _, hsome, hok, _⟩
              cases hsome
              exact absurd hok hstatus

/-- The answers under which `get_attestation_report` returns 1 and fills in `msg4`. -/
structure ReportAccepted (config : Config sys) (b64quote : Bytes) (w : World sys)
    (response : Response) (msg4 : Msg4) : Prop where
  agent : sys.newAgent w.clock = true
  answered : sys.agentRequest (w.clock + 1)
    (w.ias.reportRequest config.apiver [(ascii "isvEnclaveQuote", cstr b64quote)]) = some response
  statusCode : response.statusCode = iasOk
  verified : (verifyResponse sys (w.clock + 2) w.ias.store config.apiver response).status = iasOk
  evaluated : evaluateReport config.apiver config.strictTrust config.verbose
    (sys.stale (w.clock + 3)) response.content = some (some msg4)

/-- The world after `get_attestation_report` returned 1. -/
def World.afterReport (w : World sys) (config : Config sys) (b64quote : Bytes)
    (response : Response) : World sys :=
  (w.afterRequest
    (w.ias.reportRequest config.apiver [(ascii "isvEnclaveQuote", cstr b64quote)]) response).tick []

/-- `get_attestation_report` returns 1 exactly for an accepted report. -/
theorem getAttestationReport_eq_some_iff {config : Config sys} {b64quote : Bytes}
    {w w' : World sys} {msg4 : Msg4} :
    getAttestationReport config b64quote w = (some (some msg4), w') ↔
      ∃ response, ReportAccepted config b64quote w response msg4 ∧
        w' = w.afterReport config b64quote response := by
  unfold getAttestationReport
  rw [bind_eq_some]
  constructor
  · rintro ⟨result, next, hreport, hrest⟩
    by_cases hok : result.status = iasOk
    · obtain ⟨response, hagent, hanswer, hstatus, rfl, hverified, rfl⟩ :=
        report_eq_ok_iff.mp ⟨hreport, hok⟩
      rw [if_pos hok, call_bind] at hrest
      have hcontent := content_verifyResponse hverified
      rw [hcontent] at hrest
      generalize hverdict : evaluateReport config.apiver config.strictTrust config.verbose
        (sys.stale _) response.content = verdict at hrest
      cases verdict with
      | none => cases hrest
      | some msg4 =>
          cases hrest
          exact ⟨response, ⟨hagent, hanswer, hstatus, hverified, hverdict⟩, rfl⟩
    · rw [if_neg hok] at hrest
      cases hrest
  · rintro ⟨response, haccepted, rfl⟩
    have hreport := report_eq_ok_iff.mpr ⟨response, haccepted.agent, haccepted.answered,
      haccepted.statusCode, rfl, haccepted.verified, rfl⟩
    refine ⟨_, _, hreport.1, ?_⟩
    have hevaluated := haccepted.evaluated
    rw [if_pos haccepted.verified, call_bind, content_verifyResponse haccepted.verified]
    simp only [World.afterRequest, World.tick_clock] at hevaluated ⊢
    rw [hevaluated]
    rfl

/-! ## Authenticity -/

/-- What `report` returns with `IAS_OK` is the authentic content of a response of status 200. -/
def ReportAuthentic (version : Nat) (payload : List (Bytes × Bytes)) (w : World sys) : Prop :=
  ∀ result w', report version payload w = (some result, w') → result.status = iasOk →
    ∃ response certs sig pkey,
      sys.agentRequest (w.clock + 1) (w.ias.reportRequest version payload) = some response ∧
      response.statusCode = 200 ∧
      Authentic sys (w.clock + 2) w.ias.store response result.content certs sig pkey

/-- `get_attestation_report` returns 1 only if `report` returned `IAS_OK`, with a status that is
computed from the parsed content. -/
def StatusOfReport (config : Config sys) (b64quote : Bytes) (w : World sys) : Prop :=
  ∀ msg4 w', getAttestationReport config b64quote w = (some (some msg4), w') →
    ∃ result next reportObj,
      report config.apiver [(ascii "isvEnclaveQuote", cstr b64quote)] w = (some result, next) ∧
      result.status = iasOk ∧ Json.load result.content = .ok reportObj ∧
      msg4.status = attestationStatus (quoteStatus reportObj) config.strictTrust

/-- Of a reply that passes all checks of `report`, every certificate is pushed. -/
def PushesChain (version : Nat) (payload : List (Bytes × Bytes)) (w : World sys) : Prop :=
  ∀ response certs stack sig pkey, sys.newAgent w.clock = true →
    sys.agentRequest (w.clock + 1) (w.ias.reportRequest version payload) = some response →
    response.statusCode = 200 →
    Verified sys (w.clock + 2) w.ias.store response response.content certs stack sig pkey →
    ∀ i < certs.certs.length, sys.skX509Push (w.clock + 2) i = true

/-- A verified chain was pushed whole exactly if the stack is the chain. -/
theorem Verified.stack_eq_iff {t : Nat} {store : Option sys.X509Store} {response : Response}
    {content sig : Bytes} {certs : CertChain sys.X509} {stack : List sys.X509} {pkey : sys.Pkey}
    (hverified : Verified sys t store response content certs stack sig pkey) :
    stack = certs.certs ↔ ∀ i < certs.certs.length, sys.skX509Push t i = true := by
  rw [(certStackBuild_eq_some_iff.mp hverified.stack_built).2, pushed_eq_self_iff]
  simp only [Nat.zero_add]

/-- A report is authentic exactly if no certificate is lost when the stack is built of a chain
that is then accepted: a certificate whose push fails is not verified, while the signature is
still checked with the first of the chain. The status never depends on anything but the content. -/
theorem report_authentic_iff (sys : Sys) :
    (∀ version payload (w : World sys),
      ReportAuthentic version payload w ↔ PushesChain version payload w) ∧
      ∀ (config : Config sys) b64quote w, StatusOfReport config b64quote w := by
  refine ⟨fun version payload w => ⟨?_, ?_⟩, ?_⟩
  · intro hreport response certs stack sig pkey hagent hanswer hstatus hverified
    have hok : (verifyResponse sys (w.clock + 2) w.ias.store version response).status = iasOk :=
      verifyResponse_ok_iff.mpr ⟨certs, stack, sig, pkey, hverified⟩
    obtain ⟨hreturn, _⟩ := report_eq_ok_iff.mpr ⟨response, hagent, hanswer, hstatus, rfl, hok, rfl⟩
    obtain ⟨response', certs', sig', pkey', hanswer', _, hauthentic⟩ := hreport _ _ hreturn hok
    rw [hanswer] at hanswer'
    cases hanswer'
    -- The same pieces were loaded, so it is the same chain.
    obtain ⟨chain, hdecode, hloads⟩ := hverified.chain_loads
    obtain ⟨chain', hdecode', hloads'⟩ := hauthentic.chain_loads
    rw [hdecode] at hdecode'
    cases hdecode'
    obtain rfl := hloads.unique hloads'
    exact hauthentic.stack_eq_iff.mp rfl
  · intro hpushes result w' hreport hok
    obtain ⟨response, hagent, hanswer, hstatus, rfl, hverified, _⟩ :=
      report_eq_ok_iff.mp ⟨hreport, hok⟩
    obtain ⟨certs, stack, sig, pkey, hgrounds⟩ := verifyResponse_ok_iff.mp hverified
    obtain rfl := hgrounds.stack_eq_iff.mpr
      (hpushes response certs stack sig pkey hagent hanswer hstatus hgrounds)
    rw [content_verifyResponse hverified]
    exact ⟨response, certs, sig, pkey, hanswer, hstatus, hgrounds⟩
  · intro config b64quote w msg4 w' hreturn
    obtain ⟨response, haccepted, _⟩ := getAttestationReport_eq_some_iff.mp hreturn
    obtain ⟨hreport, hok⟩ := report_eq_ok_iff.mpr ⟨response, haccepted.agent, haccepted.answered,
      haccepted.statusCode, rfl, haccepted.verified, rfl⟩
    obtain ⟨reportObj, hload, hstatus⟩ := evaluateReport_eq_some haccepted.evaluated
    refine ⟨_, _, reportObj, hreport, hok, ?_, hstatus⟩
    rw [content_verifyResponse haccepted.verified]
    exact hload

/-- A report of version 4 with the given quote status. -/
def reportText (status : String) : Bytes :=
  ascii "\x7b\"version\":4,\"isvEnclaveQuoteStatus\":\"" ++ ascii status ++ ascii "\"\x7d"

/-- A working environment whose attestation service gives one signed reply. -/
abbrev Sys.reporting (digests : Digests) (content : Bytes) : Sys :=
  .working digests fun _ => some (signedReply content)

/-- In it a report is accepted as soon as its text is. -/
theorem reporting_accepts {digests : Digests} {content : Bytes} (b64quote : Bytes)
    (w : World (.reporting digests content)) {msg4 : Msg4}
    (heval : evaluateReport 4 false false (fun _ => 0) content = some (some msg4)) :
    ReportAccepted (.plain _ ()) b64quote w (signedReply content) msg4 where
  agent := rfl
  answered := rfl
  statusCode := rfl
  verified := verifyResponse_working _ _ _ _ _ _
  evaluated := heval

theorem evaluateReport_ok : evaluateReport 4 false false (fun _ => 0) (reportText "OK") =
    some (some ⟨.trusted, .zero _, .zero _⟩) := by
  decide +kernel

/-- A server with a store of certificates. -/
def World.withStore (sys : Sys) (store : sys.X509Store) : World sys :=
  .start (.listen []) { IasConnection.plain sys with store := some store }

/-- A chain of one certificate that is pushed. -/
theorem report_authentic_reporting :
    let w := World.withStore (.reporting .zero (reportText "OK")) ()
    ∃ response certs sig pkey,
      (Sys.reporting .zero (reportText "OK")).agentRequest 1 (w.ias.reportRequest 4 []) =
          some response ∧
        response.statusCode = 200 ∧
        Authentic (.reporting .zero (reportText "OK")) 2 (some ()) response (reportText "OK") certs
          sig pkey := by
  intro w
  have hverified : (verifyResponse (.reporting .zero (reportText "OK")) (w.clock + 2) w.ias.store 4
      (signedReply (reportText "OK"))).status = iasOk :=
    verifyResponse_working _ _ _ _ _ _
  obtain ⟨hreport, hok⟩ : report 4 [] w = (some (verifyResponse _ _ w.ias.store 4 _), _) ∧ _ :=
    report_eq_ok_iff.mpr ⟨signedReply (reportText "OK"), rfl, rfl, rfl, rfl, hverified, rfl⟩
  have hpushes : PushesChain 4 [] w := fun _ _ _ _ _ _ _ _ _ _ _ => rfl
  have hauthentic := ((report_authentic_iff _).1 4 [] w).mpr hpushes _ _ hreport hok
  rwa [content_verifyResponse hverified] at hauthentic

/-- A reply with a chain of two certificates. -/
def chainReply : Response :=
  { statusCode := 200
    headers := [(ascii "X-IASReport-Signing-Certificate", ascii "-----BEGIN A-----BEGIN B"),
      (ascii "X-IASReport-Signature", ascii "c2ln")]
    content := reportText "OK" }

/-- An environment in which the store vouches for the second certificate alone, and in which the
first push of a stack fails. -/
def Sys.losing : Sys :=
  { Sys.working .zero fun _ => some chainReply with
    X509 := Bytes
    pemReadX509 := fun _ _ text => some text
    x509StoreCtxInit := fun _ _ _ _ => 1
    x509VerifyCert := fun _ store _ stack =>
      if store.isSome ∧ stack = [ascii "-----BEGIN B\n"] then 1 else 0
    x509GetPubkey := fun _ _ => some ()
    skX509Push := fun _ index => index ≠ 0 }

/-- Its chain passes all checks, and the stack has the second certificate only. -/
theorem losing_verified :
    Verified .losing 2 (some ()) chainReply (reportText "OK")
      ⟨ascii "-----BEGIN A", [ascii "-----BEGIN B\n"]⟩ [ascii "-----BEGIN B\n"] [] () where
  chain_present := by decide +kernel
  chain_loads := by
    have hheader : chainReply.headersAsString (ascii "X-IASReport-Signing-Certificate") =
        ascii "-----BEGIN A-----BEGIN B\n" := by decide +kernel
    have hdecode : urlDecode (ascii "-----BEGIN A-----BEGIN B\n") =
        some (ascii "-----BEGIN A-----BEGIN B\n") := by decide +kernel
    have hpieces : (certPieces (ascii "-----BEGIN A-----BEGIN B\n")).certs =
        [ascii "-----BEGIN A", ascii "-----BEGIN B\n"] := by decide +kernel
    rw [hheader]
    refine ⟨_, hdecode, ?_⟩
    unfold LoadsFrom
    rw [hpieces]
    refine ⟨rfl, fun i piece hpiece => ?_⟩
    rcases i with _ | _ | i
    · cases hpiece
      exact congrArg some (show cstr (ascii "-----BEGIN A") = _ by decide +kernel)
    · cases hpiece
      exact congrArg some (show cstr (ascii "-----BEGIN B\n") = _ by decide +kernel)
    · cases hpiece
  array := rfl
  stack_built := rfl
  storeCtx := rfl
  storeCtx_init := rfl
  chain_verified := rfl
  signature_present := by decide +kernel
  signature_decoded := ⟨_, rfl, rfl⟩
  key := rfl
  mdCtx := rfl
  digest_init := rfl
  digest_update := rfl
  signature_verified := rfl
  content_eq := rfl

/-- A report that is signed under the first certificate is accepted there. -/
theorem losing_not_authentic :
    ¬ ReportAuthentic 4 [] (World.withStore .losing ()) := by
  intro hreport
  have hok : (verifyResponse .losing 2 (World.withStore .losing ()).ias.store 4 chainReply).status =
      iasOk :=
    verifyResponse_ok_iff.mpr ⟨_, _, _, _, losing_verified⟩
  obtain ⟨hreturn, _⟩ : report 4 [] (World.withStore .losing ()) =
      (some (verifyResponse _ _ (World.withStore .losing ()).ias.store 4 _), _) ∧ _ :=
    report_eq_ok_iff.mpr ⟨chainReply, rfl, rfl, rfl, rfl, hok, rfl⟩
  obtain ⟨_, certs, _, _, _, _, hauthentic⟩ := hreport _ _ hreturn hok
  have hpushed := hauthentic.stack_eq_iff.mp rfl 0 (Nat.succ_pos _)
  exact absurd hpushed (by decide)

end RemoteAttestation
