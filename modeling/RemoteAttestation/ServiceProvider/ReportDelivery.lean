import RemoteAttestation.Report.HttpAccepted
import RemoteAttestation.Report.HttpRoundTrip
import RemoteAttestation.ServiceProvider.ReportText

/-! # Reports that come through wget

The agent of the attestation service runs wget, the parser makes a response of its output, and
the report is read from the content of this response. A report is accepted only from a whole
response, and a message that was written by wget leads to the verdict of the members it spells.
-/

namespace RemoteAttestation

variable {sys : Sys} {args : List Bytes} {systems : Nat → WgetSystem}

/-- The attestation service is asked by an agent that runs wget. -/
structure ThroughWget (sys : Sys) (args : List Bytes) (systems : Nat → WgetSystem) : Prop where
  answers : ∀ t request success response,
    (AgentWget.request args (systems t) request .fresh).outcome = some (success, response) →
      sys.agentRequest t request = if success then some response.toResponse else none

/-- A wget that writes a message, in any pieces and with anything behind it. -/
structure Writes (system : WgetSystem) (body : Bytes) (message : HttpMessage) : Prop where
  reads : ∀ read ∈ system.reads, read = .eintr ∨ ∃ chunk, read = .data chunk ∧ chunk.bytes ≠ []
  written : message.text <+: system.reads.flatMap PipeRead.bytes
  calls : ¬ CallFails system body
  ended : system.ended = .exited wgetNoError ∨ system.ended = .exited wgetServerError
  granted : ∀ i, system.granted i = true

theorem Writes.outcome {system : WgetSystem} {request : Request} {message : HttpMessage}
    (hwrites : Writes system request.body message) :
    (AgentWget.request args system request .fresh).outcome = some (true, message.response) := by
  rw [(outcome_of_child hwrites.calls).1]
  exact judgeChild_message message hwrites.reads hwrites.written hwrites.ended hwrites.granted

/-! ## An environment with wget -/

/-- A working environment whose agent runs wget. -/
def Sys.wget (args : List Bytes) (system : WgetSystem) : Sys :=
  .working .zero fun request =>
    match (AgentWget.request args system request .fresh).outcome with
    | some (true, response) => some response.toResponse
    | _ => none

theorem Sys.wget_through (args : List Bytes) (system : WgetSystem) :
    ThroughWget (.wget args system) args fun _ => system where
  answers t request success response houtcome := by
    change (match (AgentWget.request args system request .fresh).outcome with
      | some (true, response) => some response.toResponse
      | _ => none) = _
    rw [houtcome]
    cases success with
    | false => rfl
    | true => rfl

/-- A signed report. -/
def HttpMessage.signedOk : HttpMessage :=
  { HttpMessage.chunkedOk with
    fields :=
      [⟨ascii "X-IASReport-Signing-Certificate", ascii "cert", by decide,
          forall_mem_of_all (by decide), forall_mem_of_all (by decide)⟩,
        ⟨ascii "X-IASReport-Signature", ascii "c2ln", by decide,
          forall_mem_of_all (by decide), forall_mem_of_all (by decide)⟩,
        ⟨ascii "Content-Length", ascii "42", by decide,
          forall_mem_of_all (by decide), forall_mem_of_all (by decide)⟩]
    body := .sized (reportText "OK")
    framed := by
      refine ⟨fun field hmem hchunked => ?_, fun field hmem hlength => ?_, fun _ =>
        ⟨_, List.mem_cons_of_mem _ (List.mem_cons_of_mem _ List.mem_cons_self), by
          unfold HeaderField.IsLength
          decide⟩⟩
      · unfold HeaderField.IsChunked at hchunked
        simp only [List.mem_cons, List.not_mem_nil, or_false] at hmem
        rcases hmem with rfl | rfl | rfl
        · exact absurd hchunked.1 (by decide)
        · exact absurd hchunked.1 (by decide)
        · exact absurd hchunked.1 (by decide)
      · unfold HeaderField.IsLength at hlength
        simp only [List.mem_cons, List.not_mem_nil, or_false] at hmem
        rcases hmem with rfl | rfl | rfl
        · exact absurd hlength (by decide)
        · exact absurd hlength (by decide)
        · decide
    content_lt := by decide }

/-- A wget that writes it. -/
def WgetSystem.signedOk : WgetSystem :=
  { WgetSystem.networkFailure with
    reads := [.data ⟨HttpMessage.signedOk.text, by decide +kernel⟩]
    ended := .exited wgetNoError }

theorem Sys.wget_writes (body : Bytes) : Writes .signedOk body .signedOk where
  reads := by
    intro read hmem
    rw [List.mem_singleton.mp hmem]
    exact .inr ⟨_, rfl, by decide⟩
  written := ⟨[], by simp [WgetSystem.signedOk, PipeRead.bytes]⟩
  calls := by
    intro hfails
    cases hfails with
    | mkstemp _ hfails => cases hfails
    | write _ hfails =>
        obtain ⟨before, after, heq, _⟩ := hfails
        cases before <;> cases heq
    | pipe hfails => cases hfails
    | fork hfails => cases hfails
    | read hfails =>
        rw [← pipeLoop_fails_iff] at hfails
        revert hfails
        decide
    | waitpid hfails => cases hfails
  ended := .inl rfl
  granted := fun _ => rfl

/-- A server that asks through it. -/
def World.asking : World (.wget (wgetArgs false .initial) .signedOk) := .server _ []

theorem Sys.wget_verified (t : Nat) (store : Option Unit) (version : Nat) :
    (verifyResponse (.wget (wgetArgs false .initial) .signedOk) t store version
      HttpMessage.signedOk.response.toResponse).status = iasOk := by
  refine verifyResponse_signed _ _ t store version ?_ ?_
  · decide +kernel
  · decide +kernel

/-! ## Accepted reports -/

/-- The response was parsed from the output of a wget that was given the whole request. -/
structure FetchedResponse (args : List Bytes) (system : WgetSystem) (request : Request)
    (response : HttpResponse) : Prop where
  child : (AgentWget.request args system request .fresh).child =
    some ⟨requestArgs args system request, if request.body = [] then none else some request.body⟩
  ended : system.ended = .exited wgetNoError ∨ system.ended = .exited wgetServerError
  completed : HttpResponseParser.parse system.granted .fresh (pipeLoop system.reads).1 =
    some (.parsingCompleted, response)
  whole : response.Whole

/-- A child is given the whole body. -/
theorem child_of_not_callFails {system : WgetSystem} {request : Request} {before : HttpResponse}
    (hcalls : ¬ CallFails system request.body) :
    (AgentWget.request args system request before).child =
      some ⟨requestArgs args system request,
        if request.body = [] then none else some request.body⟩ := by
  have hpost : writePost system request.body =
      some (if request.body = [] then none else some request.body) := by
    unfold writePost
    by_cases hbody : request.body = []
    · rw [if_pos hbody, if_pos hbody]
    · have hmkstemp : system.mkstemp = true := by
        rw [← Bool.not_eq_false]
        exact fun h => hcalls (.mkstemp hbody h)
      rw [if_neg hbody, if_neg hbody, hmkstemp]
      cases hwrite : writeLoop system.writes request.body [] with
      | none => exact absurd (.write hbody (writeLoop_eq_none_iff.mp hwrite)) hcalls
      | some written =>
          rw [writeLoop_some hwrite, List.nil_append]
          rfl
  have hpipe : system.pipe = true := by
    rw [← Bool.not_eq_false]
    exact fun h => hcalls (.pipe h)
  have hfork : system.fork = true := by
    rw [← Bool.not_eq_false]
    exact fun h => hcalls (.fork h)
  unfold AgentWget.request
  rw [hpost, hpipe, hfork]
  rfl

/-- A request that returns a response of status 200 has fetched it. An exit status that is not
looked at leaves the response without a status. -/
theorem fetched_of_outcome {system : WgetSystem} {request : Request} {response : HttpResponse}
    (houtcome : (AgentWget.request args system request .fresh).outcome = some (true, response))
    (hok : response.statusCode = iasOk) : FetchedResponse args system request response := by
  by_cases hcalls : CallFails system request.body
  · rw [outcome_of_callFails hcalls] at houtcome
    cases houtcome
  · have hjudged := houtcome
    rw [(outcome_of_child hcalls).1] at hjudged
    unfold judgeChild at hjudged
    split at hjudged
    next => cases hjudged
    next exitcode hended =>
      split at hjudged
      next =>
        -- The response that was passed in has no status 200.
        cases hjudged
        exact absurd hok (by decide)
      next =>
        split at hjudged
        next hknown =>
          split at hjudged
          next => cases hjudged
          next result parsed hparse =>
            obtain ⟨hresult, rfl⟩ := Prod.mk.inj (Option.some.inj hjudged)
            rw [of_decide_eq_true hresult] at hparse
            refine ⟨child_of_not_callFails hcalls, ?_, hparse, ?_⟩
            · rw [hended]
              exact hknown.imp (congrArg _) (congrArg _)
            · exact HttpResponseParser.whole_of_consume HttpResponseParser.inv_fresh hparse
        next =>
          cases hjudged
          exact absurd hok (by decide)

/-- The request for the report of a quote. -/
def IasConnection.quoteRequest (ias : IasConnection sys) (config : Config sys) (b64quote : Bytes) :
    Request :=
  ias.reportRequest config.apiver [(ascii "isvEnclaveQuote", cstr b64quote)]

/-- An accepted report was signed under the first certificate of a chain whose pushed certificates
the store vouches for, is the content of a whole response that wget fetched, and it decides the
status. -/
theorem accepted_from_whole (hwget : ThroughWget sys args systems) {config : Config sys}
    {b64quote : Bytes} {w w' : World sys} {msg4 : Msg4}
    (hreturns : (AgentWget.request args (systems (w.clock + 1)) (w.ias.quoteRequest config b64quote)
      .fresh).outcome ≠ none)
    (haccepted : getAttestationReport config b64quote w = (some (some msg4), w')) :
    ∃ response certs stack sig pkey reportObj,
      FetchedResponse args (systems (w.clock + 1)) (w.ias.quoteRequest config b64quote) response ∧
      response.statusCode = iasOk ∧
      Verified sys (w.clock + 2) w.ias.store response.toResponse response.content certs stack sig
        pkey ∧
      (stack = certs.certs ↔ ∀ i < certs.certs.length, sys.skX509Push (w.clock + 2) i = true) ∧
      Json.load response.content = .ok reportObj ∧
      msg4.status = attestationStatus (quoteStatus reportObj) config.strictTrust := by
  obtain ⟨answer, hanswer, _⟩ := getAttestationReport_eq_some_iff.mp haccepted
  obtain ⟨⟨success, response⟩, houtcome⟩ := Option.ne_none_iff_exists'.mp hreturns
  have hagent := hwget.answers _ _ _ _ houtcome
  have hanswered := hanswer.answered
  rw [← IasConnection.quoteRequest, hagent] at hanswered
  cases success with
  | false => cases hanswered
  | true =>
      obtain rfl := Option.some.inj hanswered
      obtain ⟨certs, stack, sig, pkey, hverified⟩ := verifyResponse_ok_iff.mp hanswer.verified
      obtain ⟨reportObj, hload, hstatus⟩ := evaluateReport_eq_some hanswer.evaluated
      exact ⟨response, certs, stack, sig, pkey, reportObj,
        fetched_of_outcome houtcome hanswer.statusCode, hanswer.statusCode, hverified,
        hverified.stack_eq_iff, hload, hstatus⟩

/-- The signed report is accepted. -/
theorem accepted_from_whole_ok :
    ∃ msg4 last response, getAttestationReport (.plain _ ()) (ascii "AgAA") World.asking =
        (some (some msg4), last) ∧ HttpResponse.Whole response ∧ response.statusCode = iasOk := by
  have hwrites := Sys.wget_writes ((World.asking.ias.quoteRequest (.plain _ ()) (ascii "AgAA")).body)
  have haccepted : ReportAccepted (.plain _ ()) (ascii "AgAA") World.asking
      HttpMessage.signedOk.response.toResponse _ :=
    ⟨rfl, (Sys.wget_through (wgetArgs false .initial) _).answers 0 _ _ _ hwrites.outcome, rfl,
      Sys.wget_verified _ _ _, evaluateReport_ok⟩
  have hreturn := getAttestationReport_eq_some_iff.mpr ⟨_, haccepted, rfl⟩
  obtain ⟨response, _, _, _, _, _, hfetched, hok, _⟩ :=
    accepted_from_whole (Sys.wget_through _ _) (by rw [hwrites.outcome]; exact Option.some_ne_none _)
      hreturn
  exact ⟨_, _, response, hreturn, hfetched.whole, hok⟩

/-! ## Messages -/

/-- A message that is verified leads to the verdict of the members its body spells, whatever
pieces, chunks, white space and further fields it came in. -/
theorem verdict_of_message (hwget : ThroughWget sys args systems) {config : Config sys}
    {b64quote : Bytes} {w : World sys} {message : HttpMessage} {members : List (Bytes × Json)}
    (hnew : sys.newAgent w.clock = true)
    (hwrites : Writes (systems (w.clock + 1)) (w.ias.quoteRequest config b64quote).body message)
    (hcode : message.code = iasOk)
    (hverified : (verifyResponse sys (w.clock + 2) w.ias.store config.apiver
      message.response.toResponse).status = iasOk)
    (hspells : SpellsReport members message.body.content) :
    (getAttestationReport config b64quote w).1 =
      judgeReport config.apiver config.strictTrust (sys.stale (w.clock + 3))
        (.object (Json.collect members [])) := by
  have hagent := hwget.answers (w.clock + 1) _ _ _ hwrites.outcome
  rw [if_pos rfl] at hagent
  have hreport := report_eq_ok_iff.mpr ⟨message.response.toResponse, hnew, hagent, hcode, rfl,
    hverified, rfl⟩
  have hevaluated : evaluateReport config.apiver config.strictTrust config.verbose
      (sys.stale (w.clock + 1 + 1 + 1)) message.response.content =
        judgeReport config.apiver config.strictTrust (sys.stale (w.clock + 3))
          (.object (Json.collect members [])) := by
    have hload : Json.load message.response.content = _ := hspells.load
    rw [evaluateReport_verbose, evaluateReport, hload]
    rfl
  unfold getAttestationReport
  rw [Proc.bind_of_some hreport.1, if_pos hverified, call_bind, content_verifyResponse hverified]
  simp only [World.afterRequest, World.tick_clock]
  rw [hevaluated]
  cases judgeReport config.apiver config.strictTrust (sys.stale (w.clock + 3))
      (.object (Json.collect members [])) with
  | none => rfl
  | some msg4 => rfl

/-- A report that is read in one piece. -/
theorem verdict_of_message_ok :
    (getAttestationReport (.plain _ ()) (ascii "AgAA") World.asking).1 =
      judgeReport 4 false (fun _ => 0) (.object (Json.collect membersOk [])) :=
  verdict_of_message (Sys.wget_through _ _) rfl (Sys.wget_writes _) rfl (Sys.wget_verified _ _ _)
    membersOk_spelled

end RemoteAttestation
