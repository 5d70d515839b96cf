import RemoteAttestation.Report.HttpParser
import RemoteAttestation.ServiceProvider.Proxy

/-! # Requests through wget

`AgentWget::request` writes the body of a request to a temporary file, runs wget on it, and
collects what wget writes until the pipe is closed. What the request returns is decided by the
exit status of wget and by the parser. The decision starts from success, and an exit status
that it does not know leaves it there.
-/

namespace RemoteAttestation

/-! ## The system -/

/-- Results of `write`; without further results it takes all it is given. -/
inductive Written where
  | bytes (count : Nat)
  | eintr
  | error
deriving DecidableEq

/-- The bytes that a result reports. -/
def Written.count : Written → Nat
  | .bytes count => count
  | _ => 0

/-- `CHUNK_SZ`. -/
def chunkSz : Nat := 8192

/-- What one `read` of the pipe can deliver. -/
structure PipeChunk where
  bytes : Bytes
  fits : bytes.length ≤ chunkSz

/-- Results of `read`; without further results the pipe is closed. -/
inductive PipeRead where
  | data (chunk : PipeChunk)
  | eintr
  | error

/-- Results of `waitpid` before the one that reports the child. -/
inductive Waited where
  | eintr
  | error
deriving DecidableEq

/-- How the child ends. It exits with 1 when it cannot run wget. -/
inductive ChildEnd where
  | exited (code : UInt8)
  | signalled
deriving DecidableEq

/-- What the system answers during one request. -/
structure WgetSystem where
  mkstemp : Bool
  /-- The name made by `mkstemp`. -/
  tmpfile : Bytes
  writes : List Written
  pipe : Bool
  fork : Bool
  reads : List PipeRead
  waits : List Waited
  ended : ChildEnd
  /-- Whether the parser's reservations are granted, by the character that asks for one. -/
  granted : Nat → Bool

def wgetNoError : UInt8 := 0

def wgetServerError : UInt8 := 8

def wgetAuthError : UInt8 := 6

/-! ## The code -/

/-- The loop that writes `rem` behind what the file has; `none` is an error. -/
def writeLoop : List Written → Bytes → Bytes → Option Bytes
  | [], rem, file => some (file ++ rem)
  | result :: writes, rem, file =>
      if rem = [] then some file
      else match result with
        | .eintr => writeLoop writes rem file
        | .error => none
        | .bytes count => writeLoop writes (rem.drop count) (file ++ rem.take count)

/-- The part of a request before the pipe: the file for the body, if there is a body. -/
def writePost (system : WgetSystem) (post : Bytes) : Option (Option Bytes) :=
  if post = [] then some none
  else if !system.mkstemp then none
  else (writeLoop system.writes post []).map some

/-- The loop that collects the output, and whether it came to its end. -/
def pipeLoop : List PipeRead → Bytes × Bool
  | [] => ([], true)
  | .eintr :: reads => pipeLoop reads
  | .error :: _ => ([], false)
  | .data chunk :: reads =>
      if chunk.bytes = [] then ([], true)
      else
        let (sresponse, rv) := pipeLoop reads
        (chunk.bytes ++ sresponse, rv)

/-- The loop around `waitpid`: whether it reported the child. -/
def waitLoop : List Waited → Bool
  | [] => true
  | .eintr :: waits => waitLoop waits
  | .error :: _ => false

/-- The static `wget_args`, set up by the first request. -/
def wgetArgs (verbose : Bool) (settings : ProxySettings) : List Bytes :=
  [ascii "wget"] ++ (if verbose then [] else [ascii "--quiet"]) ++
    [ascii "--output-document=-", ascii "--save-headers", ascii "--content-on-error",
      ascii "--no-http-keep-alive"] ++
    (if settings.mode = .none then [ascii "--no-proxy"] else [])

/-- What the child runs: its arguments, and the contents of the file it is given. -/
structure WgetChild where
  argv : List Bytes
  postFile : Option Bytes
deriving DecidableEq

/-- The arguments of one request. -/
def requestArgs (args : List Bytes) (system : WgetSystem) (request : Request) : List Bytes :=
  args ++ [ascii "--header=Ocp-Apim-Subscription-Key: " ++ request.subscriptionKey] ++
    (if request.body = [] then []
      else [ascii "--header=Content-Type: application/json",
        ascii "--post-file=" ++ system.tmpfile]) ++
    [request.url]

/-- The child, if there is one, the value returned and the response; no value is an exception. -/
structure WgetResult where
  child : Option WgetChild
  outcome : Option (Bool × HttpResponse)

/-- What a request makes of the output of a child that ended. -/
def judgeChild (system : WgetSystem) (sresponse : Bytes) (response : HttpResponse) :
    Option (Bool × HttpResponse) :=
  match system.ended with
  | .signalled => some (false, response)
  | .exited exitcode =>
      if exitcode = wgetAuthError then
        some (true, { response with statusCode := iasUnauthorized })
      else if exitcode = wgetNoError ∨ exitcode = wgetServerError then
        match HttpResponseParser.parse system.granted response sresponse with
        | none => none
        | some (result, response) => some (result = .parsingCompleted, response)
      -- The source has no branch here, and `rv` is still 1.
      else some (true, response)

/-- `AgentWget::request`. -/
def AgentWget.request (args : List Bytes) (system : WgetSystem) (request : Request)
    (response : HttpResponse) : WgetResult :=
  match writePost system request.body with
  | none => ⟨none, some (false, response)⟩
  | some postFile =>
      if !system.pipe then ⟨none, some (false, response)⟩
      else if !system.fork then ⟨none, some (false, response)⟩
      else
        let (sresponse, rv) := pipeLoop system.reads
        { child := some ⟨requestArgs args system request, postFile⟩
          outcome :=
            if !(rv && waitLoop system.waits) then some (false, response)
            else judgeChild system sresponse response }

/-! ## What is expected -/

/-- The child had an answer: a refused authentication, or a response that was parsed. -/
inductive Answered (system : WgetSystem) (before response : HttpResponse) : Prop
  | unauthorized (hended : system.ended = .exited wgetAuthError)
      (hstatus : response.statusCode = iasUnauthorized)
  | parsed (hended : system.ended = .exited wgetNoError ∨ system.ended = .exited wgetServerError)
      (houtput : (pipeLoop system.reads).2 = true)
      (hparse : HttpResponseParser.parse system.granted before (pipeLoop system.reads).1 =
        some (.parsingCompleted, response))

/-- The request returns 0, or it returns 1 and has an answer. -/
def SucceedsWithAnswer (args : List Bytes) (system : WgetSystem) (request : Request)
    (before : HttpResponse) : Prop :=
  ∃ rv response, (AgentWget.request args system request before).outcome = some (rv, response) ∧
    (rv = true → Answered system before response)

/-- A `write` fails before all bytes are written. -/
def WriteFails (writes : List Written) (length : Nat) : Prop :=
  ∃ before after, writes = before ++ .error :: after ∧ .error ∉ before ∧
    (before.map Written.count).sum < length

/-- A `read` fails before the end of the output. -/
def ReadFails (reads : List PipeRead) : Prop :=
  ∃ before after, reads = before ++ .error :: after ∧
    ∀ read ∈ before, read = .eintr ∨ ∃ chunk, read = .data chunk ∧ chunk.bytes ≠ []

/-- A call of the system fails, other than by an interruption. -/
inductive CallFails (system : WgetSystem) (body : Bytes) : Prop
  | mkstemp (hbody : body ≠ []) (hfails : system.mkstemp = false)
  | write (hbody : body ≠ []) (hfails : WriteFails system.writes body.length)
  | pipe (hfails : system.pipe = false)
  | fork (hfails : system.fork = false)
  | read (hfails : ReadFails system.reads)
  | waitpid (hfails : .error ∈ system.waits)

/-- The child ends in one of the ways that are looked at. For an output that is parsed, the
parser's reservations have to succeed. -/
inductive EndsKnown (system : WgetSystem) (before : HttpResponse) : Prop
  | signalled (hended : system.ended = .signalled)
  | unauthorized (hended : system.ended = .exited wgetAuthError)
  | answered (hended : system.ended = .exited wgetNoError ∨ system.ended = .exited wgetServerError)
      (hreserve : ¬ HttpResponseParser.ReserveFails system.granted .fresh before
        (pipeLoop system.reads).1)

/-! ## The loops -/

/-- What was written is the body, whatever the pieces. -/
theorem writeLoop_some {writes : List Written} {rem file written : Bytes}
    (hwrite : writeLoop writes rem file = some written) : written = file ++ rem := by
  induction writes generalizing rem file with
  | nil =>
      cases hwrite
      rfl
  | cons result writes ih =>
      unfold writeLoop at hwrite
      split at hwrite
      next hdone =>
        cases hwrite
        rw [hdone, List.append_nil]
      next =>
        cases result with
        | eintr => exact ih hwrite
        | error => cases hwrite
        | bytes count => rw [ih hwrite, List.append_assoc, List.take_append_drop]

theorem writeFails_cons_iff {result : Written} {writes : List Written} {length : Nat}
    (hresult : result ≠ .error) :
    WriteFails (result :: writes) length ↔
      WriteFails writes (length - result.count) := by
  constructor
  · rintro ⟨before, after, heq, hbefore, hsum⟩
    cases before with
    | nil => exact absurd (List.cons.inj heq).1 hresult
    | cons first before =>
        obtain ⟨rfl, rfl⟩ := List.cons.inj heq
        rw [List.map_cons, List.sum_cons] at hsum
        exact ⟨before, after, rfl, fun h => hbefore (List.mem_cons_of_mem _ h), by omega⟩
  · rintro ⟨before, after, rfl, hbefore, hsum⟩
    refine ⟨result :: before, after, rfl, ?_, ?_⟩
    · intro hmem
      rcases List.mem_cons.mp hmem with heq | hmem
      · exact hresult heq.symm
      · exact hbefore hmem
    · rw [List.map_cons, List.sum_cons]
      omega

theorem writeLoop_eq_none_iff {writes : List Written} {rem file : Bytes} :
    writeLoop writes rem file = none ↔ WriteFails writes rem.length := by
  induction writes generalizing rem file with
  | nil =>
      constructor
      · intro hnone
        cases hnone
      · rintro ⟨before, after, heq, _⟩
        cases before <;> cases heq
  | cons result writes ih =>
      unfold writeLoop
      by_cases hdone : rem = []
      · rw [if_pos hdone, hdone]
        constructor
        · intro hnone
          cases hnone
        · rintro ⟨before, after, _, _, hsum⟩
          exact absurd hsum (Nat.not_lt_zero _)
      · rw [if_neg hdone]
        cases result with
        | eintr =>
            rw [writeFails_cons_iff (by decide)]
            exact ih
        | error =>
            refine ⟨fun _ => ⟨[], writes, rfl, List.not_mem_nil, ?_⟩, fun _ => rfl⟩
            exact List.length_pos_iff.mpr hdone
        | bytes count =>
            rw [writeFails_cons_iff (by simp)]
            exact ih.trans (by rw [List.length_drop, Written.count])

theorem readFails_cons_iff {read : PipeRead} {reads : List PipeRead}
    (hread : read = .eintr ∨ ∃ chunk, read = .data chunk ∧ chunk.bytes ≠ []) :
    ReadFails (read :: reads) ↔ ReadFails reads := by
  constructor
  · rintro ⟨before, after, heq, hbefore⟩
    cases before with
    | nil =>
        rw [(List.cons.inj heq).1] at hread
        rcases hread with hread | ⟨chunk, hread, _⟩ <;> cases hread
    | cons first before =>
        exact ⟨before, after, (List.cons.inj heq).2,
          fun read hmem => hbefore read (List.mem_cons_of_mem _ hmem)⟩
  · rintro ⟨before, after, rfl, hbefore⟩
    refine ⟨read :: before, after, rfl, ?_⟩
    rintro read' hmem
    rcases List.mem_cons.mp hmem with rfl | hmem
    · exact hread
    · exact hbefore read' hmem

theorem pipeLoop_fails_iff {reads : List PipeRead} :
    (pipeLoop reads).2 = false ↔ ReadFails reads := by
  induction reads with
  | nil =>
      constructor
      · intro hfails
        cases hfails
      · rintro ⟨before, after, heq, _⟩
        cases before <;> cases heq
  | cons read reads ih =>
      cases read with
      | eintr =>
          rw [readFails_cons_iff (.inl rfl)]
          exact ih
      | error => exact ⟨fun _ => ⟨[], reads, rfl, by simp⟩, fun _ => rfl⟩
      | data chunk =>
          rw [pipeLoop]
          by_cases hend : chunk.bytes = []
          · rw [if_pos hend]
            constructor
            · intro hfails
              cases hfails
            · rintro ⟨before, after, heq, hbefore⟩
              cases before with
              | nil => cases heq
              | cons first before =>
                  rcases hbefore first List.mem_cons_self with rfl | ⟨chunk', rfl, hne⟩
                  · cases heq
                  · cases heq
                    exact absurd hend hne
          · rw [if_neg hend, readFails_cons_iff (.inr ⟨chunk, rfl, hend⟩)]
            exact ih

theorem waitLoop_fails_iff {waits : List Waited} : waitLoop waits = false ↔ .error ∈ waits := by
  induction waits with
  | nil => simp [waitLoop]
  | cons wait waits ih =>
      cases wait with
      | eintr => simp [waitLoop, ih]
      | error => simp [waitLoop]

/-! ## The request -/

section

variable {args : List Bytes} {system : WgetSystem} {request : Request} {before : HttpResponse}

/-- A request without a child returns 0. -/
theorem outcome_of_no_child (hchild : (AgentWget.request args system request before).child = none) :
    (AgentWget.request args system request before).outcome = some (false, before) := by
  unfold AgentWget.request at hchild ⊢
  cases hpost : writePost system request.body with
  | none => rfl
  | some postFile =>
      rw [hpost] at hchild
      dsimp only at hchild ⊢
      by_cases hpipe : !system.pipe
      · rw [if_pos hpipe]
      · by_cases hfork : !system.fork
        · rw [if_neg hpipe, if_pos hfork]
        · rw [if_neg hpipe, if_neg hfork] at hchild
          cases hchild

/-- So does one whose child cannot be read or waited for. -/
theorem outcome_of_callFails (hfails : CallFails system request.body) :
    (AgentWget.request args system request before).outcome = some (false, before) := by
  by_cases hchild : (AgentWget.request args system request before).child = none
  · exact outcome_of_no_child hchild
  · unfold AgentWget.request at hchild ⊢
    cases hpost : writePost system request.body with
    | none => rfl
    | some postFile =>
        -- There is a child, so what failed is to read its output or to wait for it.
        have hfailed : !((pipeLoop system.reads).2 && waitLoop system.waits) := by
          cases hfails with
          | mkstemp hbody hmkstemp =>
              rw [writePost, if_neg hbody, hmkstemp] at hpost
              cases hpost
          | write hbody hwrite =>
              rw [writePost, if_neg hbody] at hpost
              split at hpost
              · cases hpost
              · rw [writeLoop_eq_none_iff.mpr hwrite] at hpost
                cases hpost
          | pipe hpipe =>
              rw [hpost, hpipe] at hchild
              exact absurd rfl hchild
          | fork hfork =>
              rw [hpost, hfork] at hchild
              dsimp only at hchild
              rw [Bool.not_false, if_pos rfl, ite_self] at hchild
              exact absurd rfl hchild
          | read hread => rw [pipeLoop_fails_iff.mpr hread]; rfl
          | waitpid hwait => rw [waitLoop_fails_iff.mpr hwait, Bool.and_false]; rfl
        dsimp only
        rw [if_pos hfailed]
        by_cases hpipe : !system.pipe
        · rw [if_pos hpipe]
        · rw [if_neg hpipe]
          by_cases hfork : !system.fork
          · rw [if_pos hfork]
          · rw [if_neg hfork]

/-- Otherwise the end of the child decides. -/
theorem outcome_of_child (hcalls : ¬ CallFails system request.body) :
    (AgentWget.request args system request before).outcome =
        judgeChild system (pipeLoop system.reads).1 before ∧
      (pipeLoop system.reads).2 = true := by
  have hread : (pipeLoop system.reads).2 = true := by
    rw [← Bool.not_eq_false, pipeLoop_fails_iff]
    exact fun h => hcalls (.read h)
  have hwait : waitLoop system.waits = true := by
    rw [← Bool.not_eq_false, waitLoop_fails_iff]
    exact fun h => hcalls (.waitpid h)
  have hpipe : system.pipe = true := by
    rw [← Bool.not_eq_false]
    exact fun h => hcalls (.pipe h)
  have hfork : system.fork = true := by
    rw [← Bool.not_eq_false]
    exact fun h => hcalls (.fork h)
  have hpost : ∃ postFile, writePost system request.body = some postFile := by
    unfold writePost
    by_cases hbody : request.body = []
    · rw [if_pos hbody]
      exact ⟨none, rfl⟩
    · have hmkstemp : system.mkstemp = true := by
        rw [← Bool.not_eq_false]
        exact fun h => hcalls (.mkstemp hbody h)
      rw [if_neg hbody, hmkstemp]
      cases hwrite : writeLoop system.writes request.body [] with
      | none => exact absurd (.write hbody (writeLoop_eq_none_iff.mp hwrite)) hcalls
      | some written => exact ⟨some written, rfl⟩
  obtain ⟨postFile, hpost⟩ := hpost
  refine ⟨?_, hread⟩
  unfold AgentWget.request
  rw [hpost, hpipe, hfork, hwait]
  dsimp only
  rw [Bool.not_true, if_neg Bool.false_ne_true, if_neg Bool.false_ne_true, hread]
  rfl

/-- For an exit status, what is looked at is a matter of the code. -/
theorem endsKnown_exited_iff {exitcode : UInt8} (hended : system.ended = .exited exitcode) :
    EndsKnown system before ↔ exitcode = wgetAuthError ∨
      (exitcode = wgetNoError ∨ exitcode = wgetServerError) ∧
        ¬ HttpResponseParser.ReserveFails system.granted .fresh before
          (pipeLoop system.reads).1 := by
  have hcode : ∀ code, system.ended = .exited code ↔ exitcode = code := by
    intro code
    rw [hended]
    exact ⟨ChildEnd.exited.inj, congrArg _⟩
  constructor
  · intro hends
    cases hends with
    | signalled h => rw [hended] at h; cases h
    | unauthorized h => exact .inl ((hcode _).mp h)
    | answered h hreserve => exact .inr ⟨h.imp (hcode _).mp (hcode _).mp, hreserve⟩
  · rintro (h | ⟨h, hreserve⟩)
    · exact .unauthorized ((hcode _).mpr h)
    · exact .answered (h.imp (hcode _).mpr (hcode _).mpr) hreserve

/-- A child that had an answer exited with one of three codes. -/
theorem Answered.exitcode {exitcode : UInt8} {response : HttpResponse}
    (hanswered : Answered system before response) (hended : system.ended = .exited exitcode) :
    exitcode = wgetAuthError ∨ exitcode = wgetNoError ∨ exitcode = wgetServerError := by
  cases hanswered with
  | unauthorized h _ =>
      rw [hended] at h
      exact .inl (ChildEnd.exited.inj h)
  | parsed h _ _ =>
      rw [hended] at h
      exact .inr (h.imp ChildEnd.exited.inj ChildEnd.exited.inj)

/-- A child whose output was read makes a request succeed only with an answer exactly if it
ends in a way that is looked at. -/
theorem judgeChild_answered_iff (houtput : (pipeLoop system.reads).2 = true) :
    (∃ rv response, judgeChild system (pipeLoop system.reads).1 before = some (rv, response) ∧
        (rv = true → Answered system before response)) ↔ EndsKnown system before := by
  unfold judgeChild
  cases hended : system.ended with
  | signalled =>
      refine ⟨fun _ => .signalled hended, fun _ => ⟨false, before, rfl, ?_⟩⟩
      intro hrv
      cases hrv
  | exited exitcode =>
      dsimp only
      rw [endsKnown_exited_iff hended]
      by_cases hauth : exitcode = wgetAuthError
      · rw [if_pos hauth]
        rw [hauth] at hended
        exact ⟨fun _ => .inl hauth, fun _ => ⟨_, _, rfl, fun _ => .unauthorized hended rfl⟩⟩
      · rw [if_neg hauth, or_iff_right hauth]
        by_cases hknown : exitcode = wgetNoError ∨ exitcode = wgetServerError
        · -- Only an exception of the parser is in the way of an answer or of a 0.
          rw [if_pos hknown, and_iff_right hknown, ← HttpResponseParser.consume_eq_none_iff]
          cases hparse : HttpResponseParser.parse system.granted before
              (pipeLoop system.reads).1 with
          | none =>
              refine ⟨fun ⟨_, _, hnone, _⟩ => (by cases hnone), fun hreserve => ?_⟩
              exact absurd hparse hreserve
          | some parsed =>
              obtain ⟨result, response⟩ := parsed
              constructor
              · intro _ hnone
                rw [HttpResponseParser.parse, hnone] at hparse
                cases hparse
              · intro _
                refine ⟨_, _, rfl, fun hrv => .parsed ?_ houtput ?_⟩
                · rw [hended]
                  exact hknown.imp (congrArg _) (congrArg _)
                · rw [hparse, of_decide_eq_true hrv]
        · rw [if_neg hknown]
          refine ⟨fun ⟨rv, response, heq, hanswered⟩ => ?_, fun h => absurd h.1 hknown⟩
          cases heq
          exact absurd ((hanswered rfl).exitcode hended) (by rw [or_iff_right hauth]; exact hknown)

/-- A request succeeds only with an answer if and only if a call fails or the child ends in a
way that is looked at. -/
theorem succeedsWithAnswer_iff :
    SucceedsWithAnswer args system request before ↔
      CallFails system request.body ∨ EndsKnown system before := by
  by_cases hcalls : CallFails system request.body
  · refine ⟨fun _ => .inl hcalls, fun _ => ⟨false, before, outcome_of_callFails hcalls, ?_⟩⟩
    intro hrv
    cases hrv
  · obtain ⟨houtcome, houtput⟩ := @outcome_of_child args system request before hcalls
    rw [or_iff_right hcalls, ← judgeChild_answered_iff houtput, ← houtcome]
    exact Iff.rfl

/-- A wget that exits with 4, as it does when the network fails, without any output. -/
def WgetSystem.networkFailure : WgetSystem where
  mkstemp := true
  tmpfile := ascii "/tmp/wgetpostAAAAAA"
  writes := []
  pipe := true
  fork := true
  reads := []
  waits := []
  ended := .exited 4
  granted := fun _ => true

/-- The request returns 1 and leaves the response as it was. -/
theorem networkFailure_not_succeedsWithAnswer :
    ¬ SucceedsWithAnswer (wgetArgs false .initial) .networkFailure ⟨ascii "https://ias", [], []⟩
      .fresh := by
  rintro ⟨rv, response, houtcome, hanswered⟩
  cases houtcome
  cases hanswered rfl with
  | unauthorized hended _ => exact absurd hended (by decide)
  | parsed hended _ _ => exact absurd hended (by decide)

end

end RemoteAttestation
