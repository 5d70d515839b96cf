import RemoteAttestation.ServiceProvider.Attestation
import RemoteAttestation.ServiceProvider.Message1

/-! # Subscription keys over a run

A run is any sequence of calls of `get_sigrl` and `get_attestation_report` on one connection.
The key id of the connection is followed along the requests that the calls make.
-/

namespace RemoteAttestation

open Proc

variable {sys : Sys}

/-- A subscription key as it is given to the constructor. -/
structure SubscriptionKey where
  bytes : Bytes
  length_bytes : bytes.length = iasSubscriptionKeySize
  noNul : (0 : UInt8) ∉ bytes

/-- The buffer of a key: a C string, with whatever is behind it. -/
def SubscriptionKey.buffer (key : SubscriptionKey) (behind : Bytes) : Bytes :=
  key.bytes ++ 0 :: behind

inductive IasCall (sys : Sys) where
  | getSigrl (version gid : Nat)
  | getAttestationReport (config : Config sys) (b64quote : Bytes)

/-- A call, and whether it returned 1. -/
def IasCall.perform : IasCall sys → Proc (World sys) Bool
  | .getSigrl version gid => do return (← RemoteAttestation.getSigrl version gid).isSome
  | .getAttestationReport config b64quote => do
      return (← RemoteAttestation.getAttestationReport config b64quote).isSome

/-- A call of a run. It has no value if the process ends in it. -/
structure IasStep (sys : Sys) where
  call : IasCall sys
  before : World sys
  returned : Option Bool
  after : World sys

/-- The calls of a run, one after the other until the process ends. -/
def iasRun : List (IasCall sys) → World sys → List (IasStep sys)
  | [], _ => []
  | call :: calls, w =>
      match call.perform w with
      | (none, last) => [⟨call, w, none, last⟩]
      | (some ok, next) => ⟨call, w, some ok, next⟩ :: iasRun calls next

/-- The world that a run leaves. -/
def iasRunEnd : List (IasCall sys) → World sys → World sys
  | [], w => w
  | call :: calls, w =>
      match call.perform w with
      | (none, last) => last
      | (some _, next) => iasRunEnd calls next

/-- A request in the log, with its reply. -/
def Event.request? : Event sys → Option (Request × Option Response)
  | .request asked answer => some (asked, answer)
  | _ => none

/-- The requests that a call made. -/
def IasStep.requests (step : IasStep sys) : List (Request × Option Response) :=
  (step.after.log.drop step.before.log.length).filterMap Event.request?

/-- Whether a request is for a revocation list. -/
def Request.isSigrl (request : Request) : Prop := request.body = []

/-- A request carries the key of the current id. The id changes only right after a request for
a revocation list that was answered 401 under the primary key, and then to the secondary one. -/
inductive KeyStep (keys : SubscriptionKeyID → Bytes) :
    SubscriptionKeyID → Event sys → SubscriptionKeyID → Prop
  | request {id : SubscriptionKeyID} {request : Request} {response : Option Response}
      (hkey : request.subscriptionKey = keys id)
      (hstays : ¬ (id = .primary ∧ request.isSigrl ∧
        response.map Response.statusCode = some iasUnauthorized)) :
      KeyStep keys id (.request request response) id
  | failover {request : Request} {response : Response}
      (hkey : request.subscriptionKey = keys .primary) (hsigrl : request.isSigrl)
      (hunauthorized : response.statusCode = iasUnauthorized) :
      KeyStep keys .primary (.request request (some response)) .secondary
  | other {id : SubscriptionKeyID} {event : Event sys}
      (hother : ∀ request response, event ≠ .request request response) : KeyStep keys id event id

/-- The key id moves along the events that a program leaves in the log. -/
def FollowsKeys (keys : SubscriptionKeyID → Bytes) (w w' : World sys) : Prop :=
  Traced World.log (fun w => w.ias.currentKeyID) (KeyStep keys) w w'

/-- The connection holds the two keys under their pads. -/
def Holds (keys : SubscriptionKeyID → Bytes) (w : World sys) : Prop :=
  ∀ id, ({ w.ias with currentKeyID := id } : IasConnection sys).getSubscriptionKey = keys id

/-! ## The key store -/

theorem zipWith_xor_cancel (key pad : Bytes) (hlength : key.length ≤ pad.length) :
    List.zipWith (· ^^^ ·) (List.zipWith (· ^^^ ·) key pad) pad = key := by
  induction key generalizing pad with
  | nil => rfl
  | cons byte key ih =>
      cases pad with
      | nil => simp at hlength
      | cons mask pad =>
          simp only [List.zipWith_cons_cons, ih pad (by simpa using hlength), UInt8.xor_assoc,
            UInt8.xor_self, UInt8.xor_zero]

section

variable (key : SubscriptionKey) (pad : Block 32) (behind : Bytes)

theorem SubscriptionKey.cstr_buffer : cstr (key.buffer behind) = key.bytes :=
  cstr_append_nul key.noNul behind

/-- A stored key is recovered by taking the pad off. -/
theorem SubscriptionKey.unmask_stored :
    cstr (List.zipWith (· ^^^ ·) (setSubscriptionKey pad (some (key.buffer behind))).enc.bytes
      (setSubscriptionKey pad (some (key.buffer behind))).xor.bytes) = key.bytes := by
  have hlength : (cstr (key.buffer behind)).length = iasSubscriptionKeySize := by
    rw [key.cstr_buffer, key.length_bytes]
  rw [setSubscriptionKey, dif_pos hlength]
  dsimp only
  rw [key.cstr_buffer, zipWith_xor_cancel _ _ (by simp [key.length_bytes, iasSubscriptionKeySize])]
  exact cstr_of_notMem key.noNul

/-- Nothing of the plain text is left in its buffer. -/
theorem SubscriptionKey.wiped_stored :
    (setSubscriptionKey pad (some (key.buffer behind))).plainText =
      some (List.replicate iasSubscriptionKeySize 0 ++ 0 :: behind) := by
  have hlength : (cstr (key.buffer behind)).length = iasSubscriptionKeySize := by
    rw [key.cstr_buffer, key.length_bytes]
  rw [setSubscriptionKey, dif_pos hlength]
  dsimp only
  rw [buffer, List.drop_left' key.length_bytes]

end

/-! ## The requests of one call -/

/-- A call makes one request at most, and leaves the connection as it is. -/
structure AsksOnce (request : IasConnection sys → Request) (w next : World sys)
    (response : Option (Option Response)) : Prop where
  ias : next.ias = w.ias
  log : next.log = w.log ++ (response.map fun answer => .request (request w.ias) answer).toList

theorem sigrl_asksOnce {version gid ret : Nat} {text : Bytes} {w next : World sys}
    (hsigrl : sigrl version gid w = (some (ret, text), next)) :
    ∃ response, AsksOnce (fun ias => ias.sigrlRequest version gid) w next response ∧
      ret = ((response.join.map Response.statusCode).getD iasQueryFailed) ∧
      (ret = iasOk → ∃ answer, response = some (some answer) ∧ text = answer.content) := by
  unfold sigrl at hsigrl
  rw [connection_bind, newAgent_bind] at hsigrl
  split at hsigrl
  · cases hsigrl
    exact ⟨none, ⟨rfl, by simp⟩, rfl, fun hok => absurd hok (by decide)⟩
  · rw [agentRequest_bind] at hsigrl
    generalize sys.agentRequest _ _ = answer at hsigrl
    cases answer with
    | none =>
        cases hsigrl
        exact ⟨some none, ⟨rfl, by simp⟩, rfl, fun hok => absurd hok (by decide)⟩
    | some response =>
        cases hsigrl
        refine ⟨some (some response), ⟨rfl, by simp⟩, rfl, fun hok => ⟨response, rfl, ?_⟩⟩
        rw [if_pos hok]

theorem report_asksOnce {version : Nat} {payload : List (Bytes × Bytes)} {w next : World sys}
    {result : Option Report} (hreport : report version payload w = (result, next)) :
    ∃ response, AsksOnce (fun ias => ias.reportRequest version payload) w next response := by
  unfold report at hreport
  rw [connection_bind, newAgent_bind] at hreport
  split at hreport
  · cases hreport
    exact ⟨none, rfl, by simp⟩
  · rw [agentRequest_bind] at hreport
    generalize sys.agentRequest _ _ = answer at hreport
    cases answer with
    | none =>
        cases hreport
        exact ⟨some none, rfl, by simp⟩
    | some response =>
        dsimp only at hreport
        split at hreport
        · cases hreport
          exact ⟨some (some response), rfl, by simp⟩
        · cases hreport
          exact ⟨some (some response), rfl, by simp⟩

theorem getAttestationReport_asksOnce {config : Config sys} {b64quote : Bytes} {w next : World sys}
    {result : Option (Option Msg4)}
    (hrun : getAttestationReport config b64quote w = (result, next)) :
    ∃ response, AsksOnce (fun ias => ias.reportRequest config.apiver
      [(ascii "isvEnclaveQuote", cstr b64quote)]) w next response := by
  unfold getAttestationReport at hrun
  rw [bind_apply] at hrun
  generalize hreport : report config.apiver [(ascii "isvEnclaveQuote", cstr b64quote)] w = asked
    at hrun
  obtain ⟨answer, last⟩ := asked
  obtain ⟨response, hias, hlog⟩ := report_asksOnce hreport
  cases answer with
  | none =>
      cases hrun
      exact ⟨response, hias, hlog⟩
  | some answer =>
      dsimp only at hrun
      split at hrun
      · rw [call_bind] at hrun
        refine ⟨response, ?_⟩
        generalize evaluateReport _ _ _ _ _ = verdict at hrun
        cases verdict with
        | none =>
            cases hrun
            exact ⟨hias, by simpa using hlog⟩
        | some msg4 =>
            cases hrun
            exact ⟨hias, by simpa using hlog⟩
      · cases hrun
        exact ⟨response, hias, hlog⟩

/-! ## Keys along a call -/

section

variable {keys : SubscriptionKeyID → Bytes} {w next : World sys}

theorem Holds.getSubscriptionKey (hholds : Holds keys w) :
    w.ias.getSubscriptionKey = keys w.ias.currentKeyID :=
  hholds w.ias.currentKeyID

theorem Holds.of_ias (hholds : Holds keys w) (hias : next.ias = w.ias) : Holds keys next := by
  intro id
  rw [hias]
  exact hholds id

theorem Holds.withSecondaryKey (hholds : Holds keys w) : Holds keys w.withSecondaryKey := hholds

theorem sigrlRequest_isSigrl (ias : IasConnection sys) (version gid : Nat) :
    (ias.sigrlRequest version gid).isSigrl := rfl

theorem reportRequest_not_isSigrl (ias : IasConnection sys) (version : Nat)
    (payload : List (Bytes × Bytes)) : ¬ (ias.reportRequest version payload).isSigrl := by
  intro hempty
  have hlength := congrArg List.length hempty
  simp [IasConnection.reportRequest, reportBody, ascii] at hlength

/-- A call that asks once, and whose request does not lead to the other key. -/
theorem AsksOnce.follows {request : IasConnection sys → Request}
    {response : Option (Option Response)} (hasks : AsksOnce request w next response)
    (hkey : (request w.ias).subscriptionKey = keys w.ias.currentKeyID)
    (hstays : ∀ answer, response = some answer → ¬ (w.ias.currentKeyID = .primary ∧
      (request w.ias).isSigrl ∧ answer.map Response.statusCode = some iasUnauthorized)) :
    FollowsKeys keys w next := by
  obtain ⟨hias, hlog⟩ := hasks
  cases response with
  | none => exact Traced.of_log_eq (by simpa using hlog) (by rw [hias])
  | some answer =>
      refine Traced.of_single hlog ?_
      rw [hias]
      exact .request hkey (hstays answer rfl)

theorem FollowsKeys.trans {last : World sys} (hleft : FollowsKeys keys w next)
    (hright : FollowsKeys keys next last) : FollowsKeys keys w last :=
  Traced.trans hleft hright

/-- The log entry of a request. -/
def requestEvent (asked : Request × Option Response) : Event sys := .request asked.1 asked.2

/-- What the retry loop leaves: a request for each of its rounds at most, the last of which
was answered 200 under the current key if the loop succeeds. -/
structure SigrlRun (keys : SubscriptionKeyID → Bytes) (rounds : Nat) (w next : World sys)
    (ret : Nat) (text : Bytes) : Prop where
  follows : FollowsKeys keys w next
  holds : Holds keys next
  asked : ∃ answered : List (Request × Option Response), answered.length ≤ rounds ∧
    next.log = w.log ++ answered.map requestEvent ∧
    (ret = iasOk → ∃ earlier request answer, answered = earlier ++ [(request, some answer)] ∧
      answer.statusCode = iasOk ∧ text = answer.content ∧
      request.subscriptionKey = keys next.ias.currentKeyID)

/-- The last round of the loop. -/
theorem sigrlRun_of_sigrl {version gid ret : Nat} {text : Bytes} (hholds : Holds keys w)
    (hsigrl : sigrl version gid w = (some (ret, text), next))
    (hlast : ¬ (ret = iasUnauthorized ∧ next.ias.currentKeyID = .primary)) :
    SigrlRun keys 1 w next ret text := by
  obtain ⟨response, hasks, hret, htext⟩ := sigrl_asksOnce hsigrl
  refine ⟨hasks.follows hholds.getSubscriptionKey ?_, hholds.of_ias hasks.ias, ?_⟩
  · rintro answer rfl ⟨hprimary, _, hunauthorized⟩
    refine hlast ⟨?_, by rw [hasks.ias]; exact hprimary⟩
    rw [hret, Option.join_some, hunauthorized]
    rfl
  · refine ⟨(response.map fun answer => (w.ias.sigrlRequest version gid, answer)).toList, ?_, ?_, ?_⟩
    · cases response <;> simp
    · rw [hasks.log]
      cases response <;> rfl
    · intro hok
      obtain ⟨answer, rfl, rfl⟩ := htext hok
      refine ⟨[], w.ias.sigrlRequest version gid, answer, rfl, ?_, rfl, ?_⟩
      · rw [← hok, hret]
        rfl
      · rw [hasks.ias]
        exact hholds.getSubscriptionKey

theorem sigrlLoop_run {version gid ret : Nat} {text : Bytes} (hholds : Holds keys w)
    (hloop : sigrlLoop version gid 2 w = (some (ret, text), next)) :
    SigrlRun keys 2 w next ret text := by
  obtain ⟨ret₁, text₁, next₁, hsigrl⟩ := sigrl_returns version gid w
  rw [sigrlLoop_succ hsigrl] at hloop
  by_cases hswitch : ret₁ = iasUnauthorized ∧ next₁.ias.currentKeyID = .primary
  · rw [if_pos hswitch, sigrlLoop_of_secondary version gid 0 rfl] at hloop
    obtain ⟨response, hasks, hret, _⟩ := sigrl_asksOnce hsigrl
    obtain ⟨hunauthorized, hprimary⟩ := hswitch
    rw [hasks.ias] at hprimary
    -- Only a reply has the status 401.
    obtain ⟨answer, rfl, hanswer⟩ : ∃ answer, response = some (some answer) ∧
        answer.statusCode = iasUnauthorized := by
      rw [hunauthorized] at hret
      match response, hret with
      | none, hret => exact absurd hret (by decide)
      | some none, hret => exact absurd hret (by decide)
      | some (some answer), hret => exact ⟨answer, rfl, hret.symm⟩
    have hkey := hholds.getSubscriptionKey
    rw [hprimary] at hkey
    have hfirst : FollowsKeys keys w next₁.withSecondaryKey := by
      refine Traced.of_single hasks.log ?_
      rw [hprimary]
      exact .failover hkey (sigrlRequest_isSigrl _ _ _) hanswer
    obtain ⟨hfollows, hholds', answered, hcount, hlog, hok⟩ :=
      sigrlRun_of_sigrl (hholds.of_ias hasks.ias).withSecondaryKey hloop (by
        rw [sigrl_ias hloop]
        rintro ⟨_, hsecondary⟩
        cases hsecondary)
    refine ⟨hfirst.trans hfollows, hholds',
      (w.ias.sigrlRequest version gid, some answer) :: answered, ?_, ?_, ?_⟩
    · rw [List.length_cons]
      omega
    · rw [hlog, World.withSecondaryKey, hasks.log]
      simp [requestEvent]
    · intro hret'
      obtain ⟨earlier, request, last, rfl, hrest⟩ := hok hret'
      exact ⟨_ :: earlier, request, last, rfl, hrest⟩
  · rw [if_neg hswitch] at hloop
    cases hloop
    obtain ⟨hfollows, hholds', answered, hcount, hrest⟩ := sigrlRun_of_sigrl hholds hsigrl hswitch
    exact ⟨hfollows, hholds', answered, by omega, hrest⟩

end

/-! ## Whole calls -/

section

variable {keys : SubscriptionKeyID → Bytes} {w : World sys}

theorem requests_of_log {call : IasCall sys} {w next : World sys} {returned : Option Bool}
    {events : List (Event sys)} (hlog : next.log = w.log ++ events) :
    (IasStep.mk call w returned next).requests = events.filterMap Event.request? := by
  rw [IasStep.requests, hlog, List.drop_left]

theorem filterMap_requestEvent (answered : List (Request × Option Response)) :
    (answered.map (requestEvent : Request × Option Response → Event sys)).filterMap
      Event.request? = answered := by
  rw [List.filterMap_map]
  exact List.filterMap_some

/-- A successful call: its last request was answered 200 with a list that decodes, under the
key that is current afterwards. -/
def Succeeds (keys : SubscriptionKeyID → Bytes) (step : IasStep sys) : Prop :=
  ∃ earlier request answer t decoded, step.requests = earlier ++ [(request, some answer)] ∧
    answer.statusCode = iasOk ∧ sys.base64Decode t (cstr answer.content) = some decoded ∧
    request.subscriptionKey = keys step.after.ias.currentKeyID

/-- Calls without requests do not touch the key id. -/
theorem follows_of_silent {next : World sys} {events : List (Event sys)}
    (hlog : next.log = w.log ++ events) (hias : next.ias = w.ias)
    (hsilent : ∀ event ∈ events, event.request? = none) : FollowsKeys keys w next := by
  refine ⟨events, hlog, ?_⟩
  dsimp only
  rw [hias]
  clear hlog
  induction events with
  | nil => exact .nil
  | cons event events ih =>
      refine .cons (.other fun request response heq => ?_) (ih fun e he => hsilent e
        (List.mem_cons_of_mem _ he))
      have hnone := hsilent event List.mem_cons_self
      rw [heq] at hnone
      cases hnone

/-- The value of `get_sigrl` and the world it leaves, after its retry loop. -/
theorem getSigrl_of_loop {version gid ret : Nat} {text : Bytes} {fetched : World sys}
    (hloop : sigrlLoop version gid 2 w = (some (ret, text), fetched)) :
    ∃ decoded next events, getSigrl version gid w = (some decoded, next) ∧
      next.log = fetched.log ++ events ∧ next.ias = fetched.ias ∧
      (∀ event ∈ events, event.request? = none) ∧
      (∀ list, decoded = some list →
        ret = iasOk ∧ sys.base64Decode fetched.clock (cstr text) = some list) := by
  unfold getSigrl logged
  by_cases hret : ret = iasOk
  · obtain ⟨decoded, hdecode⟩ : ∃ decoded, sys.base64Decode fetched.clock (cstr text) = decoded :=
      ⟨_, rfl⟩
    refine ⟨decoded, (fetched.tick []).record (.getSigrl (decoded.map Decoded.bytes)),
      [.getSigrl (decoded.map Decoded.bytes)], ?_, by simp, rfl, ?_, ?_⟩
    · refine (bind_of_some (show _ = (some decoded, fetched.tick []) from ?_) _).trans ?_
      · rw [bind_of_some hloop]
        dsimp only
        rw [if_neg (by simp [hret]), base64Decode, call, step_apply, hdecode]
      · rfl
    · intro event hmem
      rw [List.mem_singleton.mp hmem]
      rfl
    · intro list hlist
      exact ⟨hret, hdecode.trans hlist⟩
  · refine ⟨none, fetched.record (.getSigrl none), [.getSigrl none], ?_, rfl, rfl, ?_, ?_⟩
    · refine (bind_of_some (show _ = (some none, fetched) from ?_) _).trans ?_
      · rw [bind_of_some hloop]
        dsimp only
        rw [if_pos hret]
        rfl
      · rfl
    · intro event hmem
      rw [List.mem_singleton.mp hmem]
      rfl
    · intro list hlist
      cases hlist

/-- A call of `get_sigrl` returns after two requests at most. -/
theorem getSigrl_run (hholds : Holds keys w) (version gid : Nat) :
    ∃ ok next, (IasCall.getSigrl version gid).perform w = (some ok, next) ∧
      FollowsKeys keys w next ∧ Holds keys next ∧
      (IasStep.mk (.getSigrl version gid) w (some ok) next).requests.length ≤ 2 ∧
      (ok = true → Succeeds keys ⟨.getSigrl version gid, w, some ok, next⟩) := by
  obtain ⟨ret, text, fetched, hloop⟩ : ∃ ret text fetched,
      sigrlLoop version gid 2 w = (some (ret, text), fetched) := by
    obtain ⟨ret, text, next, hsigrl⟩ := sigrl_returns version gid w
    rw [sigrlLoop_succ hsigrl]
    split
    · rw [sigrlLoop_of_secondary version gid 0 rfl]
      exact sigrl_returns version gid _
    · exact ⟨ret, text, next, rfl⟩
  obtain ⟨hfollows, hholds', answered, hcount, hlog, hok⟩ := sigrlLoop_run hholds hloop
  obtain ⟨decoded, next, events, hrun, hevents, hias, hsilent, hdecoded⟩ := getSigrl_of_loop hloop
  have hrequests : ∀ returned, (IasStep.mk (.getSigrl version gid) w returned next).requests =
      answered := by
    intro returned
    rw [hlog, List.append_assoc] at hevents
    rw [requests_of_log hevents, List.filterMap_append, filterMap_requestEvent,
      List.filterMap_eq_nil_iff.mpr hsilent, List.append_nil]
  refine ⟨decoded.isSome, next, ?_, hfollows.trans (follows_of_silent hevents hias hsilent),
    hholds'.of_ias hias, by rwa [hrequests], ?_⟩
  · rw [IasCall.perform, bind_of_some hrun]
    rfl
  · intro hsome
    obtain ⟨list, rfl⟩ := Option.isSome_iff_exists.mp hsome
    obtain ⟨hret, hdecode⟩ := hdecoded list rfl
    obtain ⟨earlier, request, answer, hanswered, hstatus, htext, hkey⟩ := hok hret
    refine ⟨earlier, request, answer, fetched.clock, list, by rw [hrequests, hanswered], hstatus,
      by rw [← htext]; exact hdecode, ?_⟩
    rw [hkey]
    exact congrArg (fun ias => keys ias.currentKeyID) hias.symm

/-- A call of `get_attestation_report` asks once at most, with the current key, and leaves the
connection as it is. -/
theorem getAttestationReport_run (hholds : Holds keys w) {config : Config sys} {b64quote : Bytes}
    {returned : Option Bool} {next : World sys}
    (hrun : (IasCall.getAttestationReport config b64quote).perform w = (returned, next)) :
    FollowsKeys keys w next ∧ Holds keys next ∧ next.ias = w.ias ∧
      ∀ asked ∈ (IasStep.mk (.getAttestationReport config b64quote) w returned next).requests,
        asked.1.subscriptionKey = keys w.ias.currentKeyID := by
  have hcall : ∃ result, getAttestationReport config b64quote w = (result, next) := by
    rw [IasCall.perform, bind_apply] at hrun
    generalize getAttestationReport config b64quote w = result at hrun
    obtain ⟨result, last⟩ := result
    cases result with
    | none =>
        cases hrun
        exact ⟨none, rfl⟩
    | some msg4 =>
        cases hrun
        exact ⟨some msg4, rfl⟩
  obtain ⟨result, hcall⟩ := hcall
  obtain ⟨response, hasks⟩ := getAttestationReport_asksOnce hcall
  refine ⟨hasks.follows hholds.getSubscriptionKey ?_, hholds.of_ias hasks.ias, hasks.ias, ?_⟩
  · rintro answer _ ⟨_, hsigrl, _⟩
    exact reportRequest_not_isSigrl _ _ _ hsigrl
  · intro asked hasked
    rw [requests_of_log hasks.log] at hasked
    cases response with
    | none => cases hasked
    | some answer =>
        have hone : asked ∈ [(w.ias.reportRequest config.apiver
            [(ascii "isvEnclaveQuote", cstr b64quote)], answer)] := hasked
        rw [List.mem_singleton.mp hone]
        exact hholds.getSubscriptionKey

end

/-! ## Runs -/

/-- The requests of a run up to the one after which the key id changes, if it does. -/
structure ChangesOnce (keys : SubscriptionKeyID → Bytes) (before after : List (Event sys))
    (last : SubscriptionKeyID) : Prop where
  primary : ∀ request response, Event.request request response ∈ before →
    request.subscriptionKey = keys .primary
  secondary : ∀ request response, Event.request request response ∈ after →
    request.subscriptionKey = keys .secondary
  change : last = .primary ∧ after = [] ∨
    last = .secondary ∧ ∃ earlier request response,
      before = earlier ++ [.request request (some response)] ∧ request.isSigrl ∧
        response.statusCode = iasUnauthorized

section

variable {keys : SubscriptionKeyID → Bytes} {w : World sys}

/-- With the secondary key nothing changes any more. -/
theorem secondary_of_chain {events : List (Event sys)} {last : SubscriptionKeyID}
    (hchain : Chain (KeyStep keys) .secondary events last) :
    last = .secondary ∧ ∀ request response, Event.request request response ∈ events →
      request.subscriptionKey = keys .secondary := by
  obtain ⟨first, hfirst⟩ : ∃ first, first = SubscriptionKeyID.secondary := ⟨_, rfl⟩
  rw [← hfirst] at hchain
  induction hchain with
  | nil => exact ⟨hfirst, fun _ _ hmem => absurd hmem List.not_mem_nil⟩
  | cons hstep _ ih =>
      subst hfirst
      cases hstep with
      | request hkey _ =>
          obtain ⟨hlast, hall⟩ := ih rfl
          refine ⟨hlast, fun request response hmem => ?_⟩
          rcases List.mem_cons.mp hmem with heq | hmem
          · cases heq
            exact hkey
          · exact hall request response hmem
      | other hother =>
          obtain ⟨hlast, hall⟩ := ih rfl
          refine ⟨hlast, fun request response hmem => ?_⟩
          rcases List.mem_cons.mp hmem with heq | hmem
          · exact absurd heq.symm (hother request response)
          · exact hall request response hmem

/-- The key id changes at most once. -/
theorem changesOnce_of_chain {events : List (Event sys)} {last : SubscriptionKeyID}
    (hchain : Chain (KeyStep keys) .primary events last) :
    ∃ before after, events = before ++ after ∧ ChangesOnce keys before after last := by
  obtain ⟨first, hfirst⟩ : ∃ first, first = SubscriptionKeyID.primary := ⟨_, rfl⟩
  rw [← hfirst] at hchain
  induction hchain with
  | nil =>
      exact ⟨[], [], rfl, fun _ _ hmem => absurd hmem List.not_mem_nil,
        fun _ _ hmem => absurd hmem List.not_mem_nil, .inl ⟨hfirst, rfl⟩⟩
  | @cons _ _ _ event events hstep hrest ih =>
      subst hfirst
      have hmore : ∀ {before after last}, ChangesOnce keys before after last →
          (∀ request response, event = .request request response →
            request.subscriptionKey = keys .primary) →
          ChangesOnce keys (event :: before) after last := by
        intro before after last hchanges hevent
        obtain ⟨hprimary, hsecondary, hchange⟩ := hchanges
        refine ⟨fun request response hmem => ?_, hsecondary, ?_⟩
        · rcases List.mem_cons.mp hmem with heq | hmem
          · exact hevent request response heq.symm
          · exact hprimary request response hmem
        · rcases hchange with hno | ⟨hlast, earlier, request, response, rfl, hrequest⟩
          · exact .inl hno
          · exact .inr ⟨hlast, event :: earlier, request, response, rfl, hrequest⟩
      cases hstep with
      | request hkey _ =>
          obtain ⟨before, after, rfl, hchanges⟩ := ih rfl
          refine ⟨_ :: before, after, rfl, hmore hchanges fun request response heq => ?_⟩
          cases heq
          exact hkey
      | other hother =>
          obtain ⟨before, after, rfl, hchanges⟩ := ih rfl
          exact ⟨_ :: before, after, rfl,
            hmore hchanges fun request response heq => absurd heq (hother request response)⟩
      | @failover request response hkey hsigrl hunauthorized =>
          obtain ⟨hlast, hall⟩ := secondary_of_chain hrest
          refine ⟨[.request request (some response)], events, rfl, ?_, hall,
            .inr ⟨hlast, [], request, response, rfl, hsigrl, hunauthorized⟩⟩
          intro request' response' hmem
          cases List.mem_singleton.mp hmem
          exact hkey

/-- What one call of a run does with the keys. -/
structure IasStep.Sound (keys : SubscriptionKeyID → Bytes) (step : IasStep sys) : Prop where
  follows : FollowsKeys keys step.before step.after
  holds : Holds keys step.after
  getSigrl : ∀ version gid, step.call = .getSigrl version gid →
    step.returned.isSome ∧ step.requests.length ≤ 2 ∧
      (step.returned = some true → Succeeds keys step)
  getAttestationReport : ∀ config b64quote, step.call = .getAttestationReport config b64quote →
    step.after.ias = step.before.ias ∧
      ∀ asked ∈ step.requests, asked.1.subscriptionKey = keys step.before.ias.currentKeyID

theorem sound_of_perform (hholds : Holds keys w) {call : IasCall sys} {returned : Option Bool}
    {next : World sys} (hperform : call.perform w = (returned, next)) :
    IasStep.Sound keys ⟨call, w, returned, next⟩ := by
  cases call with
  | getSigrl version gid =>
      obtain ⟨ok, last, hrun, hfollows, hholds', hcount, hok⟩ := getSigrl_run hholds version gid
      rw [hrun] at hperform
      cases hperform
      refine ⟨hfollows, hholds', fun version' gid' hcall => ?_, fun _ _ hcall => by cases hcall⟩
      refine ⟨rfl, hcount, fun hreturned => ?_⟩
      cases hreturned
      exact hok rfl
  | getAttestationReport config b64quote =>
      obtain ⟨hfollows, hholds', hias, hasked⟩ := getAttestationReport_run hholds hperform
      exact ⟨hfollows, hholds', fun _ _ hcall => (by cases hcall), fun _ _ _ => ⟨hias, hasked⟩⟩

/-- All calls of a run are sound, and each begins where the one before it ended. -/
theorem iasRun_sound (calls : List (IasCall sys)) (hholds : Holds keys w) :
    (∀ step ∈ iasRun calls w, step.Sound keys) ∧ FollowsKeys keys w (iasRunEnd calls w) ∧
      (iasRun calls w).IsChain (fun step next => next.before = step.after) ∧
      ∀ step ∈ (iasRun calls w).head?, step.before = w := by
  induction calls generalizing w with
  | nil =>
      refine ⟨fun step hmem => absurd hmem List.not_mem_nil, Traced.refl w, List.IsChain.nil,
        fun step hmem => ?_⟩
      cases hmem
  | cons call calls ih =>
      unfold iasRun iasRunEnd
      cases hperform : call.perform w with
      | mk returned next =>
          have hsound := sound_of_perform hholds hperform
          cases returned with
          | none =>
              refine ⟨fun step hmem => ?_, hsound.follows, List.IsChain.singleton _,
                fun step hmem => ?_⟩
              · rw [List.mem_singleton.mp hmem]
                exact hsound
              · cases hmem
                rfl
          | some ok =>
              obtain ⟨hall, hfollows, hchain, hhead⟩ := ih hsound.holds
              refine ⟨fun step hmem => ?_, hsound.follows.trans hfollows, ?_, fun step hmem => ?_⟩
              · rcases List.mem_cons.mp hmem with rfl | hmem
                · exact hsound
                · exact hall step hmem
              · exact List.isChain_cons.mpr ⟨hhead, hchain⟩
              · cases hmem
                rfl

/-- Calls of `get_attestation_report` leave the connection for the next call as it was. -/
theorem ias_of_chain {fetch ask : IasStep sys} {between back : List (IasStep sys)}
    (hchain : (fetch :: (between ++ ask :: back)).IsChain
      (fun step next => next.before = step.after))
    (hkeep : ∀ step ∈ between, step.after.ias = step.before.ias) :
    ask.before.ias = fetch.after.ias := by
  induction between generalizing fetch with
  | nil =>
      obtain ⟨hbefore, _⟩ := List.isChain_cons_cons.mp hchain
      rw [hbefore]
  | cons step between ih =>
      obtain ⟨hbefore, hrest⟩ := List.isChain_cons_cons.mp hchain
      rw [ih hrest fun s hs => hkeep s (List.mem_cons_of_mem _ hs),
        hkeep step List.mem_cons_self, hbefore]

end

/-- What holds of the subscription keys over a run. -/
structure KeysOverRun (keys : SubscriptionKeyID → Bytes) (w : World sys)
    (calls : List (IasCall sys)) : Prop where
  follows : FollowsKeys keys w (iasRunEnd calls w)
  changesOnce : ∃ before after, (iasRunEnd calls w).log = w.log ++ (before ++ after) ∧
    ChangesOnce keys before after (iasRunEnd calls w).ias.currentKeyID
  returns : ∀ step ∈ iasRun calls w, ∀ version gid, step.call = .getSigrl version gid →
    step.returned.isSome ∧ step.requests.length ≤ 2 ∧
      (step.returned = some true → Succeeds keys step)
  sameKey : ∀ front fetch between ask back,
    iasRun calls w = front ++ fetch :: (between ++ ask :: back) →
    (∃ version gid, fetch.call = .getSigrl version gid) → fetch.returned = some true →
    (∀ step ∈ between ++ [ask], ∃ config b64quote,
      step.call = .getAttestationReport config b64quote) →
    ∃ last, fetch.requests.getLast? = some last ∧
      ∀ asked ∈ ask.requests, asked.1.subscriptionKey = last.1.subscriptionKey

/-- Whatever the attestation service replies, a run uses the two keys that the constructor was
given, from its masked copies alone: the secondary one from the first 401 on. -/
theorem keys_over_run (server : Bytes) (store : Option sys.X509Store)
    (pad : SubscriptionKeyID → Block 32) (keys : SubscriptionKeyID → SubscriptionKey)
    (behind : SubscriptionKeyID → Bytes) (w : World sys) (calls : List (IasCall sys)) :
    let created : IasConnection sys × (SubscriptionKeyID → Option Bytes) :=
      IasConnection.create server pad fun id => some ((keys id).buffer (behind id))
    (∀ id, created.2 id = some (List.replicate iasSubscriptionKeySize 0 ++ 0 :: behind id)) ∧
      (∀ version gid fuel (w' : World sys),
        sigrlLoop version gid (fuel + 2) w' = sigrlLoop version gid 2 w') ∧
      KeysOverRun (fun id => (keys id).bytes) { w with ias := { created.1 with store } } calls := by
  intro created
  refine ⟨fun id => (keys id).wiped_stored (pad id) (behind id), sigrlLoop_fuel, ?_⟩
  obtain ⟨start, hstart⟩ : ∃ start : World sys,
      start = { w with ias := { created.1 with store } } := ⟨_, rfl⟩
  have hholds : Holds (fun id => (keys id).bytes) start := by
    intro id
    rw [hstart]
    exact (keys id).unmask_stored (pad id) (behind id)
  have hprimary : start.ias.currentKeyID = .primary := by
    rw [hstart]
    rfl
  rw [← hstart]
  obtain ⟨hall, hfollows, hchain, _⟩ := iasRun_sound calls hholds
  refine ⟨hfollows, ?_, fun step hmem version gid hcall => (hall step hmem).getSigrl _ _ hcall, ?_⟩
  · obtain ⟨events, hlog, hevents⟩ := hfollows
    dsimp only at hevents
    rw [hprimary] at hevents
    obtain ⟨before, after, rfl, hchanges⟩ := changesOnce_of_chain hevents
    exact ⟨before, after, hlog, hchanges⟩
  · rintro front fetch between ask back hrun ⟨version, gid, hfetch⟩ hreturned hreports
    rw [hrun] at hall hchain
    have hsound : ∀ step ∈ fetch :: (between ++ ask :: back),
        step.Sound fun id => (keys id).bytes :=
      fun step hmem => hall step (List.mem_append_right _ hmem)
    obtain ⟨earlier, request, answer, _, _, hrequests, _, _, hkey⟩ :=
      ((hsound fetch List.mem_cons_self).getSigrl _ _ hfetch).2.2 hreturned
    have hias := ias_of_chain (List.isChain_append.mp hchain).2.1 fun step hmem => by
      obtain ⟨config, b64quote, hcall⟩ := hreports step (List.mem_append_left _ hmem)
      have hstep := hsound step (List.mem_cons_of_mem _ (List.mem_append_left _ hmem))
      exact (hstep.getAttestationReport _ _ hcall).1
    obtain ⟨config, b64quote, hcall⟩ := hreports ask (by simp)
    refine ⟨_, by rw [hrequests, List.getLast?_concat], fun asked hasked => ?_⟩
    rw [((hsound ask (by simp)).getAttestationReport _ _ hcall).2 asked hasked, hias]
    exact hkey.symm

end RemoteAttestation
