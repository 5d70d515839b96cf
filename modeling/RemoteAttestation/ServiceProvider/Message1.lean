import RemoteAttestation.ServiceProvider.Message3

/-! # What message 0 and message 1 lead to

`process_msg01` returns 1 exactly under the answers collected in `Msg01Accepted`, and
then message 2, the session and the log are those computed from the answers of its
calls, including the calls whose success it does not look at.
-/

namespace RemoteAttestation

open Proc

variable {sys : Sys}

/-! ## Revocation list -/

/-- What `sigrl` and its retries leave: requests in the log, and on success the
content of an answered one. -/
structure Fetched (w : World sys) (ret : Nat) (text : Bytes) (w' : World sys) : Prop where
  msgio : w'.msgio = w.msgio
  log : ∃ events, w'.log = w.log ++ events ∧
    (∀ event ∈ events, ∃ request response, event = .request request response) ∧
    (ret = iasOk → ∃ request response, Event.request request (some response) ∈ events ∧
      response.statusCode = iasOk ∧ response.content = text)

theorem sigrl_fetched {version gid ret : Nat} {text : Bytes} {w w' : World sys}
    (hsigrl : sigrl version gid w = (some (ret, text), w')) : Fetched w ret text w' := by
  unfold sigrl at hsigrl
  rw [connection_bind, newAgent_bind] at hsigrl
  split at hsigrl
  · cases hsigrl
    exact ⟨rfl, [], rfl, by simp, fun hok => absurd hok (by decide)⟩
  · rw [agentRequest_bind] at hsigrl
    generalize sys.agentRequest _ _ = answer at hsigrl
    cases answer with
    | none =>
        cases hsigrl
        refine ⟨rfl, [.request (w.ias.sigrlRequest version gid) none], ?_, ?_,
          fun hok => absurd hok (by decide)⟩
        · simp only [World.tick_log, List.append_nil]
        · simp
    | some response =>
        cases hsigrl
        refine ⟨rfl, [.request (w.ias.sigrlRequest version gid) (some response)], ?_, ?_, ?_⟩
        · simp only [World.tick_log, List.append_nil]
        · simp
        · intro hok
          exact ⟨_, response, List.mem_cons_self, hok, by rw [if_pos hok]⟩

/-- One round of the retry loop, and its continuation. -/
theorem sigrlLoop_succ {version gid ret : Nat} {text : Bytes} {w next : World sys}
    (hsigrl : sigrl version gid w = (some (ret, text), next)) (fuel : Nat) :
    sigrlLoop version gid (fuel + 1) w =
      if ret = iasUnauthorized ∧ next.ias.currentKeyID = .primary then
        sigrlLoop version gid fuel next.withSecondaryKey
      else (some (ret, text), next) := by
  rw [sigrlLoop, bind_of_some hsigrl]
  dsimp only
  rw [connection_bind]
  split
  · rfl
  · rfl

/-- The retry loop leaves the requests of all its rounds. -/
theorem sigrlLoop_fetched {version gid fuel ret : Nat} {text : Bytes} {w w' : World sys}
    (hloop : sigrlLoop version gid fuel w = (some (ret, text), w')) : Fetched w ret text w' := by
  induction fuel generalizing w with
  | zero => cases hloop
  | succ fuel ih =>
      obtain ⟨⟨ret', text'⟩, next, hsigrl, _⟩ := bind_eq_some.mp hloop
      have hfirst := sigrl_fetched hsigrl
      rw [sigrlLoop_succ hsigrl] at hloop
      split at hloop
      · obtain ⟨hmsgio, events, hlog, hrequests, hanswered⟩ := ih hloop
        obtain ⟨earlier, hlogFirst, hrequestsFirst, _⟩ := hfirst.log
        refine ⟨hmsgio.trans hfirst.msgio, earlier ++ events, ?_, ?_, ?_⟩
        · rw [hlog, World.withSecondaryKey, hlogFirst, List.append_assoc]
        · intro event hmem
          rcases List.mem_append.mp hmem with hmem | hmem
          · exact hrequestsFirst event hmem
          · exact hrequests event hmem
        · intro hok
          obtain ⟨request, response, hmem, hresponse⟩ := hanswered hok
          exact ⟨request, response, List.mem_append_right _ hmem, hresponse⟩
      · cases hloop
        exact hfirst

/-- A request changes nothing about the connection. -/
theorem sigrl_ias {version gid ret : Nat} {text : Bytes} {w next : World sys}
    (hsigrl : sigrl version gid w = (some (ret, text), next)) : next.ias = w.ias := by
  unfold sigrl at hsigrl
  rw [connection_bind, newAgent_bind] at hsigrl
  split at hsigrl
  · cases hsigrl
    rfl
  · rw [agentRequest_bind] at hsigrl
    generalize sys.agentRequest _ _ = answer at hsigrl
    cases answer with
    | none =>
        cases hsigrl
        rfl
    | some response =>
        cases hsigrl
        rfl

theorem sigrl_returns (version gid : Nat) (w : World sys) :
    ∃ ret text next, sigrl version gid w = (some (ret, text), next) := by
  unfold sigrl
  rw [connection_bind, newAgent_bind]
  split
  · exact ⟨_, _, _, rfl⟩
  · rw [agentRequest_bind]
    generalize sys.agentRequest _ _ = answer
    cases answer with
    | none => exact ⟨_, _, _, rfl⟩
    | some response => exact ⟨_, _, _, rfl⟩

/-- With the secondary key there is one round only. -/
theorem sigrlLoop_of_secondary (version gid fuel : Nat) {w : World sys}
    (hkey : w.ias.currentKeyID = .secondary) :
    sigrlLoop version gid (fuel + 1) w = sigrl version gid w := by
  obtain ⟨ret, text, next, hsigrl⟩ := sigrl_returns version gid w
  have hsecondary : ¬ (ret = iasUnauthorized ∧ next.ias.currentKeyID = .primary) := by
    rw [sigrl_ias hsigrl, hkey]
    simp
  rw [sigrlLoop_succ hsigrl, if_neg hsecondary, hsigrl]

/-- The loop never asks a third time: two rounds of fuel are as good as any number. -/
theorem sigrlLoop_fuel (version gid fuel : Nat) (w : World sys) :
    sigrlLoop version gid (fuel + 2) w = sigrlLoop version gid 2 w := by
  obtain ⟨ret, text, next, hsigrl⟩ := sigrl_returns version gid w
  rw [sigrlLoop_succ hsigrl, sigrlLoop_succ hsigrl]
  split
  · rw [sigrlLoop_of_secondary version gid fuel rfl, sigrlLoop_of_secondary version gid 0 rfl]
  · rfl

theorem getSigrl_eq_some_iff {version gid : Nat} {w w' : World sys} {decoded : Decoded} :
    getSigrl version gid w = (some (some decoded), w') ↔
      ∃ text next, sigrlLoop version gid 2 w = (some (iasOk, text), next) ∧
        sys.base64Decode next.clock (cstr text) = some decoded ∧
        w' = (next.tick []).record (.getSigrl (some decoded.bytes)) := by
  unfold getSigrl logged
  rw [bind_eq_some]
  constructor
  · rintro ⟨result, last, hfetch, hrecord⟩
    obtain ⟨⟨ret, text⟩, next, hloop, hdecode⟩ := bind_eq_some.mp hfetch
    dsimp only at hdecode
    cases hrecord
    split at hdecode
    · cases hdecode
    next hok =>
      rw [not_not] at hok
      subst hok
      obtain ⟨hvalue, rfl⟩ := Prod.mk.inj hdecode
      exact ⟨text, next, hloop, Option.some.inj hvalue, rfl⟩
  · rintro ⟨text, next, hloop, hdecode, rfl⟩
    refine ⟨some decoded, next.tick [], ?_, rfl⟩
    rw [bind_of_some hloop]
    dsimp only
    rw [if_neg (by simp)]
    unfold base64Decode call
    rw [step_apply]
    dsimp only
    rw [hdecode]

/-! ## Key derivation key -/

/-- `derive_kdk` returns 1 exactly if the peer's key and the shared secret were made. -/
theorem deriveKdk_eq_some_iff {gb : sys.Pkey} {gA : Block 64} {w w' : World sys}
    {kdk : Block 16} :
    deriveKdk gb gA w = (some (some kdk), w') ↔
      ∃ ga secret, sys.keyFromSgxEc256 w.clock gA = some ga ∧
        sys.keySharedSecret (w.clock + 1) gb ga = some secret ∧
        let derived := sys.cmac128 (w.clock + 2) (.zero 16) secret.reverse
        kdk = derived.2 ∧
        w' = (((w.tick [.keyFromSgxEc256 gA (some ga)]).tick
          [.keySharedSecret gb ga (some secret)]).tick
          [.cmac128 (.zero 16) secret.reverse derived.1 derived.2]).record
            (.deriveKdk (some derived.2)) := by
  unfold deriveKdk logged keyFromSgxEc256 keySharedSecret
  rw [bind_eq_some]
  constructor
  · rintro ⟨result, last, hderive, hrecord⟩
    cases hrecord
    rw [call_bind] at hderive
    generalize hpeer : sys.keyFromSgxEc256 w.clock gA = peer at hderive
    cases peer with
    | none => cases hderive
    | some ga =>
        dsimp only at hderive
        rw [call_bind, World.tick_clock] at hderive
        generalize hshared : sys.keySharedSecret (w.clock + 1) gb ga = shared at hderive
        cases shared with
        | none => cases hderive
        | some secret =>
            dsimp only at hderive
            rw [cmac128_bind] at hderive
            cases hderive
            exact ⟨ga, secret, rfl, hshared, rfl, rfl⟩
  · rintro ⟨ga, secret, hpeer, hshared, rfl, rfl⟩
    refine ⟨some (sys.cmac128 (w.clock + 2) (.zero 16) secret.reverse).2, _, ?_, rfl⟩
    rw [call_bind, hpeer]
    dsimp only
    rw [call_bind, World.tick_clock, hshared]
    dsimp only
    rw [cmac128_bind]
    rfl

/-! ## Message 2 -/

/-- What the calls of `process_msg01` answered when it returned 1. `atSign` is the
world in which message 2 was signed. -/
structure Msg01Answers (sys : Sys) where
  gb : sys.Pkey
  ga : sys.Pkey
  secret : Bytes
  sigrl : Decoded
  atSign : World sys

namespace Msg01Answers

variable (answers : Msg01Answers sys) (config : Config sys) (w : World sys)

/-- The calls that derive the session's keys and describe its public key. -/
def kdkCall : Bool × Block 16 := sys.cmac128 (w.clock + 4) (.zero 16) answers.secret.reverse

def smkCall : Bool × Block 16 :=
  sys.cmac128 (w.clock + 5) (answers.kdkCall w).2 (keyLabel "SMK")

def pointCall : Bool × Block 64 := sys.keyToSgxEc256 (w.clock + 6) answers.gb

/-- The two public keys, as they are signed. -/
def signedKeys : Bytes := (answers.pointCall w).2.bytes ++ w.readDest.msg1.gA.bytes

def signCall : Bool × Block 32 × Block 32 :=
  sys.ecdsaSign answers.atSign.clock (answers.signedKeys w) config.servicePrivateKey

/-- Message 2 before its MAC is computed. -/
def unsealed : Msg2 :=
  { gB := (answers.pointCall w).2
    spid := config.spid
    quoteType := config.quoteType
    kdfId := 1
    signX := (answers.signCall config w).2.1.reverse
    signY := (answers.signCall config w).2.2.reverse
    mac := .zero 16
    sigRlSize := answers.sigrl.bytes.length }

def macCall : Bool × Block 16 :=
  sys.cmac128 (answers.atSign.clock + 1) (answers.smkCall w).2
    (answers.unsealed config w).authenticated

/-- What `process_msg01` fills in. -/
def prepared : Prepared :=
  { msg1 := w.readDest.msg1
    msg2 := { answers.unsealed config w with mac := (answers.macCall config w).2 }
    sigrl := answers.sigrl.bytes
    session := { Session.zero with
      gA := w.readDest.msg1.gA
      gB := (answers.pointCall w).2
      kdk := (answers.kdkCall w).2
      smk := (answers.smkCall w).2 } }

/-- The events before the revocation list is fetched. -/
def keyEvents : List (Event sys) :=
  [.read w.msgio, .keyGenerate (some answers.gb),
    .keyFromSgxEc256 w.readDest.msg1.gA (some answers.ga),
    .keySharedSecret answers.gb answers.ga (some answers.secret),
    .cmac128 (.zero 16) answers.secret.reverse (answers.kdkCall w).1 (answers.kdkCall w).2,
    .deriveKdk (some (answers.kdkCall w).2),
    .cmac128 (answers.kdkCall w).2 (keyLabel "SMK") (answers.smkCall w).1 (answers.smkCall w).2,
    .keyToSgxEc256 answers.gb (answers.pointCall w).1 (answers.pointCall w).2]

/-- The world in which the revocation list is fetched. -/
def atSigrl : World sys :=
  ((((((w.afterRead.tick [.keyGenerate (some answers.gb)]).tick
    [.keyFromSgxEc256 w.readDest.msg1.gA (some answers.ga)]).tick
    [.keySharedSecret answers.gb answers.ga (some answers.secret)]).tick
    [.cmac128 (.zero 16) answers.secret.reverse (answers.kdkCall w).1 (answers.kdkCall w).2]).record
    (.deriveKdk (some (answers.kdkCall w).2))).tick
    [.cmac128 (answers.kdkCall w).2 (keyLabel "SMK") (answers.smkCall w).1
      (answers.smkCall w).2]).tick
    [.keyToSgxEc256 answers.gb (answers.pointCall w).1 (answers.pointCall w).2]

theorem atSigrl_log : (answers.atSigrl w).log = w.log ++ answers.keyEvents w := by
  simp [atSigrl, keyEvents]

/-- The events after the revocation list was fetched. -/
def sealEvents : List (Event sys) :=
  [.ecdsaSign (answers.signedKeys w) config.servicePrivateKey (answers.signCall config w).1
      (answers.signCall config w).2.1 (answers.signCall config w).2.2,
    .cmac128 (answers.smkCall w).2 (answers.unsealed config w).authenticated
      (answers.macCall config w).1 (answers.macCall config w).2]

/-- The world in which `process_msg01` returns. -/
def final : World sys :=
  { answers.atSign with
    clock := answers.atSign.clock + 2
    log := answers.atSign.log ++ answers.sealEvents config w }

end Msg01Answers

/-- The answers and the contents of message 0 and 1 under which `process_msg01` returns 1. -/
structure Msg01Accepted (config : Config sys) (w : World sys) (answers : Msg01Answers sys) :
    Prop where
  read_ok : w.readRv ≠ -1 ∧ w.readRv ≠ 0
  groupId : w.readDest.extendedEpidGroupId = 0
  generated : sys.keyGenerate (w.clock + 1) = some answers.gb
  peer : sys.keyFromSgxEc256 (w.clock + 2) w.readDest.msg1.gA = some answers.ga
  shared : sys.keySharedSecret (w.clock + 3) answers.gb answers.ga = some answers.secret
  fetched : getSigrl config.apiver (leNat w.readDest.msg1.gid.bytes) (answers.atSigrl w) =
    (some (some answers.sigrl), answers.atSign)

/-- `process_msg01` returns 1 exactly under these conditions. -/
theorem processMsg01_eq_some_iff {config : Config sys} {w w' : World sys} {prepared : Prepared} :
    processMsg01 config w = (some (some prepared), w') ↔
      ∃ answers, Msg01Accepted config w answers ∧ prepared = answers.prepared config w ∧
        w' = answers.final config w := by
  unfold processMsg01 prepareMsg2 keyGenerate
  simp +instances only [read_bind, reject_eq_some_iff, call_bind, World.afterRead_clock]
  constructor
  · rintro ⟨hsystem, hprotocol, hgid, hrest⟩
    generalize hgenerated : sys.keyGenerate (w.clock + 1) = generated at hrest
    cases generated with
    | none => cases hrest
    | some gb =>
        obtain ⟨derived, next, hderive, hrest⟩ := bind_eq_some.mp hrest
        cases derived with
        | none => cases hrest
        | some kdk =>
            obtain ⟨ga, secret, hpeer, hshared, rfl, rfl⟩ := deriveKdk_eq_some_iff.mp hderive
            dsimp only at hrest
            rw [cmac128_bind] at hrest
            dsimp only at hrest
            rw [keyToSgxEc256_bind] at hrest
            dsimp only at hrest
            obtain ⟨fetched, atSign, hfetch, hrest⟩ := bind_eq_some.mp hrest
            cases fetched with
            | none => cases hrest
            | some sigrl =>
                dsimp only at hrest
                rw [ecdsaSign_bind] at hrest
                dsimp only at hrest
                rw [cmac128_bind] at hrest
                cases hrest
                refine ⟨⟨gb, ga, secret, sigrl, atSign⟩, ?_, rfl, ?_⟩
                · exact ⟨⟨hsystem, hprotocol⟩, not_not.mp hgid, hgenerated, hpeer, hshared, hfetch⟩
                · simp only [World.tick, List.append_assoc]
                  rfl
  · rintro ⟨answers, haccepted, rfl, rfl⟩
    refine ⟨haccepted.read_ok.1, haccepted.read_ok.2, not_not.mpr haccepted.groupId, ?_⟩
    rw [haccepted.generated]
    dsimp only
    rw [bind_of_some (deriveKdk_eq_some_iff.mpr
      ⟨answers.ga, answers.secret, haccepted.peer, haccepted.shared, rfl, rfl⟩)]
    dsimp only
    rw [cmac128_bind]
    dsimp only
    rw [keyToSgxEc256_bind]
    dsimp only
    refine bind_eq_some.mpr ⟨some answers.sigrl, answers.atSign, haccepted.fetched, ?_⟩
    dsimp only
    rw [ecdsaSign_bind]
    dsimp only
    rw [cmac128_bind]
    simp only [World.tick, List.append_assoc]
    rfl

/-- What an accepted message leaves behind. Between the derivation of the keys and the
signature lie the requests for the revocation list, and the list is the decoded content
of an answered one. -/
theorem Msg01Accepted.trace {config : Config sys} {w : World sys} {answers : Msg01Answers sys}
    (haccepted : Msg01Accepted config w answers) :
    answers.atSign.msgio = w.msgio.read.2 ∧
      ∃ requests request response t,
        emitted (processMsg01 config) w = answers.keyEvents w ++ requests ++
          [.getSigrl (some answers.sigrl.bytes)] ++ answers.sealEvents config w ∧
        (∀ event ∈ requests, ∃ request response, event = .request request response) ∧
        Event.request request (some response) ∈ requests ∧ response.statusCode = iasOk ∧
        sys.base64Decode t (cstr response.content) = some answers.sigrl := by
  obtain ⟨text, next, hloop, hdecode, hatSign⟩ := getSigrl_eq_some_iff.mp haccepted.fetched
  obtain ⟨hmsgio, requests, hlog, hrequests, hanswered⟩ := sigrlLoop_fetched hloop
  obtain ⟨request, response, hmem, hstatus, rfl⟩ := hanswered rfl
  refine ⟨?_, requests, request, response, next.clock, ?_, hrequests, hmem, hstatus, hdecode⟩
  · rw [hatSign]
    exact hmsgio
  · have hrun := processMsg01_eq_some_iff.mpr ⟨answers, haccepted, rfl, rfl⟩
    unfold emitted
    rw [hrun, Msg01Answers.final, hatSign]
    simp [hlog, Msg01Answers.atSigrl_log]

end RemoteAttestation
