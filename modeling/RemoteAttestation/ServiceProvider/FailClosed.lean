import RemoteAttestation.ServiceProvider.Message1

/-! # Failed calls

The handlers stop when no key could be generated, derived or no revocation list could be
fetched. The return values of the digests, of the signature and of the conversion of
a public key they leave unread, so a handler succeeds with whatever such a call left
behind. Which calls have to succeed for a handler to be right is exactly the list of these.
-/

namespace RemoteAttestation

open Proc

variable {sys : Sys}

/-- Whether a call of a handler succeeded. The calls inside `derive_kdk` and
`get_sigrl` that these functions check show in the results of the two. -/
def Event.succeeded : Event sys → Bool
  | .keyGenerate key => key.isSome
  | .cmac128 _ _ ok _ => ok
  | .deriveKdk kdk => kdk.isSome
  | .keyToSgxEc256 _ ok _ => ok
  | .getSigrl sigrl => sigrl.isSome
  | .ecdsaSign _ _ ok _ _ => ok
  | .sha256Digest _ digest => digest.isSome
  | _ => true

/-- If `process_msg01` returns 1, every call it made has succeeded. -/
def FailClosed01 (config : Config sys) (w : World sys) : Prop :=
  ∀ prepared w', processMsg01 config w = (some (some prepared), w') →
    ∀ event ∈ emitted (processMsg01 config) w, event.succeeded

/-- If `process_msg3` sends the ciphertext, every call it made has succeeded. -/
def FailClosed3 (config : Config sys) (msg1 : Msg1) (session : Session) (w : World sys) : Prop :=
  Sends (processMsg3 config msg1 session) w →
    ∀ event ∈ emitted (processMsg3 config msg1 session) w, event.succeeded

/-- The calls of `process_msg01` whose return value it does not read. -/
structure Unread01 (config : Config sys) (w : World sys) (answers : Msg01Answers sys) : Prop where
  kdk : (answers.kdkCall w).1
  smk : (answers.smkCall w).1
  gB : (answers.pointCall w).1
  signature : (answers.signCall config w).1
  mac : (answers.macCall config w).1

/-- The calls of `process_msg3` whose return value it does not read: two before its checks
are through, and five while it prepares message 4 in the world `next`. -/
structure Unread3 (session : Session) (w next : World sys) : Prop where
  vrfymac : (w.vrfymac session).1
  vk : (w.vkCall session).1
  digest : (w.reportDigest session).isSome
  derivedMk : (next.mkCall session).1
  derivedSk : (next.skCall session).1
  hashmk : (sys.sha256Digest (next.clock + 2) (next.mkCall session).2.bytes).isSome
  hashsk : (sys.sha256Digest (next.clock + 3) (next.skCall session).2.bytes).isSome

theorem succeeded_msg01_iff {config : Config sys} {w : World sys} {answers : Msg01Answers sys}
    (haccepted : Msg01Accepted config w answers) :
    (∀ event ∈ emitted (processMsg01 config) w, event.succeeded) ↔ Unread01 config w answers := by
  obtain ⟨_, requests, _, _, _, hemitted, hrequests, _⟩ := haccepted.trace
  have hanswered : ∀ event ∈ requests, event.succeeded := by
    intro event hmem
    obtain ⟨request, response, rfl⟩ := hrequests event hmem
    rfl
  rw [hemitted, List.forall_mem_append, List.forall_mem_append, List.forall_mem_append]
  constructor
  · rintro ⟨⟨⟨hkeys, _⟩, _⟩, hseal⟩
    simp only [Msg01Answers.keyEvents, Msg01Answers.sealEvents, List.forall_mem_cons,
      Event.succeeded] at hkeys hseal
    obtain ⟨_, _, _, _, hkdk, _, hsmk, hgB, _⟩ := hkeys
    obtain ⟨hsignature, hmac, _⟩ := hseal
    exact ⟨hkdk, hsmk, hgB, hsignature, hmac⟩
  · rintro ⟨hkdk, hsmk, hgB, hsignature, hmac⟩
    refine ⟨⟨⟨?_, hanswered⟩, ?_⟩, ?_⟩
    · simp [Msg01Answers.keyEvents, Event.succeeded, hkdk, hsmk, hgB]
    · simp [Event.succeeded]
    · simp [Msg01Answers.sealEvents, Event.succeeded, hsignature, hmac]

/-- The four calls on message 4 use the key derivation key of the session, which the
check of the report data does not change. -/
theorem succeeded_msg3_iff {config : Config sys} {msg1 : Msg1} {session : Session} {w : World sys}
    {b64quote : Bytes} {response : Response} {msg4 : Msg4}
    (haccepted : Msg3Accepted config msg1 session w b64quote response msg4)
    (htrusted : (config.judgeEnclave w.readDest.quoteReportBody msg4).status.isTrusted) :
    (∀ event ∈ emitted (processMsg3 config msg1 session) w, event.succeeded) ↔
      Unread3 session w (w.afterCheck config session b64quote response) := by
  rw [emitted_processMsg3 haccepted htrusted]
  constructor
  · intro hall
    simp only [List.forall_mem_append, World.checkEvents, World.verdictEvents, World.keyEvents,
      List.forall_mem_cons, Event.succeeded] at hall
    obtain ⟨⟨⟨⟨_, hvrfymac, _, hvk, hdigest, _⟩, _⟩, hmk, hsk, hhashmk, hhashsk, _⟩, _⟩ := hall
    exact ⟨hvrfymac, hvk, hdigest, hmk, hsk, hhashmk, hhashsk⟩
  · rintro ⟨hvrfymac, hvk, hdigest, hmk, hsk, hhashmk, hhashsk⟩
    simp only [List.forall_mem_append, World.checkEvents, World.verdictEvents, World.keyEvents,
      List.forall_mem_cons, Event.succeeded]
    simp [hvrfymac, hvk, hdigest, hmk, hsk, hhashmk, hhashsk]

/-- The handlers are fail-closed exactly where the calls whose return value they do not
read succeed once everything they do check was passed. -/
theorem handlers_failClosed_iff (config : Config sys) :
    (∀ w, FailClosed01 config w ↔
      ∀ answers, Msg01Accepted config w answers → Unread01 config w answers) ∧
      ∀ msg1 session w, FailClosed3 config msg1 session w ↔
        ∀ b64quote response msg4, Msg3Accepted config msg1 session w b64quote response msg4 →
          (config.judgeEnclave w.readDest.quoteReportBody msg4).status.isTrusted →
          Unread3 session w (w.afterCheck config session b64quote response) := by
  refine ⟨?_, ?_⟩
  · intro w
    constructor
    · intro hclosed answers haccepted
      have hrun := processMsg01_eq_some_iff.mpr ⟨answers, haccepted, rfl, rfl⟩
      exact (succeeded_msg01_iff haccepted).mp (hclosed _ _ hrun)
    · intro hunread prepared w' hrun
      obtain ⟨answers, haccepted, _⟩ := processMsg01_eq_some_iff.mp hrun
      exact (succeeded_msg01_iff haccepted).mpr (hunread answers haccepted)
  · intro msg1 session w
    constructor
    · intro hclosed b64quote response msg4 haccepted htrusted
      have hsends := processMsg3_sends_iff.mpr ⟨b64quote, response, msg4, haccepted, htrusted⟩
      exact (succeeded_msg3_iff haccepted htrusted).mp (hclosed hsends)
    · intro hunread hsends
      obtain ⟨b64quote, response, msg4, haccepted, htrusted⟩ := processMsg3_sends_iff.mp hsends
      exact (succeeded_msg3_iff haccepted htrusted).mpr
        (hunread b64quote response msg4 haccepted htrusted)

/-- An environment in which everything works but CMAC. -/
def Sys.withoutCmac : Sys :=
  { Sys.reporting .zero (reportText "OK") with cmac128 := fun _ _ _ => (false, .zero 16) }

/-- Message 2 is prepared although no key could be derived. -/
theorem withoutCmac_not_failClosed :
    ∃ w : World .withoutCmac,
      acceptClient (.start (.listen [.sending [.line plainMsg01 (by decide)]])
        (.plain _)) = some w ∧ ¬ FailClosed01 (.plain _ ()) w := by
  refine ⟨_, rfl, ?_⟩
  intro hclosed
  generalize hstart : World.mk _ _ _ _ = w at hclosed
  have hreturns : ((processMsg01 (.plain _ ()) w).1.bind id).isSome := by
    rw [← hstart]
    decide +kernel
  cases hrun : processMsg01 (.plain _ ()) w with
  | mk returned w' =>
      rw [hrun] at hreturns
      obtain ⟨prepared, hprepared⟩ := Option.isSome_iff_exists.mp hreturns
      obtain ⟨_, rfl, rfl⟩ := Option.bind_eq_some_iff.mp hprepared
      obtain ⟨answers, haccepted, _⟩ := processMsg01_eq_some_iff.mp hrun
      have hkdk := ((succeeded_msg01_iff haccepted).mp (hclosed _ _ hrun)).kdk
      cases hkdk

end RemoteAttestation
