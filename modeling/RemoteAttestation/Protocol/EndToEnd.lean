import RemoteAttestation.Protocol.Completion

/-! # What a session achieves

In every state that a client and a server reach together: what they know of each other, for
which enclave a client is told that it is trusted, and what that enclave decrypts.
-/

namespace RemoteAttestation

open Proc

variable {sys : Sys} {config : Config sys} {platform : Platform} {verbose : Bool}
  {connection : Connection} {start : World sys} {n : Network sys}

/-! ## Agreement -/

/-- When every call succeeds and the lines arrive, however they are cut, both programs run to
their ends, and the client has received the verdict on its message 3. -/
theorem exchange_completes {requested answered : Client} {prepared : Prepared}
    {called last : World sys} {verdict : Msg4} {session : Session}
    (hexchange : Exchange config platform verbose connection start requested answered prepared
      called last verdict session) (hspeaks : platform.Speaks) :
    ∃ n, Network.Reachable config platform verbose connection start n ∧
      (Client.doAttestation platform verbose (.start (.connected connection))).2 = n.client ∧
      n.server = last ∧ (serveClient config start).2 = last ∧
      ∃ msg2 msg4, .receivedMsg2 msg2 ∈ n.client.log ∧ msg2.block = prepared.text ∧
        .receivedMsg4 msg4 ∈ n.client.log ∧ msg4.block = verdict.bytes := by
  obtain ⟨n, hreachable, hclient, hserver, msg4, hmem, hblock⟩ := hexchange.reaches_end hspeaks
  have hjoined := Network.joined_of_reachable hexchange.fresh hspeaks hreachable
  have hclientState := hjoined.clientState
  have hserverState := hjoined.serverState
  rw [hclient] at hclientState
  rw [hserver] at hserverState
  have hrun := serveClient_of_callsMsg3 hexchange.calls
  rw [hexchange.judge] at hrun
  cases hclientState with
  | ended hended =>
      cases hserverState with
      | judged hcalls hjudge =>
          rw [hexchange.judge] at hjudge
          obtain ⟨_, msg2, hgiven, hmsg2⟩ := hjoined.agreement.msg3 _ _ _ hserver
          obtain ⟨hreceived, _⟩ := hjoined.agreement.size _ _ hgiven
          exact ⟨n, hreachable, hended, (congrArg Prod.snd hjudge).symm, hrun, msg2, msg4,
            hreceived, hmsg2, hmem, hblock⟩

theorem exchange_completes_plain :
    ∃ (connection : Connection) (n : Network (.reporting .zero (reportText "OK"))),
      Network.Reachable (.plain _ ()) .plain false connection
          (.serving _ [.plainMsg01, .plainMsg3]) n ∧
        (Client.doAttestation .plain false (.start (.connected connection))).2 = n.client ∧
        ∃ msg4, .receivedMsg4 msg4 ∈ n.client.log := by
  obtain ⟨connection, requested, answered, prepared, called, last, verdict, session, hexchange⟩ :=
    exchange_plain
  obtain ⟨n, hreachable, hclient, _, _, _, msg4, _, _, hmem, _⟩ :=
    exchange_completes hexchange Platform.plain_speaks
  exact ⟨connection, n, hreachable, hclient, msg4, hmem⟩

/-! ## Authorisation -/

/-- The messages 3 of the platform have the structures that the server expects, and a quote
whose size fits into 32 bits. -/
def Platform.WellSized (platform : Platform) : Prop :=
  ∀ t msg2, sizeofMsg3 + sizeofQuote ≤ (platform.sgxRaProcMsg2 t msg2).2.length ∧
    (platform.sgxRaProcMsg2 t msg2).2.length < 2 ^ 32 + sizeofMsg3

theorem Platform.WellSized.speaks (hsized : platform.WellSized) : platform.Speaks := by
  intro t msg2 hnil
  have hlong := (hsized t msg2).1
  rw [hnil, sizeofMsg3] at hlong
  exact absurd hlong (by decide)

theorem Network.Joined.authorised {digests : Digests} (hcomputes : sys.Computes digests)
    (hsized : platform.WellSized) (hjoined : n.Joined config platform verbose connection start)
    {msg4 : Memory} (hmem : .receivedMsg4 msg4 ∈ n.client.log) :
    ∃ prepared called verdict session,
      n.serverPhase = .judged prepared called (some (verdict, session)) ∧
        start.readDest.block = platform.msg01 ∧
        called.readDest.block = platform.msg3 prepared.text ∧
        Authorised digests config start prepared.session called ∧
        msg4.block = verdict.bytes ∧ verdict.ciphertext =
          sys.aesEncrypt (digests.cmac prepared.session.kdk (keyLabel "SK")) plaintext := by
  obtain ⟨prepared, called, verdict, session, hserver, htrusted, hblock⟩ :=
    hjoined.agreement.msg4 msg4 hmem
  have hserverState := hjoined.serverState
  rw [hserver] at hserverState
  obtain ⟨hmsg3, _⟩ := hjoined.agreement.msg3 _ _ _ hserver
  obtain ⟨hmsg01, _⟩ := hjoined.agreement.msg01 prepared (by rw [hserver]; rfl)
  cases hserverState with
  | judged hcalls hjudge =>
      obtain ⟨hlong, hfits⟩ := hsized 4 prepared.text
      have hderived := derivedSession_of_callsMsg3 hcomputes hcalls
      have hauthorised : Authorised digests config start prepared.session called := by
        apply (msg3Accepted_iff_authorised hcomputes (fun _ => hmsg3 ▸ hlong)
          (fun _ => hmsg3 ▸ hfits) hderived).mp
        obtain ⟨b64quote, response, report, haccepted⟩ := msg3Accepted_of_returns hjudge
        obtain ⟨sent, _, _, hreturn, hstatus⟩ := processMsg3_returns haccepted
        rw [hjudge] at hreturn
        cases hreturn
        exact ⟨b64quote, response, report, haccepted, hstatus ▸ htrusted⟩
      obtain ⟨hciphertext, t, hsk⟩ := ciphertext_of_returns hjudge htrusted
      rw [hcomputes.cmac128] at hsk
      exact ⟨prepared, called, verdict, session, hserver, hmsg01, hmsg3, hauthorised, hblock,
        hciphertext.trans (congrArg (sys.aesEncrypt · plaintext) hsk)⟩

/-- A client is only told that it is trusted if its own message 3, for the message 2 that was
made for its own message 1, authorises its enclave. -/
theorem told_only_authorised {digests : Digests} (hcomputes : sys.Computes digests)
    (hfresh : start.Fresh) (hsized : platform.WellSized)
    (hreachable : Network.Reachable config platform verbose connection start n) {msg4 : Memory}
    (hmem : .receivedMsg4 msg4 ∈ n.client.log) :
    ∃ prepared called verdict session,
      n.serverPhase = .judged prepared called (some (verdict, session)) ∧
        start.readDest.block = platform.msg01 ∧
        called.readDest.block = platform.msg3 prepared.text ∧
        Authorised digests config start prepared.session called ∧
        msg4.block = verdict.bytes ∧ verdict.ciphertext =
          sys.aesEncrypt (digests.cmac prepared.session.kdk (keyLabel "SK")) plaintext := by
  have hjoined := Network.joined_of_reachable hfresh hsized.speaks hreachable
  exact hjoined.authorised hcomputes hsized hmem

theorem Platform.plain_wellSized : Platform.plain.WellSized := by
  intro t msg2
  change sizeofMsg3 + sizeofQuote ≤ (List.replicate 772 (0 : UInt8)).length ∧
    (List.replicate 772 (0 : UInt8)).length < 2 ^ 32 + sizeofMsg3
  rw [List.length_replicate]
  decide

theorem told_only_authorised_plain :
    ∃ (prepared : Prepared) (called : World (.reporting .zero (reportText "OK"))),
      called.readDest.block = Platform.plain.msg3 prepared.text ∧
        Authorised .zero (.plain _ ()) (.serving _ [.plainMsg01, .plainMsg3]) prepared.session
          called := by
  obtain ⟨connection, requested, answered, prepared, called, last, verdict, session, hexchange⟩ :=
    exchange_plain
  obtain ⟨n, hreachable, _, _, msg4, hmem, _⟩ := hexchange.reaches_end Platform.plain_speaks
  obtain ⟨prepared', called', _, _, _, _, hmsg3, hauthorised, _⟩ :=
    told_only_authorised (Sys.working_computes _ _) hexchange.fresh Platform.plain_wellSized
      hreachable hmem
  exact ⟨prepared', called', hmsg3, hauthorised⟩

/-! ## The greeting -/

/-- The enclave whose message 1 it was: it computes the shared point with its own key, and its
cipher is the inverse of the server's. -/
structure Counterpart (platform : Platform) (crypto : Crypto sys) (enclave : EnclaveCrypto) where
  /-- The x-coordinate of the point that it shares with the key of this public point. -/
  sharedX : Block 64 → Nat
  shared : ∀ t gb ga, sys.keyFromSgxEc256 t (platform.sgxRaGetMsg1 2).2.gA = some ga →
    sharedX (crypto.gB gb) = crypto.sharedX gb ga
  decrypts : ∀ key block, enclave.aesDecrypt key (sys.aesEncrypt key block) = block

/-- The SK that it derives from message 2. -/
def Counterpart.sk {crypto : Crypto sys} {enclave : EnclaveCrypto}
    (counterpart : Counterpart platform crypto enclave) (msg2 : Memory) : Block 16 :=
  crypto.cmac (crypto.cmac (.zero 16) (leBytes 32 (counterpart.sharedX (msg2.field 0 64))))
    (keyLabel "SK")

/-- The point and the key of a session are those of its documented exchange. -/
theorem CallsMsg3.exchanged {crypto : Crypto sys} (himplements : sys.Implements crypto)
    {prepared : Prepared} {called : World sys} (hcalls : CallsMsg3 config start prepared called) :
    ∃ gb ga t, sys.keyFromSgxEc256 t prepared.msg1.gA = some ga ∧
      prepared.msg2.gB = crypto.gB gb ∧ prepared.session.kdk = crypto.kdk gb ga := by
  obtain ⟨next, hprocess, _⟩ := hcalls
  obtain ⟨answers, haccepted, rfl, _⟩ := processMsg01_eq_some_iff.mp hprocess
  obtain ⟨hkdk, _, hpoint⟩ := keys_eq himplements haccepted
  exact ⟨answers.gb, answers.ga, _, haccepted.peer, hpoint, hkdk⟩

theorem Prepared.gB_of_block {prepared : Prepared} {msg2 : Memory}
    (hblock : msg2.block = prepared.text) : msg2.field 0 64 = prepared.msg2.gB := by
  have hlength : 64 ≤ msg2.block.length := by
    rw [hblock, Prepared.text, List.length_append, Msg2.length_bytes, sizeofMsg2]
    omega
  ext1
  rw [Memory.bytes_field, Memory.slice_eq_take_drop _ _ _ (by omega), List.drop_zero, hblock,
    Prepared.text, Msg2.bytes, Msg2.authenticated]
  simp only [List.append_assoc]
  exact List.take_left' prepared.msg2.gB.length_bytes

/-- A client that has received its message 4 passes its enclave the greeting under the key that
they share, unless a zero byte ends the string too early. -/
theorem greeting_decrypted {crypto : Crypto sys} (himplements : sys.Implements crypto)
    {enclave : EnclaveCrypto} (counterpart : Counterpart platform crypto enclave)
    (hfresh : start.Fresh) (hspeaks : platform.Speaks)
    (hreachable : Network.Reachable config platform verbose connection start n)
    {msg2 msg4 : Memory} (hmsg2 : .receivedMsg2 msg2 ∈ n.client.log)
    (hmsg4 : .receivedMsg4 msg4 ∈ n.client.log) :
    ∀ string heap, StringAt msg4 offsetCiphertext string →
      (0 : UInt8) ∉ (msg4.field offsetCiphertext 16).bytes.take 15 →
      enclave.aesDecrypt (counterpart.sk msg2) (decryptInput string heap) = plaintext := by
  have hjoined := Network.joined_of_reachable hfresh hspeaks hreachable
  obtain ⟨prepared, called, verdict, session, hserver, htrusted, hblock⟩ :=
    hjoined.agreement.msg4 msg4 hmsg4
  obtain ⟨made, hmade, hmsg2⟩ := hjoined.agreement.msg2 msg2 hmsg2
  have hprepared : n.serverPhase.prepared = some prepared := by
    rw [hserver]
    rfl
  obtain rfl : prepared = made := Option.some_inj.mp (hprepared.symm.trans hmade)
  obtain ⟨_, hmsg1⟩ := hjoined.agreement.msg01 prepared hprepared
  have hserverState := hjoined.serverState
  rw [hserver] at hserverState
  cases hserverState with
  | judged hcalls hjudge =>
      obtain ⟨gb, ga, t, hpeer, hpoint, hkdk⟩ := hcalls.exchanged himplements
      rw [hmsg1] at hpeer
      obtain ⟨hciphertext, _, hsk⟩ := ciphertext_of_returns hjudge htrusted
      rw [himplements.cmac128, hkdk] at hsk
      -- Both sides have the same SK.
      have hsame : counterpart.sk msg2 = session.sk := by
        rw [Counterpart.sk, Prepared.gB_of_block hmsg2, hpoint, counterpart.shared t gb ga hpeer, hsk]
        rfl
      intro string heap hstring hnonzero
      have hinput : decryptInput string heap = verdict.ciphertext := by
        rw [((hstring.decryptsBlock_iff heap).mpr hnonzero).1]
        exact (Memory.msg4_fields hblock).2.2
      rw [hinput, hciphertext, hsame, counterpart.decrypts]

/-- The functions of an environment whose key pair is the base point. -/
def Crypto.plain (content : Bytes) : Crypto (.reporting .zero content) where
  cmac _ _ := .zero 16
  x _ := p256BaseX
  y _ := p256BaseY
  sharedX _ _ := p256BaseX
  sign _ _ _ := (0, 0)
  base64Decode _ := some ⟨[], Decoded.length_nil_lt⟩

theorem reporting_implements (content : Bytes) :
    (Sys.reporting .zero content).Implements (.plain content) where
  cmac128 _ _ _ := rfl
  keyToSgxEc256 _ _ := rfl
  keySharedSecret _ _ _ := rfl
  ecdsaSign _ _ _ := by
    have hsignature : Block.zero 32 = beBlock 32 0 := by decide
    exact congrArg (fun block => (true, block, block)) hsignature
  base64Decode _ _ := rfl

/-- The enclave of a client with the base point, with a cipher that changes nothing. -/
def Counterpart.plain (content : Bytes) :
    @Counterpart (.reporting .zero content) .plain (.plain content)
      ⟨fun _ => (0, .zero 32), fun _ block => block⟩ where
  sharedX _ := p256BaseX
  shared _ _ _ _ := rfl
  decrypts _ _ := rfl

theorem greeting_decrypted_plain :
    ∃ (connection : Connection) (n : Network (.reporting .zero (reportText "OK")))
      (msg4 : Memory), Network.Reachable (.plain _ ()) .plain false connection
          (.serving _ [.plainMsg01, .plainMsg3]) n ∧ .receivedMsg4 msg4 ∈ n.client.log ∧
        ∀ string heap, StringAt msg4 offsetCiphertext string →
          decryptInput string heap = plaintext := by
  obtain ⟨connection, requested, answered, prepared, called, last, verdict, session, hexchange⟩ :=
    exchange_plain
  obtain ⟨n, hreachable, _, hserver, msg4, hmem, hblock⟩ :=
    hexchange.reaches_end Platform.plain_speaks
  have hjoined := Network.joined_of_reachable hexchange.fresh Platform.plain_speaks hreachable
  obtain ⟨_, msg2, hgiven, _⟩ := hjoined.agreement.msg3 _ _ _ hserver
  obtain ⟨hreceived, _⟩ := hjoined.agreement.size _ _ hgiven
  have hdecrypted := greeting_decrypted (reporting_implements _) (Counterpart.plain _)
    hexchange.fresh Platform.plain_speaks hreachable hreceived hmem
  refine ⟨connection, n, msg4, hreachable, hmem, fun string heap hstring => ?_⟩
  have hciphertext : msg4.field offsetCiphertext 16 = plaintext := by
    refine (Memory.msg4_fields hblock).2.2.trans ?_
    exact (ciphertext_of_returns hexchange.judge hexchange.trusted).1
  apply hdecrypted string heap hstring
  rw [hciphertext]
  decide

end RemoteAttestation
