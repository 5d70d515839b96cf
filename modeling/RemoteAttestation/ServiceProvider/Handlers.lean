import RemoteAttestation.Report.IasRequest
import RemoteAttestation.Report.Json

/-! # Message handlers

`process_msg01` and `process_msg3` with the functions they call. A handler that
returns 1 returns the structures it filled. Writing past the end of `msg4` ends the
process, like an exception nobody catches.
-/

namespace RemoteAttestation

/-- `ra_session_t`. -/
structure Session where
  ofKeys ::
  gA : Block 64
  gB : Block 64
  kdk : Block 16
  smk : Block 16
  sk : Block 16
  mk : Block 16
  vk : Block 16

/-- `memset(&session, 0, sizeof session)`. -/
def Session.zero : Session := ⟨.zero 64, .zero 64, .zero 16, .zero 16, .zero 16, .zero 16, .zero 16⟩

/-- `IAS_API_DEF_VERSION` is among the versions that `main` admits. -/
theorem defaultApiver_supported : 4 = 3 ∨ 4 = 4 := .inr rfl

/-- The part of `config_t` that the handlers read. The command line only admits two
versions of the API. -/
structure Config (sys : Sys) where
  spid : Block 16
  quoteType : UInt16
  servicePrivateKey : sys.Pkey
  apiver : Nat
  apiver_supported : apiver = 3 ∨ apiver = 4
  strictTrust : Bool
  reqMrSigner : Block 32
  reqIsvProductId : UInt16
  minIsvsvn : UInt16
  allowDebugEnclave : Bool
  verbose : Bool

/-! ## Enclave identity -/

def verifyEnclaveIdentity (reqMrSigner : Block 32) (reqIsvProductId minIsvsvn : UInt16)
    (allowDebug : Bool) (report : ReportBody) : Bool :=
  if !allowDebug && (report.attributesFlags &&& sgxFlagsDebug) ≠ 0 then false
  else if report.isvProdId ≠ reqIsvProductId then false
  else if report.isvSvn < minIsvsvn then false
  else if report.mrSigner ≠ reqMrSigner then false
  else true

/-! ## Attestation report -/

/-- The fields a verbose server looks up before it evaluates the report. -/
def verboseFields (version : Nat) : List Bytes :=
  (if 3 ≤ version then [ascii "version"] else []) ++
    [ascii "id", ascii "timestamp", ascii "isvEnclaveQuoteStatus", ascii "isvEnclaveQuoteBody",
      ascii "platformInfoBlob", ascii "revocationReason", ascii "pseManifestStatus",
      ascii "pseManifestHash", ascii "nonce", ascii "epidPseudonym"] ++
    (if 4 ≤ version then [ascii "advisoryURL", ascii "advisoryIDs"] else [])

/-- Whether the report is for the version of the API that was asked. -/
def checkVersion (version : Nat) (reportObj : Json) : Bool :=
  if reportObj.hasKey (ascii "version") then
    (reportObj.index (ascii "version")).toInt % 2 ^ 32 = version
  else version < 3

/-- The policy on `isvEnclaveQuoteStatus`. -/
def attestationStatus (quoteStatus : Bytes) (strictTrust : Bool) : AttestationStatus :=
  if quoteStatus = ascii "OK" then .trusted
  else if quoteStatus = ascii "SW_HARDENING_NEEDED" ∨
      quoteStatus = ascii "CONFIGURATION_AND_SW_HARDENING_NEEDED" then
    if strictTrust then .notTrustedItsComplicated else .trustedItsComplicated
  else if quoteStatus = ascii "GROUP_OUT_OF_DATE" then .notTrustedItsComplicated
  else .notTrusted

/-- `memset` to zero, then some bytes stored from the front. -/
def Block.overlay (n : Nat) (stored : Bytes) : Block n :=
  ⟨stored.take n ++ List.replicate (n - stored.length) 0, by simp; omega⟩

/-- The platform info blob of the report stored into a zeroed message 4: what does not
fit into the blob runs into the ciphertext, and past the padding out of the structure. -/
def storePlatformInfoBlob (status : AttestationStatus) (stored : Bytes) : Option Msg4 :=
  if sizeofMsg4 - 4 < stored.length then none
  else some
    { status
      platformInfoBlob := .overlay sizeofPlatformInfo stored
      ciphertext := .overlay 16 (stored.drop sizeofPlatformInfo) }

/-- The bytes decoded from the `platformInfoBlob` of a report, without the 4 bytes of
its header. A text shorter than the header cannot be cut. -/
def decodedPlatformInfoBlob (stale : Nat → UInt8) (blob : Json) : Option Bytes :=
  if blob.isNull then some []
  else
    let pibBuff := blob.toText
    if pibBuff.length < 8 then none
    else
      let pibBuff := pibBuff.drop 8
      some (fromHexstring stale pibBuff (pibBuff.length / 2)).2

/-- The text of `isvEnclaveQuoteStatus` in a parsed report. -/
def quoteStatus (reportObj : Json) : Bytes :=
  (reportObj.index (ascii "isvEnclaveQuoteStatus")).toText

/-- The verdict on a parsed report: `none` is the end of the process, `some none` a
return value of 0. -/
def judgeReport (version : Nat) (strictTrust : Bool) (stale : Nat → UInt8) (reportObj : Json) :
    Option (Option Msg4) :=
  if !checkVersion version reportObj then some none
  else
    let status := attestationStatus (quoteStatus reportObj) strictTrust
    match decodedPlatformInfoBlob stale (reportObj.index (ascii "platformInfoBlob")) with
    | none => none
    | some stored => (storePlatformInfoBlob status stored).map some

/-- What `get_attestation_report` makes of the content of a verified report. -/
def evaluateReport (version : Nat) (strictTrust verbose : Bool) (stale : Nat → UInt8)
    (content : Bytes) : Option (Option Msg4) :=
  match Json.load content with
  | .error _ => none
  | .ok reportObj =>
      judgeReport version strictTrust stale
        (if verbose then (verboseFields version).foldl (fun obj key => obj.touch key) reportObj
        else reportObj)

section

variable {sys : Sys}

/-- `get_attestation_report`. -/
def getAttestationReport (config : Config sys) (b64quote : Bytes) :
    Proc (World sys) (Option Msg4) := do
  let result ← report config.apiver [(ascii "isvEnclaveQuote", cstr b64quote)]
  if result.status = iasOk then
    let verdict ← call (fun t => evaluateReport config.apiver config.strictTrust config.verbose
      (sys.stale t) result.content) fun _ => []
    match verdict with
    | none => .die
    | some msg4 => return msg4
  else return none

/-! ## Signature revocation list -/

/-- `SetSubscriptionKeyID`, to the secondary key. -/
def World.withSecondaryKey (w : World sys) : World sys :=
  { w with ias := { w.ias with currentKeyID := .secondary } }

/-- The retry loop of `get_sigrl`. -/
def sigrlLoop (version gid : Nat) : Nat → Proc (World sys) (Nat × Bytes)
  | 0 => .die
  | fuel + 1 => do
      let (ret, sigrlstr) ← sigrl version gid
      let ias ← connection
      if ret = iasUnauthorized ∧ ias.currentKeyID = .primary then
        .step fun w => ((), w.withSecondaryKey)
        sigrlLoop version gid fuel
      else return (ret, sigrlstr)

/-- `get_sigrl`. The loop runs again only after it has left the primary key. -/
def getSigrl (version gid : Nat) : Proc (World sys) (Option Decoded) :=
  logged (fun decoded => .getSigrl (decoded.map Decoded.bytes)) do
    let (ret, sigrlstr) ← sigrlLoop version gid 2
    if ret ≠ iasOk then return none
    else base64Decode sigrlstr

/-! ## Message 0 and message 1 -/

/-- `derive_kdk`. The shared secret is reversed to little-endian order. -/
def deriveKdk (gb : sys.Pkey) (gA : Block 64) : Proc (World sys) (Option (Block 16)) :=
  logged Event.deriveKdk do
    match ← keyFromSgxEc256 gA with
    | none => return none
    | some ga =>
        match ← keySharedSecret gb ga with
        | none => return none
        | some secret =>
            let (_, kdk) ← cmac128 (.zero 16) secret.reverse
            return some kdk

/-- The plaintext under which a key is derived from the key derivation key. -/
def keyLabel (name : String) : Bytes := [1] ++ ascii name ++ [0, 0x80, 0]

/-- What `process_msg01` fills in when it returns 1. -/
structure Prepared where
  msg1 : Msg1
  msg2 : Msg2
  sigrl : Bytes
  session : Session

/-- `process_msg01` from the copy of message 1 on. -/
def prepareMsg2 (config : Config sys) (msg1 : Msg1) : Proc (World sys) (Option Prepared) := do
  match ← keyGenerate with
  | none => return none
  | some gb =>
      match ← deriveKdk gb msg1.gA with
      | none => return none
      | some kdk =>
          let (_, smk) ← cmac128 kdk (keyLabel "SMK")
          let (_, gB) ← keyToSgxEc256 gb
          match ← getSigrl config.apiver (leNat msg1.gid.bytes) with
          | none => return none
          | some sigrl =>
              let (_, r, s) ← ecdsaSign (gB.bytes ++ msg1.gA.bytes) config.servicePrivateKey
              let msg2 : Msg2 :=
                { gB
                  spid := config.spid
                  quoteType := config.quoteType
                  kdfId := 1
                  signX := r.reverse
                  signY := s.reverse
                  mac := .zero 16
                  sigRlSize := sigrl.bytes.length }
              -- The MAC covers the front of the structure, which is complete by now.
              let (_, mac) ← cmac128 smk msg2.authenticated
              return some
                { msg1
                  msg2 := { msg2 with mac }
                  sigrl := sigrl.bytes
                  session := { Session.zero with gA := msg1.gA, gB, kdk, smk } }

/-- `process_msg01`. Any extended group id but zero is refused. -/
def processMsg01 (config : Config sys) : Proc (World sys) (Option Prepared) := do
  let (rv, msg01, _) ← read
  if rv = -1 then return none
  else if rv = 0 then return none
  else if msg01.extendedEpidGroupId ≠ 0 then return none
  else prepareMsg2 config msg01.msg1

/-! ## Message 3 -/

/-- The check of the quote's report data against the keys of the session. -/
def verifyReportData (session : Session) (msg3 : Memory) : Proc (World sys) (Option Session) := do
  let (_, vk) ← cmac128 session.kdk (keyLabel "VK")
  let (_, digest) ← sha256Digest (session.gA.bytes ++ session.gB.bytes ++ vk.bytes)
  if digest.bytes ++ List.replicate 32 0 ≠ msg3.quoteReportBody.reportData.bytes then return none
  else return some { session with vk }

/-- The first block of the greeting, all that is encrypted. -/
def plaintext : Block 16 := ⟨ascii "Hello, Client! w", by decide⟩

/-- The end of `process_msg3`: message 4 is sent in pieces, and the last one only to
an enclave that is trusted. -/
def sendMsg4 (session : Session) (msg4 : Msg4) : Proc (World sys) (Msg4 × Session) := do
  sendPartial (leBytes 4 msg4.status.toNat)
  sendPartial msg4.platformInfoBlob.bytes
  if msg4.status.isTrusted then
    let (_, mk) ← cmac128 session.kdk (keyLabel "MK")
    let (_, sk) ← cmac128 session.kdk (keyLabel "SK")
    let _ ← sha256Digest mk.bytes
    let _ ← sha256Digest sk.bytes
    let ciphertext := sys.aesEncrypt sk plaintext
    send ciphertext.bytes
    return ({ msg4 with ciphertext }, { session with mk, sk })
  else return (msg4, session)

/-- `quote_sz`, of 32 bits. -/
def quoteSize (sz : Nat) : Nat := (sz / 2 + 2 ^ 32 - sizeofMsg3) % 2 ^ 32

/-- An enclave that is not recognised is not trusted, whatever its report said. -/
def Config.judgeEnclave (config : Config sys) (report : ReportBody) (msg4 : Msg4) : Msg4 :=
  if verifyEnclaveIdentity config.reqMrSigner config.reqIsvProductId config.minIsvsvn
    config.allowDebugEnclave report
  then msg4 else { msg4 with status := .notTrusted }

/-- `process_msg3` up to message 4: the checks, and the verdict of the attestation
service as the identity of the enclave leaves it. -/
def checkMsg3 (config : Config sys) (msg1 : Msg1) (session : Session) :
    Proc (World sys) (Option (Session × Msg4)) := do
  let (rv, msg3, sz) ← read
  if rv = -1 then return none
  else if rv = 0 then return none
  else
    let quoteSz := quoteSize sz
    if msg3.msg3GA ≠ msg1.gA then return none
    else
      let (_, vrfymac) ← cmac128 session.smk (msg3.slice 16 (sizeofMsg3 - 16 + quoteSz))
      if msg3.msg3Mac ≠ vrfymac then return none
      else
        match ← base64Encode (msg3.slice sizeofMsg3 quoteSz) with
        | none => return none
        | some b64quote =>
            if msg1.gid ≠ msg3.quoteEpidGroupId then return none
            else
              match ← getAttestationReport config b64quote with
              | none => return none
              | some msg4 =>
                  match ← verifyReportData session msg3 with
                  | none => return none
                  | some session =>
                      return some (session, config.judgeEnclave msg3.quoteReportBody msg4)

/-- `process_msg3`. -/
def processMsg3 (config : Config sys) (msg1 : Msg1) (session : Session) :
    Proc (World sys) (Option (Msg4 × Session)) := do
  match ← checkMsg3 config msg1 session with
  | none => return none
  | some (session, msg4) => return some (← sendMsg4 session msg4)

end

end RemoteAttestation
