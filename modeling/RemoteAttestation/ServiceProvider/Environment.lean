import RemoteAttestation.Crypto.BigNum
import RemoteAttestation.Transport.Framing
import RemoteAttestation.ServiceProvider.Server

/-! # Environments

`Sys.Computes` says that the digests and the base 64 conversion of an environment
are functions that succeed. `Sys.working` builds such an environment from the functions,
with an attestation service that is a function of the request. Its EC keys are accepted if they
are points on P-256, and its own key pair is the base point.
-/

namespace RemoteAttestation

/-- CMAC, SHA-256, base 64 and AES, as functions. -/
structure Digests where
  cmac : Block 16 → Bytes → Block 16
  sha256 : Bytes → Block 32
  base64 : Bytes → Bytes
  aes : Block 16 → Block 16 → Block 16

/-- The digests never fail and depend on their arguments only. -/
structure Sys.Computes (sys : Sys) (digests : Digests) : Prop where
  cmac128 : ∀ t key message, sys.cmac128 t key message = (true, digests.cmac key message)
  sha256Digest : ∀ t message, sys.sha256Digest t message = some (digests.sha256 message)
  base64Encode : ∀ t message, sys.base64Encode t message = some (digests.base64 message)

/-- The coordinates of a key, in little-endian order, form a point on P-256. -/
def Block.onCurve (point : Block 64) : Bool :=
  OnP256 (leNat (point.bytes.take 32)) (leNat (point.bytes.drop 32))

/-- The public key whose private key is 1. -/
def basePoint : Block 64 := ⟨leBytes 32 p256BaseX ++ leBytes 32 p256BaseY, by simp⟩

theorem basePoint_onCurve : basePoint.onCurve = true := by decide +kernel

/-- An environment in which every call succeeds but for a key that is no point. Private keys
and certificates carry no information, and every signature is good. -/
def Sys.working (digests : Digests) (service : Request → Option Response) : Sys where
  Pkey := Unit
  X509 := Unit
  X509Store := Unit
  keyGenerate _ := some ()
  keyToSgxEc256 _ _ := (true, basePoint)
  keyFromSgxEc256 _ point := if point.onCurve then some () else none
  keySharedSecret _ _ _ := some (beBlock 32 p256BaseX).bytes
  cmac128 _ key message := (true, digests.cmac key message)
  sha256Digest _ message := some (digests.sha256 message)
  ecdsaSign _ _ _ := (true, .zero 32, .zero 32)
  aesEncrypt := digests.aes
  base64Encode _ msg := some (digests.base64 msg)
  base64Decode _ _ := some ⟨[], Decoded.length_nil_lt⟩
  newAgent _ := true
  agentRequest _ request := service request
  pemReadX509 _ _ _ := some ()
  x509StoreCtxNew _ := true
  x509StoreCtxInit _ _ _ _ := 1
  x509VerifyCert _ _ _ _ := 1
  skX509NewNull _ := true
  skX509Push _ _ := true
  x509GetPubkey _ _ := some ()
  evpMdCtxNew _ := true
  evpDigestVerifyInit _ _ := 1
  evpDigestVerifyUpdate _ _ := 1
  evpDigestVerifyFinal _ _ _ _ := 1
  certarMalloc _ := true
  stale _ _ := 0
  wild _ _ := 0

theorem Sys.keyFromSgxEc256_working (digests : Digests) (service : Request → Option Response)
    (t : Nat) : (Sys.working digests service).keyFromSgxEc256 t basePoint = some () := by
  change (if basePoint.onCurve then some () else none) = _
  rw [if_pos basePoint_onCurve]

theorem Sys.working_computes (digests : Digests) (service : Request → Option Response) :
    (Sys.working digests service).Computes digests :=
  ⟨fun _ _ _ => rfl, fun _ _ => rfl, fun _ _ => rfl⟩

def base64Digit (value : Nat) : UInt8 :=
  (ascii "ABCDEFGHIJKLMNOPQRSTUVWXYZabcdefghijklmnopqrstuvwxyz0123456789+/").getD (value % 64) 0

/-- Base 64 without line breaks. -/
def encodeBase64 : Bytes → Bytes
  | [] => []
  | [a] =>
      let value := a.toNat * 16
      [base64Digit (value / 64), base64Digit value, 61, 61]
  | [a, b] =>
      let value := (a.toNat * 256 + b.toNat) * 4
      [base64Digit (value / 4096), base64Digit (value / 64), base64Digit value, 61]
  | a :: b :: c :: rest =>
      let value := (a.toNat * 256 + b.toNat) * 256 + c.toNat
      base64Digit (value / 262144) :: base64Digit (value / 4096) :: base64Digit (value / 64) ::
        base64Digit value :: encodeBase64 rest

example : encodeBase64 (ascii "sgx") = ascii "c2d4" ∧ encodeBase64 (ascii "sg") = ascii "c2c=" := by
  decide

/-- Digests that are all zero, and a cipher that changes nothing. -/
def Digests.zero : Digests :=
  { cmac := fun _ _ => .zero 16
    sha256 := fun _ => .zero 32
    base64 := encodeBase64
    aes := fun _ block => block }

/-- A signed reply of the attestation service. -/
def signedReply (content : Bytes) : Response :=
  { statusCode := 200
    headers := [(ascii "X-IASReport-Signing-Certificate", ascii "cert"),
      (ascii "X-IASReport-Signature", ascii "c2ln")]
    content }

/-- In a working environment a response with the two headers of a signed reply verifies. -/
theorem verifyResponse_signed (digests : Digests) (service : Request → Option Response)
    (t : Nat) (store : Option Unit) (version : Nat) {response : Response}
    (hchain : response.headersAsString (ascii "X-IASReport-Signing-Certificate") = ascii "cert\n")
    (hsignature : response.headersAsString (ascii "X-IASReport-Signature") = ascii "c2ln\n") :
    (verifyResponse (.working digests service) t store version response).status = iasOk := by
  have hcert : ascii "cert\n" ≠ [] := by decide
  have hsig : ascii "c2ln\n" ≠ [] := by decide
  have hdecode : urlDecode (ascii "cert\n") = some (ascii "cert\n") := by decide +kernel
  have hnone : find certBegin ((ascii "cert\n").drop 1) = none := by decide +kernel
  unfold verifyResponse
  simp only [hchain, hsignature, hdecode, certLoop, hnone, Sys.working, if_neg hcert, if_neg hsig]
  simp [certStackBuild, certArray, CertChain.certs, pushCerts, certVerify, sha256Verify]

theorem verifyResponse_working (digests : Digests) (service : Request → Option Response)
    (t : Nat) (store : Option Unit) (version : Nat) (content : Bytes) :
    (verifyResponse (.working digests service) t store version (signedReply content)).status =
      iasOk := by
  refine verifyResponse_signed digests service t store version ?_ ?_
  · change List.flatMap _ [(ascii "X-IASReport-Signing-Certificate", ascii "cert"),
      (ascii "X-IASReport-Signature", ascii "c2ln")] = _
    decide +kernel
  · change List.flatMap _ [(ascii "X-IASReport-Signing-Certificate", ascii "cert"),
      (ascii "X-IASReport-Signature", ascii "c2ln")] = _
    decide +kernel

/-- The attestation service as it is configured by default. -/
def IasConnection.plain (sys : Sys) : IasConnection sys :=
  { server := ascii "api.trustedservices.intel.com/sgx/dev"
    store := none
    subscriptionKeyEnc := fun _ => .zero 32
    subscriptionKeyXor := fun _ => .zero 32
    currentKeyID := .primary }

/-- A configuration with the default API version that asks for all-zero identities. -/
def Config.plain (sys : Sys) (servicePrivateKey : sys.Pkey) : Config sys :=
  { spid := .zero 16
    quoteType := 0
    servicePrivateKey
    apiver := 4
    apiver_supported := defaultApiver_supported
    strictTrust := false
    reqMrSigner := .zero 32
    reqIsvProductId := 0
    minIsvsvn := 0
    allowDebugEnclave := false
    verbose := false }

/-- A message sent as one line and received in one chunk. -/
def Recv.line (message : Bytes) (hfits : 2 * message.length < msgioBufferSz) : Recv :=
  .data ⟨hexstring message ++ [10], by simp; omega⟩

theorem Recv.delivers_line (message : Bytes) (hfits : 2 * message.length < msgioBufferSz)
    (rest : List Recv) :
    Delivers (Recv.line message hfits :: rest) (hexstring message ++ [10]) rest :=
  .last (by simp)

/-- A client that sends some messages and takes all it is sent. -/
def Connection.sending (incoming : List Recv) : Connection := ⟨incoming, [], []⟩

/-- The messages 0 and 1 of a client whose key is the base point, and that has no groups. -/
def plainMsg01 : Bytes := List.replicate 4 0 ++ basePoint.bytes ++ List.replicate 4 0

/-- A message 3 of such a client, with `n` zero bytes behind the key. -/
def plainMsg3 (n : Nat) : Bytes := List.replicate 16 0 ++ basePoint.bytes ++ List.replicate n 0

@[simp] theorem length_plainMsg01 : plainMsg01.length = 72 := by simp [plainMsg01]

@[simp] theorem length_plainMsg3 (n : Nat) : (plainMsg3 n).length = 80 + n := by
  rw [plainMsg3, List.length_append, List.length_append, List.length_replicate,
    List.length_replicate, basePoint.length_bytes]

theorem plainMsg01_ne_nil : plainMsg01 ≠ [] := List.ne_nil_of_length_pos (by simp)

theorem plainMsg3_ne_nil (n : Nat) : plainMsg3 n ≠ [] :=
  List.ne_nil_of_length_pos (by rw [length_plainMsg3]; omega)

def Recv.plainMsg01 : Recv := .line RemoteAttestation.plainMsg01 (by simp [msgioBufferSz])

/-- The shortest message 3 that has a quote. -/
def Recv.plainMsg3 : Recv := .line (RemoteAttestation.plainMsg3 692) (by simp [msgioBufferSz])

/-- A server that is about to accept one client. -/
def World.server (sys : Sys) (incoming : List Recv) : World sys :=
  .start (.listen [.sending incoming]) (.plain sys)

/-- The world in which it serves this client. -/
def World.serving (sys : Sys) (incoming : List Recv) : World sys :=
  .start { MsgIo.listen [] with client := .sending incoming } (.plain sys)

/-- One round of the server loop serves this client. -/
theorem mainLoop_server {sys : Sys} (config : Config sys) (incoming : List Recv) :
    (mainLoop config 1 (.server sys incoming)).1 = [.serving sys incoming] :=
  rounds_one rfl

end RemoteAttestation
