import RemoteAttestation.Foundation.Proc
import RemoteAttestation.Transport.MsgIo
import RemoteAttestation.ServiceProvider.Layout

/-! # What the service provider calls

Everything outside the modelled code answers through a `Sys`. Each answer may
depend on the number of the call, so a `Sys` stands for an arbitrary behaviour of the
cryptographic wrappers, of OpenSSL's certificate functions, of the HTTP agent and of
unset memory. The world of the server process keeps the log of the calls made.
-/

namespace RemoteAttestation

/-- One request of an HTTP agent. An empty body is a GET; the key travels in the
`Ocp-Apim-Subscription-Key` header. -/
structure Request where
  url : Bytes
  body : Bytes
  subscriptionKey : Bytes
deriving DecidableEq

/-- `httpparser::Response`, as far as it is read. -/
structure Response where
  statusCode : Nat
  headers : List (Bytes × Bytes)
  content : Bytes
deriving DecidableEq

/-- What `BIO_read` can return: its length is an `int`. -/
structure Decoded where
  bytes : Bytes
  length_lt : bytes.length < 2 ^ 31

theorem Decoded.length_nil_lt : ([] : Bytes).length < 2 ^ 31 := by decide

structure Sys where
  Pkey : Type
  X509 : Type
  X509Store : Type
  keyGenerate : Nat → Option Pkey
  keyToSgxEc256 : Nat → Pkey → Bool × Block 64
  keyFromSgxEc256 : Nat → Block 64 → Option Pkey
  keySharedSecret : Nat → Pkey → Pkey → Option Bytes
  cmac128 : Nat → Block 16 → Bytes → Bool × Block 16
  /-- A failed digest is reported as `none`. -/
  sha256Digest : Nat → Bytes → Option (Block 32)
  ecdsaSign : Nat → Bytes → Pkey → Bool × Block 32 × Block 32
  /-- `AES_set_encrypt_key` and `AES_encrypt` of one block. -/
  aesEncrypt : Block 16 → Block 16 → Block 16
  base64Encode : Nat → Bytes → Option Bytes
  base64Decode : Nat → Bytes → Option Decoded
  /-- Whether a new agent could be made. -/
  newAgent : Nat → Bool
  agentRequest : Nat → Request → Option Response
  /-- The memory `BIO` and `PEM_read_bio_X509`, for the given piece of a chain. -/
  pemReadX509 : Nat → Nat → Bytes → Option X509
  x509StoreCtxNew : Nat → Bool
  /-- Of the certificate to verify, if there is one, and a stack. -/
  x509StoreCtxInit : Nat → Option X509Store → Option X509 → List X509 → Int
  x509VerifyCert : Nat → Option X509Store → Option X509 → List X509 → Int
  skX509NewNull : Nat → Bool
  /-- Whether `sk_X509_push` of the certificate with the given index succeeds. -/
  skX509Push : Nat → Nat → Bool
  x509GetPubkey : Nat → X509 → Option Pkey
  evpMdCtxNew : Nat → Bool
  evpDigestVerifyInit : Nat → Pkey → Int
  evpDigestVerifyUpdate : Nat → Bytes → Int
  evpDigestVerifyFinal : Nat → Pkey → Bytes → Bytes → Int
  /-- `malloc` of the certificate array. -/
  certarMalloc : Nat → Bool
  /-- The unset variable of `fromHexstring`. -/
  stale : Nat → Nat → UInt8
  /-- The memory behind a pointer that was not assigned. -/
  wild : Nat → Nat → UInt8

inductive SubscriptionKeyID where
  | primary
  | secondary
deriving DecidableEq

/-- `IAS_Connection`: each subscription key is stored under a one-time pad. -/
structure IasConnection (sys : Sys) where
  server : Bytes
  store : Option sys.X509Store
  subscriptionKeyEnc : SubscriptionKeyID → Block 32
  subscriptionKeyXor : SubscriptionKeyID → Block 32
  currentKeyID : SubscriptionKeyID

/-- The calls a handler makes, with what they returned. A call of the transport is
recorded with the object it was made on. -/
inductive Event (sys : Sys) where
  | read (before : MsgIo)
  | keyGenerate (key : Option sys.Pkey)
  | keyFromSgxEc256 (point : Block 64) (key : Option sys.Pkey)
  | keySharedSecret (key peer : sys.Pkey) (secret : Option Bytes)
  | cmac128 (key : Block 16) (message : Bytes) (ok : Bool) (mac : Block 16)
  | deriveKdk (kdk : Option (Block 16))
  | keyToSgxEc256 (key : sys.Pkey) (ok : Bool) (point : Block 64)
  | getSigrl (sigrl : Option Bytes)
  | ecdsaSign (message : Bytes) (key : sys.Pkey) (ok : Bool) (r s : Block 32)
  | sha256Digest (message : Bytes) (digest : Option (Block 32))
  | request (request : Request) (response : Option Response)
  | sendPartial (before : MsgIo) (src : Bytes)
  | send (before : MsgIo) (src : Bytes)

/-- The state of the server process. `clock` numbers the calls. -/
structure World (sys : Sys) where
  msgio : MsgIo
  ias : IasConnection sys
  clock : Nat
  log : List (Event sys)

variable {sys : Sys}

namespace World

/-- The world after a call outside the transport. -/
def tick (w : World sys) (events : List (Event sys)) : World sys :=
  { w with clock := w.clock + 1, log := w.log ++ events }

def record (w : World sys) (event : Event sys) : World sys := { w with log := w.log ++ [event] }

/-- The world after a `read`. -/
def afterRead (w : World sys) : World sys :=
  { w with msgio := w.msgio.read.2, clock := w.clock + 1, log := w.log ++ [.read w.msgio] }

def afterSendPartial (w : World sys) (src : Bytes) : World sys :=
  { w with msgio := w.msgio.sendPartial src, log := w.log ++ [.sendPartial w.msgio src] }

def afterSend (w : World sys) (src : Bytes) : World sys :=
  { w with msgio := w.msgio.send src, log := w.log ++ [.send w.msgio src] }

/-- What the next `read` returns. -/
def readRv (w : World sys) : Int := w.msgio.read.1.rv

/-- Where the pointer given to the next `read` points afterwards: anywhere, if it is
not assigned. -/
def readDest (w : World sys) : Memory := w.msgio.read.1.dest.getD (.wild (sys.wild w.clock))

/-- The number of base 16 characters the next `read` reports. -/
def readSz (w : World sys) : Nat := w.msgio.read.1.sz

section

variable (w : World sys) (events : List (Event sys)) (event : Event sys) (src : Bytes)

@[simp] theorem tick_msgio : (w.tick events).msgio = w.msgio := rfl
@[simp] theorem tick_ias : (w.tick events).ias = w.ias := rfl
@[simp] theorem tick_clock : (w.tick events).clock = w.clock + 1 := rfl
@[simp] theorem tick_log : (w.tick events).log = w.log ++ events := rfl
@[simp] theorem record_msgio : (w.record event).msgio = w.msgio := rfl
@[simp] theorem record_ias : (w.record event).ias = w.ias := rfl
@[simp] theorem record_clock : (w.record event).clock = w.clock := rfl
@[simp] theorem record_log : (w.record event).log = w.log ++ [event] := rfl
@[simp] theorem afterRead_msgio : w.afterRead.msgio = w.msgio.read.2 := rfl
@[simp] theorem afterRead_ias : w.afterRead.ias = w.ias := rfl
@[simp] theorem afterRead_clock : w.afterRead.clock = w.clock + 1 := rfl
@[simp] theorem afterRead_log : w.afterRead.log = w.log ++ [.read w.msgio] := rfl
@[simp] theorem afterSendPartial_msgio :
    (w.afterSendPartial src).msgio = w.msgio.sendPartial src := rfl
@[simp] theorem afterSendPartial_clock : (w.afterSendPartial src).clock = w.clock := rfl
@[simp] theorem afterSendPartial_log :
    (w.afterSendPartial src).log = w.log ++ [.sendPartial w.msgio src] := rfl
@[simp] theorem afterSend_msgio : (w.afterSend src).msgio = w.msgio.send src := rfl
@[simp] theorem afterSend_log : (w.afterSend src).log = w.log ++ [.send w.msgio src] := rfl

end

end World

/-- The next call to something outside: its answer, and the event it leaves in the log. -/
def call {α : Type} (answer : Nat → α) (event : α → List (Event sys)) : Proc (World sys) α :=
  .step fun w => (answer w.clock, w.tick (event (answer w.clock)))

/-- A function of the handlers whose own result is of interest leaves it in the log. -/
def logged {α : Type} (event : α → Event sys) (x : Proc (World sys) α) : Proc (World sys) α := do
  let a ← x
  .step fun w => (a, w.record (event a))

/-! ## Wrappers of `crypto.c` -/

def keyGenerate : Proc (World sys) (Option sys.Pkey) :=
  call sys.keyGenerate fun key => [.keyGenerate key]

def keyFromSgxEc256 (point : Block 64) : Proc (World sys) (Option sys.Pkey) :=
  call (sys.keyFromSgxEc256 · point) fun key => [.keyFromSgxEc256 point key]

def keySharedSecret (key peer : sys.Pkey) : Proc (World sys) (Option Bytes) :=
  call (sys.keySharedSecret · key peer) fun secret => [.keySharedSecret key peer secret]

def keyToSgxEc256 (key : sys.Pkey) : Proc (World sys) (Bool × Block 64) :=
  call (sys.keyToSgxEc256 · key) fun result => [.keyToSgxEc256 key result.1 result.2]

/-- A failed call leaves `mac` with whatever it holds. -/
def cmac128 (key : Block 16) (message : Bytes) : Proc (World sys) (Bool × Block 16) :=
  call (sys.cmac128 · key message) fun result => [.cmac128 key message result.1 result.2]

/-- The digest is zeroed before it is computed. -/
def sha256Digest (message : Bytes) : Proc (World sys) (Bool × Block 32) := do
  let digest ← call (sys.sha256Digest · message) fun digest => [.sha256Digest message digest]
  return (digest.isSome, digest.getD (.zero 32))

def ecdsaSign (message : Bytes) (key : sys.Pkey) :
    Proc (World sys) (Bool × Block 32 × Block 32) :=
  call (sys.ecdsaSign · message key) fun result =>
    [.ecdsaSign message key result.1 result.2.1 result.2.2]

def base64Encode (msg : Bytes) : Proc (World sys) (Option Bytes) :=
  call (sys.base64Encode · msg) fun _ => []

/-- The argument is a C string. -/
def base64Decode (msg : Bytes) : Proc (World sys) (Option Decoded) :=
  call (sys.base64Decode · (cstr msg)) fun _ => []

/-! ## Transport and agent -/

/-- `msgio->read` into an unassigned pointer. -/
def read : Proc (World sys) (Int × Memory × Nat) :=
  .step fun w => ((w.readRv, w.readDest, w.readSz), w.afterRead)

def sendPartial (src : Bytes) : Proc (World sys) Unit := .step fun w => ((), w.afterSendPartial src)

def send (src : Bytes) : Proc (World sys) Unit := .step fun w => ((), w.afterSend src)

/-- `agent->request` of a new agent, with the current subscription key. -/
def agentRequest (request : Request) : Proc (World sys) (Option Response) :=
  call (sys.agentRequest · request) fun response => [.request request response]

def newAgent : Proc (World sys) Bool := call sys.newAgent fun _ => []

/-! ## Running a call -/

section Bind

variable {α β : Type} (w : World sys)

@[simp] theorem call_bind (answer : Nat → α) (event : α → List (Event sys))
    (f : α → Proc (World sys) β) :
    (call answer event >>= f) w = f (answer w.clock) (w.tick (event (answer w.clock))) := rfl

@[simp] theorem read_bind (f : Int × Memory × Nat → Proc (World sys) β) :
    (read >>= f) w = f (w.readRv, w.readDest, w.readSz) w.afterRead := rfl

@[simp] theorem sendPartial_bind (src : Bytes) (f : Unit → Proc (World sys) β) :
    (sendPartial src >>= f) w = f () (w.afterSendPartial src) := rfl

@[simp] theorem send_bind (src : Bytes) (f : Unit → Proc (World sys) β) :
    (send src >>= f) w = f () (w.afterSend src) := rfl

@[simp] theorem cmac128_bind (key : Block 16) (message : Bytes)
    (f : Bool × Block 16 → Proc (World sys) β) :
    (cmac128 key message >>= f) w =
      f ((sys.cmac128 w.clock key message).1, (sys.cmac128 w.clock key message).2)
        (w.tick [.cmac128 key message (sys.cmac128 w.clock key message).1
          (sys.cmac128 w.clock key message).2]) := rfl

@[simp] theorem keyToSgxEc256_bind (key : sys.Pkey) (f : Bool × Block 64 → Proc (World sys) β) :
    (keyToSgxEc256 key >>= f) w =
      f ((sys.keyToSgxEc256 w.clock key).1, (sys.keyToSgxEc256 w.clock key).2)
        (w.tick [.keyToSgxEc256 key (sys.keyToSgxEc256 w.clock key).1
          (sys.keyToSgxEc256 w.clock key).2]) := rfl

@[simp] theorem ecdsaSign_bind (message : Bytes) (key : sys.Pkey)
    (f : Bool × Block 32 × Block 32 → Proc (World sys) β) :
    (ecdsaSign message key >>= f) w =
      f ((sys.ecdsaSign w.clock message key).1, (sys.ecdsaSign w.clock message key).2.1,
          (sys.ecdsaSign w.clock message key).2.2)
        (w.tick [.ecdsaSign message key (sys.ecdsaSign w.clock message key).1
          (sys.ecdsaSign w.clock message key).2.1 (sys.ecdsaSign w.clock message key).2.2]) := rfl

@[simp] theorem sha256Digest_bind (message : Bytes) (f : Bool × Block 32 → Proc (World sys) β) :
    (sha256Digest message >>= f) w =
      f ((sys.sha256Digest w.clock message).isSome,
          (sys.sha256Digest w.clock message).getD (.zero 32))
        (w.tick [.sha256Digest message (sys.sha256Digest w.clock message)]) := rfl

@[simp] theorem base64Encode_bind (msg : Bytes) (f : Option Bytes → Proc (World sys) β) :
    (base64Encode msg >>= f) w = f (sys.base64Encode w.clock msg) (w.tick []) := rfl

@[simp] theorem newAgent_bind (f : Bool → Proc (World sys) β) :
    (newAgent >>= f) w = f (sys.newAgent w.clock) (w.tick []) := rfl

@[simp] theorem agentRequest_bind (request : Request)
    (f : Option Response → Proc (World sys) β) :
    (agentRequest request >>= f) w =
      f (sys.agentRequest w.clock request)
        (w.tick [.request request (sys.agentRequest w.clock request)]) := rfl

end Bind

end RemoteAttestation
