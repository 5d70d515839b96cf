import RemoteAttestation.Foundation.Access
import RemoteAttestation.Enclave.CiphertextTransport

/-! # `do_attestation`

The client's side of a session. The platform and the enclave may answer anything. Each use of
the pointers to the messages 2 and 4 leaves an event in the log.
-/

namespace RemoteAttestation

open Proc

def Msg1.bytes (msg1 : Msg1) : Bytes := msg1.gA.bytes ++ msg1.gid.bytes

/-- What the platform software, the enclave and unset memory answer, by the number of the
call. Each call but the last has a status. -/
structure Platform where
  enclaveRaInit : Nat → UInt32 × UInt32
  sgxGetExtendedEpidGroupId : Nat → UInt32 × Nat
  sgxRaGetMsg1 : Nat → UInt32 × Msg1
  /-- The message and the size it is given, and message 3. -/
  sgxRaProcMsg2 : Nat → Bytes → UInt32 × Bytes
  wild : Nat → Nat → UInt8

/-- What the client does with a received message. -/
inductive ClientEvent where
  | receivedMsg2 (msg2 : Memory)
  | receivedMsg4 (msg4 : Memory)
  | load (message : Memory) (access : Access)
  /-- `sgx_ra_proc_msg2` is given the message and this size. -/
  | procMsg2 (msg2 : Memory) (size : Nat)
  /-- A pointer into the message is passed as an `[in, string]` parameter. -/
  | inString (message : Memory) (offset : Nat)

structure Client where
  msgio : MsgIo
  clock : Nat
  log : List ClientEvent

namespace Client

/-- The client after its transport was opened. -/
def start (msgio : MsgIo) : Client := ⟨msgio, 0, []⟩

/-- The memory behind the pointer that the next `read` is given. -/
def readDest (platform : Platform) (client : Client) : Memory :=
  client.msgio.read.1.dest.getD (.wild (platform.wild client.clock))

def readRv (client : Client) : Int := client.msgio.read.1.rv

def afterRead (client : Client) : Client :=
  { client with msgio := client.msgio.read.2, clock := client.clock + 1 }

def record (client : Client) (events : List ClientEvent) : Client :=
  { client with log := client.log ++ events }

/-- The next call to the platform. -/
def ask {α : Type} (answer : Nat → α) : Proc Client α :=
  .step fun client => (answer client.clock, { client with clock := client.clock + 1 })

def read (platform : Platform) : Proc Client (Int × Memory) :=
  .step fun client => ((client.readRv, client.readDest platform), client.afterRead)

def note (events : List ClientEvent) : Proc Client Unit :=
  .step fun client => ((), client.record events)

/-- A read through the pointer to a message. -/
def load (message : Memory) (offset length : Nat) : Proc Client Bytes := do
  note [.load message ⟨offset, length⟩]
  return message.slice offset length

def sendPartial (src : Bytes) : Proc Client Unit :=
  .step fun client => ((), { client with msgio := client.msgio.sendPartial src })

def send (src : Bytes) : Proc Client Unit :=
  .step fun client => ((), { client with msgio := client.msgio.send src })

section Bind

variable {α β : Type} (client : Client)

@[simp] theorem ask_bind (answer : Nat → α) (f : α → Proc Client β) :
    (ask answer >>= f) client =
      f (answer client.clock) { client with clock := client.clock + 1 } := rfl

@[simp] theorem read_bind (platform : Platform) (f : Int × Memory → Proc Client β) :
    (read platform >>= f) client =
      f (client.readRv, client.readDest platform) client.afterRead := rfl

@[simp] theorem note_bind (events : List ClientEvent) (f : Unit → Proc Client β) :
    (note events >>= f) client = f () (client.record events) := rfl

@[simp] theorem load_bind (message : Memory) (offset length : Nat) (f : Bytes → Proc Client β) :
    (load message offset length >>= f) client =
      f (message.slice offset length) (client.record [.load message ⟨offset, length⟩]) := rfl

@[simp] theorem record_log (events : List ClientEvent) :
    (client.record events).log = client.log ++ events := rfl

@[simp] theorem afterRead_log : client.afterRead.log = client.log := rfl

end Bind

/-- `do_attestation` up to the messages 0 and 1: whether it goes on. -/
def requestMsg2 (platform : Platform) : Proc Client Bool := do
  let (status, sgxrv) ← ask platform.enclaveRaInit
  if status ≠ sgxSuccess then return false
  else if sgxrv ≠ sgxSuccess then return false
  else
    let (status, msg0) ← ask platform.sgxGetExtendedEpidGroupId
    if status ≠ sgxSuccess then return false
    else
      let (status, msg1) ← ask platform.sgxRaGetMsg1
      if status ≠ sgxSuccess then return false
      else
        sendPartial (leBytes 4 msg0)
        send msg1.bytes
        return true

/-- The members of message 2 that the verbose output prints, before the revocation list. -/
def msg2Members : List Access :=
  [⟨0, 32⟩, ⟨32, 32⟩, ⟨64, 16⟩, ⟨80, 2⟩, ⟨82, 2⟩, ⟨84, 64⟩, ⟨148, 16⟩, ⟨164, 4⟩]

/-- `msg2->sig_rl_size`. -/
def sigRlSize (msg2 : Memory) : Nat := leNat (msg2.slice 164 4)

/-- The size that `sgx_ra_proc_msg2` is given: the sum is a `size_t`, and its parameter a
`uint32_t`. -/
def msg2Size (msg2 : Memory) : Nat := (sizeofMsg2 + sigRlSize msg2) % 2 ^ 32

/-- The list is of the length that the message gives. -/
def msg2Details (msg2 : Memory) : List Access := msg2Members ++ [⟨sizeofMsg2, sigRlSize msg2⟩]

def printMsg2 (msg2 : Memory) : Proc Client Unit := note ((msg2Details msg2).map (.load msg2))

/-- From message 2 to message 3. -/
def receiveMsg2 (platform : Platform) (verbose : Bool) : Proc Client Bool := do
  let (rv, msg2) ← read platform
  if rv = 0 then return false
  else if rv = -1 then return false
  else
    note [.receivedMsg2 msg2]
    if verbose then printMsg2 msg2
    let size := (sizeofMsg2 + leNat (← load msg2 164 4)) % 2 ^ 32
    note [.procMsg2 msg2 size]
    let (status, msg3) ← ask (platform.sgxRaProcMsg2 · (msg2.slice 0 size))
    if status ≠ sgxSuccess then return false
    else
      send msg3
      return true

/-- `enclaveTrusted` as it is compared with the two trusted values. -/
def isTrusted (enclaveTrusted : Nat) : Prop :=
  enclaveTrusted = AttestationStatus.trusted.toNat ∨
    enclaveTrusted = AttestationStatus.trustedItsComplicated.toNat

instance (enclaveTrusted : Nat) : Decidable (isTrusted enclaveTrusted) :=
  inferInstanceAs (Decidable (_ ∨ _))

/-- From message 4 on. A blob that is not zero is passed to
`sgx_report_attestation_status`, and the ciphertext is printed and passed to the enclave
twice. -/
def receiveMsg4 (platform : Platform) : Proc Client Unit := do
  let (rv, msg4) ← read platform
  if rv = 0 then return ()
  else if rv = -1 then return ()
  else
    note [.receivedMsg4 msg4]
    let enclaveTrusted := leNat (← load msg4 0 4)
    let blob ← load msg4 4 sizeofPlatformInfo
    if blob ≠ List.replicate sizeofPlatformInfo 0 then
      let _ ← load msg4 4 sizeofPlatformInfo
    if isTrusted enclaveTrusted then
      let _ ← load msg4 offsetCiphertext 16
      note [.inString msg4 offsetCiphertext, .inString msg4 offsetCiphertext]

/-- `do_attestation` on a transport. -/
def doAttestation (platform : Platform) (verbose : Bool) : Proc Client Unit := do
  if ← requestMsg2 platform then
    if ← receiveMsg2 platform verbose then
      receiveMsg4 platform

/-! ## The log of a session -/

/-- What becomes of a message 2. -/
def msg2Log (verbose : Bool) (msg2 : Memory) : List ClientEvent :=
  .receivedMsg2 msg2 :: (if verbose then (msg2Details msg2).map (.load msg2) else []) ++
    [.load msg2 ⟨164, 4⟩, .procMsg2 msg2 (msg2Size msg2)]

/-- What becomes of a message 4. -/
def msg4Log (msg4 : Memory) : List ClientEvent :=
  [.receivedMsg4 msg4, .load msg4 ⟨0, 4⟩, .load msg4 ⟨4, sizeofPlatformInfo⟩] ++
    (if msg4.slice 4 sizeofPlatformInfo ≠ List.replicate sizeofPlatformInfo 0 then
      [.load msg4 ⟨4, sizeofPlatformInfo⟩] else []) ++
    if isTrusted msg4.msg4Status then
      [.load msg4 ⟨offsetCiphertext, 16⟩, .inString msg4 offsetCiphertext,
        .inString msg4 offsetCiphertext]
    else []

variable {platform : Platform} {client : Client}

theorem log_requestMsg2 : (requestMsg2 platform client).2.log = client.log := by
  unfold requestMsg2
  rw [ask_bind]
  dsimp only
  split
  · rfl
  · split
    · rfl
    · rw [ask_bind]
      dsimp only
      split
      · rfl
      · rw [ask_bind]
        dsimp only
        split
        · rfl
        · rfl

theorem log_receiveMsg2 (verbose : Bool) :
    (receiveMsg2 platform verbose client).2.log = client.log ++
      if client.readRv = 0 ∨ client.readRv = -1 then []
      else msg2Log verbose (client.readDest platform) := by
  unfold receiveMsg2
  rw [read_bind]
  dsimp only
  by_cases hprotocol : client.readRv = 0
  · rw [if_pos hprotocol, if_pos (.inl hprotocol), List.append_nil]
    rfl
  · by_cases hsystem : client.readRv = -1
    · rw [if_neg hprotocol, if_pos hsystem, if_pos (.inr hsystem), List.append_nil]
      rfl
    · have hreceived : ¬ (client.readRv = 0 ∨ client.readRv = -1) :=
        not_or.mpr ⟨hprotocol, hsystem⟩
      rw [if_neg hprotocol, if_neg hsystem, if_neg hreceived, note_bind]
      cases verbose with
      | true =>
          simp only [if_true, printMsg2, note_bind, load_bind, ask_bind]
          split
          · simp [msg2Log, msg2Size, sigRlSize]
          · simp [msg2Log, msg2Size, sigRlSize, send]
      | false =>
          simp only [Bool.false_eq_true, if_false, note_bind, load_bind, ask_bind]
          split
          · simp [msg2Log, msg2Size, sigRlSize]
          · simp [msg2Log, msg2Size, sigRlSize, send]

theorem log_receiveMsg4 :
    (receiveMsg4 platform client).2.log = client.log ++
      if client.readRv = 0 ∨ client.readRv = -1 then []
      else msg4Log (client.readDest platform) := by
  unfold receiveMsg4
  rw [read_bind]
  dsimp only
  by_cases hprotocol : client.readRv = 0
  · rw [if_pos hprotocol, if_pos (.inl hprotocol), List.append_nil]
    rfl
  · by_cases hsystem : client.readRv = -1
    · rw [if_neg hprotocol, if_pos hsystem, if_pos (.inr hsystem), List.append_nil]
      rfl
    · have hreceived : ¬ (client.readRv = 0 ∨ client.readRv = -1) :=
        not_or.mpr ⟨hprotocol, hsystem⟩
      rw [if_neg hprotocol, if_neg hsystem, if_neg hreceived, note_bind]
      unfold msg4Log Memory.msg4Status
      simp only [load_bind]
      split
      · simp only [load_bind]
        split
        · simp [note]
        · simp
      · split
        · simp [note]
        · simp

end Client

end RemoteAttestation
