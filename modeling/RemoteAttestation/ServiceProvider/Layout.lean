import RemoteAttestation.Foundation.Bytes

/-! # Message layouts

The structures of the remote attestation messages, at the offsets of the packed C
structures. An incoming message is memory behind a pointer that was cast to its
structure, so its fields are read at offsets; an outgoing one is built as a record.
-/

namespace RemoteAttestation

/-- `attestation_status_t`. -/
inductive AttestationStatus where
  | notTrusted
  | notTrustedItsComplicated
  | trustedItsComplicated
  | trusted
deriving DecidableEq

namespace AttestationStatus

def toNat : AttestationStatus → Nat
  | notTrusted => 0
  | notTrustedItsComplicated => 1
  | trustedItsComplicated => 2
  | trusted => 3

/-- The test that decides whether the secret is sent. -/
def isTrusted (status : AttestationStatus) : Bool :=
  status = .trusted || status = .trustedItsComplicated

theorem toNat_lt (status : AttestationStatus) : status.toNat < 4 := by
  cases status <;> decide

end AttestationStatus

/-- `sgx_ra_msg1_t`. -/
structure Msg1 where
  gA : Block 64
  gid : Block 4

/-- `sgx_ra_msg2_t` without its flexible array. -/
structure Msg2 where
  gB : Block 64
  spid : Block 16
  quoteType : UInt16
  kdfId : UInt16
  signX : Block 32
  signY : Block 32
  mac : Block 16
  sigRlSize : Nat

/-- The part of message 2 under its MAC, the first 148 bytes. -/
def Msg2.authenticated (msg2 : Msg2) : Bytes :=
  msg2.gB.bytes ++ msg2.spid.bytes ++ leBytes 2 msg2.quoteType.toNat ++
    leBytes 2 msg2.kdfId.toNat ++ msg2.signX.bytes ++ msg2.signY.bytes

def Msg2.bytes (msg2 : Msg2) : Bytes :=
  msg2.authenticated ++ msg2.mac.bytes ++ leBytes 4 msg2.sigRlSize

def sizeofMsg2 : Nat := 168

theorem Msg2.length_bytes (msg2 : Msg2) : msg2.bytes.length = sizeofMsg2 := by
  simp [Msg2.bytes, Msg2.authenticated, sizeofMsg2]

def sizeofMsg3 : Nat := 336

def sizeofQuote : Nat := 436

def sizeofPlatformInfo : Nat := 101

/-- Three bytes of padding end the structure. -/
def sizeofMsg4 : Nat := 124

/-- `ra_msg4_t`. -/
structure Msg4 where
  status : AttestationStatus
  platformInfoBlob : Block sizeofPlatformInfo
  ciphertext : Block 16
deriving DecidableEq

/-- The structure without its padding, as it is sent. -/
def Msg4.bytes (msg4 : Msg4) : Bytes :=
  leBytes 4 msg4.status.toNat ++ msg4.platformInfoBlob.bytes ++ msg4.ciphertext.bytes

theorem Msg4.length_bytes (msg4 : Msg4) : msg4.bytes.length = 121 := by
  simp [Msg4.bytes, sizeofPlatformInfo]

/-- The members of `sgx_report_body_t` the service provider looks at. -/
structure ReportBody where
  attributesFlags : UInt64
  mrSigner : Block 32
  isvProdId : UInt16
  isvSvn : UInt16
  reportData : Block 64

/-- `SGX_FLAGS_DEBUG`. -/
def sgxFlagsDebug : UInt64 := 2

namespace Memory

/-! ## Messages 0 and 1 -/

def extendedEpidGroupId (msg01 : Memory) : Nat := leNat (msg01.slice 0 4)

def msg1 (msg01 : Memory) : Msg1 := ⟨msg01.field 4 64, msg01.field 68 4⟩

/-! ## Message 3 -/

def msg3Mac (msg3 : Memory) : Block 16 := msg3.field 0 16

def msg3GA (msg3 : Memory) : Block 64 := msg3.field 16 64

def quoteEpidGroupId (msg3 : Memory) : Block 4 := msg3.field (sizeofMsg3 + 4) 4

/-- The report body, at offset 48 of the quote. -/
def quoteReportBody (msg3 : Memory) : ReportBody :=
  let body := sizeofMsg3 + 48
  { attributesFlags := UInt64.ofNat (leNat (msg3.slice (body + 48) 8))
    mrSigner := msg3.field (body + 128) 32
    isvProdId := UInt16.ofNat (leNat (msg3.slice (body + 256) 2))
    isvSvn := UInt16.ofNat (leNat (msg3.slice (body + 258) 2))
    reportData := msg3.field (body + 320) 64 }

/-! ## Message 4 -/

/-- The status, an enumeration of 32 bits. -/
def msg4Status (msg4 : Memory) : Nat := leNat (msg4.slice 0 4)

def msg4PlatformInfoBlob (msg4 : Memory) : Block sizeofPlatformInfo :=
  msg4.field 4 sizeofPlatformInfo

def msg4Ciphertext (msg4 : Memory) : Block 16 := msg4.field 105 16

/-- A client that has received a message 4 finds its fields. -/
theorem msg4_fields {memory : Memory} {msg4 : Msg4} (hblock : memory.block = msg4.bytes) :
    memory.msg4Status = msg4.status.toNat ∧
      memory.msg4PlatformInfoBlob = msg4.platformInfoBlob ∧
      memory.msg4Ciphertext = msg4.ciphertext := by
  have hlength : memory.block.length = 121 := by rw [hblock, msg4.length_bytes]
  have hstatus : (leBytes 4 msg4.status.toNat).length = 4 := length_leBytes _ _
  have hblob : msg4.platformInfoBlob.bytes.length = sizeofPlatformInfo :=
    msg4.platformInfoBlob.length_bytes
  refine ⟨?_, ?_, ?_⟩
  · rw [msg4Status, slice_eq_take_drop _ _ _ (by omega), hblock, Msg4.bytes, List.append_assoc,
      List.drop_zero, List.take_left' hstatus]
    exact leNat_leBytes _ _ (by have := msg4.status.toNat_lt; omega)
  · ext1
    have hinside : 4 + sizeofPlatformInfo ≤ memory.block.length := by
      rw [hlength, sizeofPlatformInfo]
      omega
    rw [msg4PlatformInfoBlob, bytes_field, slice_eq_take_drop _ _ _ hinside, hblock, Msg4.bytes,
      List.append_assoc, List.drop_left' hstatus, List.take_left' hblob]
  · ext1
    rw [msg4Ciphertext, bytes_field, slice_eq_take_drop _ _ _ (by omega), hblock, Msg4.bytes,
      List.drop_left' (by rw [List.length_append, hstatus, hblob, sizeofPlatformInfo]),
      List.take_of_length_le (by rw [msg4.ciphertext.length_bytes])]

end Memory

end RemoteAttestation
