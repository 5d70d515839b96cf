import RemoteAttestation.Foundation.Access
import RemoteAttestation.Transport.HexUtil

/-! # `enclave_ra_get_key_hash`

The ECALL by which the client asks for the hash of a key. The enclave receives the
ciphertext as a C string: the bridge copies it up to its first NUL, and what lies behind
the copy is whatever the heap of the enclave holds there. `printf` formats into a buffer of
the enclave and hands it to `ocall_print_string`.
-/

namespace RemoteAttestation

/-- `BUFSIZ` in the enclave. -/
def bufsiz : Nat := 8192

/-- `SGX_SUCCESS`. -/
def sgxSuccess : UInt32 := 0

/-- `SGX_RA_KEY_SK`. -/
def sgxRaKeySk : UInt32 := 1

/-- `SGX_RA_KEY_MK`. -/
def sgxRaKeyMk : UInt32 := 2

/-- The string behind a pointer into a structure. -/
def StringAt (memory : Memory) (offset : Nat) (string : CString) : Prop :=
  memory.slice offset (string.bytes.length + 1) = string.bytes ++ [0]

/-- The copy of an `[in, string]` parameter, on the heap of the enclave. -/
def bridge (string : CString) (heap : Nat → UInt8) : Memory := ⟨string.bytes ++ [0], heap⟩

/-- What the conversion `%s` writes into a buffer of the given size. -/
def Memory.formatString (memory : Memory) (size : Nat) : Bytes := cstr (memory.slice 0 size)

/-- The string `printf` passes out of the enclave for a formatted text. -/
def enclavePrintf (text : Bytes) : Bytes := cstr (text.take (bufsiz - 1))

/-- The functions the enclave calls: `sgx_sha256_msg` of a key, and `AES_decrypt` under a key. -/
structure EnclaveCrypto where
  sgxSha256Msg : Block 16 → UInt32 × Block 32
  aesDecrypt : Block 16 → Block 16 → Block 16

/-- What one execution finds: the key, and the memory behind the copy of the ciphertext,
behind the key and behind the first block of `plaintext`. -/
structure Execution where
  key : Block 16
  heap : Nat → UInt8
  behindKey : Nat → UInt8
  behindPlaintext : Nat → UInt8

/-- All that leaves the enclave: the strings printed, the out parameters and the value. -/
structure KeyHashOutputs where
  printed : List Bytes
  getKeysRet : UInt32
  hash : Block 32
  ret : UInt32
deriving DecidableEq

/-- The block `AES_decrypt` reads. -/
def decryptInput (ciphertext : CString) (heap : Nat → UInt8) : Block 16 :=
  (bridge ciphertext heap).field 0 16

/-- The ciphertext, one conversion `%02x` a byte. -/
def printCiphertext (ciphertext : Memory) : List Bytes :=
  [enclavePrintf (ascii "Ciphertext: ")] ++
    (List.range 16).map (fun i => enclavePrintf (hexstring [ciphertext.byte i])) ++
    [enclavePrintf [10]]

/-- The two texts that are printed for the SK. -/
def printSk (crypto : EnclaveCrypto) (ciphertext : CString) (e : Execution) : List Bytes :=
  let k : Memory := ⟨e.key.bytes, e.behindKey⟩
  let plaintext : Memory :=
    ⟨(crypto.aesDecrypt e.key (decryptInput ciphertext e.heap)).bytes, e.behindPlaintext⟩
  [enclavePrintf (ascii "SK         = " ++ k.formatString bufsiz ++ [10]),
    enclavePrintf (ascii "Decrypted Text: " ++ plaintext.formatString bufsiz ++ [10])]

/-- `enclave_ra_get_key_hash`, where `sgx_ra_get_keys` returns `getKeysRet`. The bridge
zeroes the out parameters. -/
def enclaveRaGetKeyHash (crypto : EnclaveCrypto) (getKeysRet type : UInt32)
    (ciphertext : CString) (e : Execution) : KeyHashOutputs :=
  if getKeysRet ≠ sgxSuccess then ⟨[], getKeysRet, .zero 32, getKeysRet⟩
  else
    let (shaRet, hash) := crypto.sgxSha256Msg e.key
    { printed := printCiphertext (bridge ciphertext e.heap) ++
        if type = sgxRaKeySk then printSk crypto ciphertext e else []
      getKeysRet
      hash
      ret := shaRet }

/-! ## Strings in memory -/

namespace Memory

/-- A byte of the allocation. -/
theorem byte_eq_getElem (memory : Memory) {i : Nat} (hi : i < memory.block.length) :
    memory.byte i = memory.block[i] := by
  simp [byte, hi]

/-- `%s` writes what stands before the first NUL. -/
theorem formatString_eq {memory : Memory} {text : Bytes} {size : Nat}
    (htext : (0 : UInt8) ∉ text) (hstring : memory.slice 0 (text.length + 1) = text ++ [0])
    (hsize : text.length < size) : memory.formatString size = text := by
  obtain ⟨rest, rfl⟩ := Nat.exists_eq_add_of_lt hsize
  unfold formatString
  rw [show text.length + rest + 1 = text.length + 1 + rest by omega, slice_add, hstring,
    List.append_assoc, List.singleton_append]
  exact cstr_append_nul htext _

end Memory

/-- A short text leaves the enclave as it is. -/
theorem enclavePrintf_eq {text : Bytes} (htext : (0 : UInt8) ∉ text)
    (hshort : text.length < bufsiz) : enclavePrintf text = text := by
  unfold enclavePrintf cstr
  rw [List.take_of_length_le (by omega), List.takeWhile_eq_self_iff]
  intro byte hmem
  simpa using fun h : byte = 0 => htext (h ▸ hmem)

end RemoteAttestation
