import RemoteAttestation.Enclave.KeyHash

/-! # What the enclave tells about a key

Two executions whose keys have the same hash, and give the same decryption, should be the
same to the outside. They are for a key other than the SK, as long as the copy of the
ciphertext has the 16 bytes that are printed. The SK itself is printed, and with it what
stands behind it on the stack.
-/

namespace RemoteAttestation

/-- Executions that agree on the hash of the key and, for the SK, on the decryption of the
ciphertext have the same outputs. -/
def Confidential (crypto : EnclaveCrypto) (getKeysRet type : UInt32) (ciphertext : CString) :
    Prop :=
  ∀ e e' : Execution, crypto.sgxSha256Msg e.key = crypto.sgxSha256Msg e'.key →
    (type = sgxRaKeySk → crypto.aesDecrypt e.key (decryptInput ciphertext e.heap) =
      crypto.aesDecrypt e'.key (decryptInput ciphertext e'.heap)) →
    enclaveRaGetKeyHash crypto getKeysRet type ciphertext e =
      enclaveRaGetKeyHash crypto getKeysRet type ciphertext e'

/-- The copy is printed alike in both executions if 16 bytes of it were copied. -/
theorem printCiphertext_bridge_iff (ciphertext : CString) :
    (∀ heap heap', printCiphertext (bridge ciphertext heap) =
      printCiphertext (bridge ciphertext heap')) ↔ 15 ≤ ciphertext.bytes.length := by
  constructor
  · intro hsame
    by_contra hshort
    -- The first byte behind the copy is printed as well.
    have hprinted := hsame (fun _ => 0) (fun _ => 1)
    unfold printCiphertext at hprinted
    have hmap := List.append_cancel_left (List.append_cancel_right hprinted)
    have hbyte := List.map_inj_left.mp hmap (ciphertext.bytes.length + 1) (by simp; omega)
    simp only [bridge, Memory.byte, List.length_append, List.length_singleton, Nat.sub_self,
      List.getD_eq_getElem?_getD, List.getElem?_eq_none, le_refl, Option.getD_none] at hbyte
    exact absurd hbyte (by decide)
  · intro hlong heap heap'
    unfold printCiphertext
    congr 2
    apply List.map_congr_left
    intro i hi
    rw [List.mem_range] at hi
    have hinside : ∀ memory, i < (bridge ciphertext memory).block.length := by
      intro memory
      simp only [bridge, List.length_append, List.length_singleton]
      omega
    rw [Memory.byte_eq_getElem _ (hinside heap), Memory.byte_eq_getElem _ (hinside heap')]
    rfl

/-- The SK is printed as the C string that starts with it. -/
theorem printSk_head {crypto : EnclaveCrypto} {ciphertext : CString} {e : Execution}
    (text : Bytes) (htext : (0 : UInt8) ∉ text) (hshort : text.length < 100)
    (hstack : Memory.slice ⟨e.key.bytes, e.behindKey⟩ 0 (text.length + 1) = text ++ [0]) :
    (printSk crypto ciphertext e).head? =
      some (ascii "SK         = " ++ text ++ [10]) := by
  unfold printSk
  rw [List.head?_cons, Memory.formatString_eq htext hstack (by unfold bufsiz; omega)]
  refine congrArg some (enclavePrintf_eq ?_ ?_)
  · simp only [List.mem_append, not_or]
    exact ⟨⟨by decide, htext⟩, by decide⟩
  · have hlabel : (ascii "SK         = ").length = 13 := by decide
    simp only [List.length_append, List.length_singleton, hlabel]
    unfold bufsiz
    omega

/-- An execution whose key is 16 bytes `A` and stands before the given bytes. -/
def Execution.letters (behindKey heap : Nat → UInt8) : Execution :=
  ⟨.fill 16 65, heap, behindKey, fun _ => 0⟩

/-- What stands behind the SK is printed with it. -/
theorem printSk_behindKey (crypto : EnclaveCrypto) (ciphertext : CString) :
    printSk crypto ciphertext (.letters (fun _ => 0) fun _ => 0) ≠
      printSk crypto ciphertext (.letters (fun i => if i = 0 then 65 else 0) fun _ => 0) := by
  intro hsame
  have hhead := congrArg List.head? hsame
  rw [printSk_head (List.replicate 16 65) (by decide) (by decide) (by decide),
    printSk_head (List.replicate 17 65) (by decide) (by decide) (by decide)] at hhead
  exact absurd hhead (by decide)

/-- When the key was obtained, the hash is handed out and all is printed. -/
theorem enclaveRaGetKeyHash_success (crypto : EnclaveCrypto) (type : UInt32)
    (ciphertext : CString) (e : Execution) :
    enclaveRaGetKeyHash crypto sgxSuccess type ciphertext e =
      ⟨printCiphertext (bridge ciphertext e.heap) ++
          if type = sgxRaKeySk then printSk crypto ciphertext e else [],
        sgxSuccess, (crypto.sgxSha256Msg e.key).2, (crypto.sgxSha256Msg e.key).1⟩ := by
  unfold enclaveRaGetKeyHash
  rw [if_neg (by simp)]

/-- The enclave keeps a key to itself exactly if it did not obtain it, or if the key is not
the SK and the caller's string has 15 bytes before its terminator. -/
theorem key_confidential_iff (crypto : EnclaveCrypto) (getKeysRet type : UInt32)
    (ciphertext : CString) :
    Confidential crypto getKeysRet type ciphertext ↔
      getKeysRet ≠ sgxSuccess ∨ (type ≠ sgxRaKeySk ∧ 15 ≤ ciphertext.bytes.length) := by
  by_cases hsuccess : getKeysRet = sgxSuccess
  · subst hsuccess
    by_cases htype : type = sgxRaKeySk
    · refine iff_of_false ?_ (by simp [htype])
      intro hconfidential
      have hprinted := congrArg KeyHashOutputs.printed
        (hconfidential (.letters (fun _ => 0) fun _ => 0)
          (.letters (fun i => if i = 0 then 65 else 0) fun _ => 0) rfl fun _ => rfl)
      rw [enclaveRaGetKeyHash_success, enclaveRaGetKeyHash_success, if_pos htype,
        if_pos htype] at hprinted
      exact printSk_behindKey crypto ciphertext (List.append_cancel_left hprinted)
    · simp only [htype, ne_eq, not_true_eq_false, not_false_eq_true, true_and, false_or,
        ← printCiphertext_bridge_iff]
      constructor
      · intro hconfidential heap heap'
        have hprinted := congrArg KeyHashOutputs.printed
          (hconfidential (.letters (fun _ => 0) heap) (.letters (fun _ => 0) heap') rfl
            fun h => absurd h htype)
        rw [enclaveRaGetKeyHash_success, enclaveRaGetKeyHash_success, if_neg htype,
          if_neg htype, List.append_nil, List.append_nil] at hprinted
        exact hprinted
      · intro hsame e e' hhash _
        rw [enclaveRaGetKeyHash_success, enclaveRaGetKeyHash_success, if_neg htype,
          if_neg htype, hsame e.heap e'.heap, hhash]
  · refine iff_of_true ?_ (Or.inl hsuccess)
    intro e e' _ _
    unfold enclaveRaGetKeyHash
    rw [if_pos hsuccess, if_pos hsuccess]

/-- Two SKs with the same hash, which decrypt the ciphertext alike, are told apart. -/
theorem sk_leaves_enclave :
    let crypto : EnclaveCrypto := ⟨fun _ => (sgxSuccess, .zero 32), fun _ _ => .zero 16⟩
    let ciphertext : CString := ⟨List.replicate 16 67, by decide⟩
    let first : Execution := ⟨.fill 16 65, fun _ => 0, fun _ => 0, fun _ => 0⟩
    let second : Execution := ⟨.fill 16 66, fun _ => 0, fun _ => 0, fun _ => 0⟩
    crypto.sgxSha256Msg first.key = crypto.sgxSha256Msg second.key ∧
      crypto.aesDecrypt first.key (decryptInput ciphertext first.heap) =
        crypto.aesDecrypt second.key (decryptInput ciphertext second.heap) ∧
      enclaveRaGetKeyHash crypto sgxSuccess sgxRaKeySk ciphertext first ≠
        enclaveRaGetKeyHash crypto sgxSuccess sgxRaKeySk ciphertext second := by
  intro crypto ciphertext first second
  refine ⟨rfl, rfl, ?_⟩
  intro hsame
  have hprinted := congrArg KeyHashOutputs.printed hsame
  rw [enclaveRaGetKeyHash_success, enclaveRaGetKeyHash_success, if_pos rfl, if_pos rfl] at hprinted
  have hhead := congrArg List.head? (List.append_cancel_left hprinted)
  rw [printSk_head (List.replicate 16 65) (by decide) (by decide) (by decide),
    printSk_head (List.replicate 16 66) (by decide) (by decide) (by decide)] at hhead
  exact absurd hhead (by decide)

end RemoteAttestation
