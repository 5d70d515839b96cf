import RemoteAttestation.Enclave.KeyHash
import RemoteAttestation.ServiceProvider.Message2
import RemoteAttestation.ServiceProvider.VerdictDelivery

/-! # The way of the ciphertext into the enclave

The block that a trusted client is sent crosses the line of message 4, its structure and
the bridge, which takes it for a string. A zero byte among the first 15 ends the copy too
early, and `AES_decrypt` reads on behind it.
-/

namespace RemoteAttestation

open Proc

/-- What `AES_decrypt` reads is this block, and was copied by the bridge. -/
def DecryptsBlock (string : CString) (heap : Nat → UInt8) (block : Block 16) : Prop :=
  decryptInput string heap = block ∧ 16 ≤ (bridge string heap).block.length

/-- The offset of `ciphertext` in message 4. -/
def offsetCiphertext : Nat := 105

/-! ## Strings and blocks -/

namespace StringAt

variable {memory : Memory} {offset : Nat} {string : CString}

/-- A string of 15 bytes or more starts with a block whose first 15 bytes are not zero. -/
theorem long_iff (hstring : StringAt memory offset string) :
    15 ≤ string.bytes.length ↔ (0 : UInt8) ∉ memory.slice offset 15 := by
  constructor
  · intro hlong hmem
    obtain ⟨rest, hrest⟩ := Nat.exists_eq_add_of_le (Nat.le_succ_of_le hlong)
    have hleading : memory.slice offset 15 <+: string.bytes ++ [0] := by
      rw [← hstring, show string.bytes.length + 1 = 15 + rest from hrest, Memory.slice_add]
      exact List.prefix_append _ _
    have hinside : memory.slice offset 15 <+: string.bytes :=
      List.prefix_of_prefix_length_le hleading (List.prefix_append _ _) (by simpa using hlong)
    exact string.noNul (hinside.subset hmem)
  · intro hnonzero
    by_contra hshort
    obtain ⟨rest, hrest⟩ := Nat.exists_eq_add_of_le (show string.bytes.length + 1 ≤ 15 by omega)
    -- The terminator lies among the first 15 bytes.
    refine hnonzero ?_
    rw [hrest, Memory.slice_add, hstring]
    simp

/-- The copy of a long string starts with the block at which the string is. -/
theorem decryptInput_eq (hstring : StringAt memory offset string) (heap : Nat → UInt8)
    (hlong : 15 ≤ string.bytes.length) : decryptInput string heap = memory.field offset 16 := by
  obtain ⟨rest, hrest⟩ := Nat.exists_eq_add_of_le (Nat.succ_le_succ hlong)
  have hcopied : 0 + 16 ≤ (bridge string heap).block.length := by
    simp only [bridge, List.length_append, List.length_singleton]
    omega
  ext1
  rw [decryptInput, Memory.bytes_field, Memory.bytes_field,
    Memory.slice_eq_take_drop _ _ _ hcopied, List.drop_zero]
  change (string.bytes ++ [0]).take 16 = _
  rw [← hstring, show string.bytes.length + 1 = 16 + rest from hrest, Memory.slice_add]
  exact List.take_left' (Memory.length_slice _ _ _)

/-- The enclave decrypts the block behind the pointer exactly if no zero byte is among its
first 15. -/
theorem decryptsBlock_iff (hstring : StringAt memory offset string) (heap : Nat → UInt8) :
    DecryptsBlock string heap (memory.field offset 16) ↔
      (0 : UInt8) ∉ (memory.field offset 16).bytes.take 15 := by
  have hhead : (memory.field offset 16).bytes.take 15 = memory.slice offset 15 := by
    rw [Memory.bytes_field, Memory.slice_add _ _ 15 1]
    exact List.take_left' (Memory.length_slice _ _ _)
  rw [hhead, ← hstring.long_iff]
  constructor
  · rintro ⟨_, hcopied⟩
    simp only [bridge, List.length_append, List.length_singleton] at hcopied
    omega
  · intro hlong
    refine ⟨hstring.decryptInput_eq heap hlong, ?_⟩
    simp only [bridge, List.length_append, List.length_singleton]
    omega

end StringAt

/-- The client passes the field of message 4 on as a string. -/
theorem decryptsBlock_msg4_iff {memory : Memory} {msg4 : Msg4} {string : CString}
    (hblock : memory.block = msg4.bytes) (hstring : StringAt memory offsetCiphertext string)
    (heap : Nat → UInt8) :
    DecryptsBlock string heap msg4.ciphertext ↔ (0 : UInt8) ∉ msg4.ciphertext.bytes.take 15 := by
  obtain ⟨_, _, hciphertext⟩ := Memory.msg4_fields hblock
  rw [← hciphertext]
  exact hstring.decryptsBlock_iff heap

/-! ## The ciphertext of a session -/

section

variable {sys : Sys} {config : Config sys} {w w' : World sys} {msg1 : Msg1}
  {session session' : Session} {msg4 : Msg4}

/-- A trusted client is sent the greeting under the SK that is derived for it. -/
theorem ciphertext_of_returns
    (hreturn : processMsg3 config msg1 session w = (some (some (msg4, session')), w'))
    (htrusted : msg4.status.isTrusted = true) :
    msg4.ciphertext = sys.aesEncrypt session'.sk plaintext ∧
      ∃ t, session'.sk = (sys.cmac128 t session.kdk (keyLabel "SK")).2 := by
  unfold processMsg3 at hreturn
  obtain ⟨checked, next, hcheck, hrest⟩ := bind_eq_some.mp hreturn
  cases checked with
  | none => cases hrest
  | some checked =>
      obtain ⟨answer, last, hsend, hanswer⟩ := bind_eq_some.mp hrest
      cases hanswer
      have hjudged : checked.2.status.isTrusted = true :=
        status_of_sendMsg4 hsend ▸ htrusted
      obtain ⟨_, _, _, hsent⟩ := sendMsg4_of_trusted checked.1 next hjudged
      rw [hsent] at hsend
      cases hsend
      obtain ⟨b64quote, response, report, _, hverified, _⟩ := checkMsg3_eq_some_iff.mp hcheck
      cases hverified
      exact ⟨rfl, _, rfl⟩

/-- Over a working socket a trusted client is sent its message 4 in one line. -/
theorem wire_of_trusted {start : World sys} {prepared : Prepared}
    (hworking : WorkingSocket config start) (hcalls : CallsMsg3 config start prepared w)
    (hreturn : processMsg3 config prepared.msg1 prepared.session w =
      (some (some (msg4, session)), w')) (htrusted : msg4.status.isTrusted = true) :
    w'.msgio.wire = w.msgio.wire ++ hexstring msg4.bytes ++ [10] := by
  obtain ⟨hsocket, hempty, hflushes⟩ := hworking.wbuffer_eq_nil hcalls
  obtain ⟨b64quote, response, report, haccepted⟩ := msg3Accepted_of_returns hreturn
  obtain ⟨sent, last, w'', hreturn', hstatus⟩ := processMsg3_returns haccepted
  obtain ⟨hline, _⟩ := wire_processMsg3 hsocket hempty haccepted hreturn
  rw [hreturn] at hreturn'
  cases hreturn'
  exact hline (hstatus ▸ htrusted) hflushes

theorem Msg4.bytes_ne_nil (msg4 : Msg4) : msg4.bytes ≠ [] :=
  List.ne_nil_of_length_pos (by rw [msg4.length_bytes]; omega)

end

/-- A trusted client reads the block that was encrypted for it, and its enclave decrypts
this block exactly if none of the first 15 bytes is zero. -/
theorem ciphertext_decrypted_iff {sys : Sys} {config : Config sys} {start w w' : World sys}
    {prepared : Prepared} {msg4 : Msg4} {session : Session}
    (hworking : WorkingSocket config start) (hcalls : CallsMsg3 config start prepared w)
    (hreturn : processMsg3 config prepared.msg1 prepared.session w =
      (some (some (msg4, session)), w')) (htrusted : msg4.status.isTrusted = true) :
    msg4.ciphertext = sys.aesEncrypt session.sk plaintext ∧
      ∃ line, w'.msgio.wire = w.msgio.wire ++ line ++ [10] ∧ (10 : UInt8) ∉ line ∧
        ReadsMessage line msg4.bytes ∧
        ∀ memory : Memory, memory.block = msg4.bytes → ∀ string heap,
          StringAt memory offsetCiphertext string →
            (DecryptsBlock string heap msg4.ciphertext ↔
              (0 : UInt8) ∉ msg4.ciphertext.bytes.take 15) := by
  refine ⟨(ciphertext_of_returns hreturn htrusted).1, hexstring msg4.bytes,
    wire_of_trusted hworking hcalls hreturn htrusted, notMem_hexstring (by decide),
    readsMessage_hexstring msg4.bytes_ne_nil, ?_⟩
  intro memory hblock string heap hstring
  exact decryptsBlock_msg4_iff hblock hstring heap

/-! ## Two keys -/

/-- The SK is the given key, and `aes` is the block that AES makes of the greeting. -/
def Digests.withSk (sk aes : Block 16) : Digests :=
  { Digests.zero with
    cmac := fun _ message => if message = keyLabel "SK" then sk else .zero 16
    aes := fun _ _ => aes }

theorem Digests.withSk_cmac (sk aes key : Block 16) (message : Bytes) :
    (Digests.withSk sk aes).cmac key message =
      if message = keyLabel "SK" then sk else .zero 16 := rfl

/-- AES-128 of the greeting under the zero key. -/
def aesZeroKey : Block 16 :=
  ⟨[119, 72, 124, 142, 97, 86, 99, 73, 223, 162, 81, 100, 187, 66, 87, 135], rfl⟩

/-- AES-128 of the greeting under the key of 16 bytes 21. -/
def aesKey21 : Block 16 :=
  ⟨[0, 243, 15, 59, 47, 136, 178, 173, 207, 235, 213, 42, 255, 173, 181, 129], rfl⟩

/-- The session of a plain client that is trusted. -/
theorem trusted_plain (sk aes : Block 16) :
    ∃ (prepared : Prepared) (w w' : World (.reporting (.withSk sk aes) (reportText "OK")))
      (msg4 : Msg4) (session : Session),
      WorkingSocket (.plain _ ()) (.serving (.reporting (.withSk sk aes) (reportText "OK"))
        [.plainMsg01, .plainMsg3]) ∧
        CallsMsg3 (.plain _ ()) (.serving _ [.plainMsg01, .plainMsg3]) prepared w ∧
        processMsg3 (.plain _ ()) prepared.msg1 prepared.session w =
          (some (some (msg4, session)), w') ∧
        msg4.status.isTrusted = true := by
  obtain ⟨prepared, w, hcalls, hmsg1, hread⟩ := callsMsg3_plain (.withSk sk aes) (reportText "OK")
    (Recv.delivers_line _ _ [.plainMsg3]) (Recv.delivers_line (plainMsg3 692) _ [])
    (plainMsg3_ne_nil _)
  have hzero := plainFields_plainMsg3 (n := 692) (by decide)
  have hmac : (Digests.withSk sk aes).cmac prepared.session.smk w.msg3Authenticated =
      .zero 16 := by
    rw [Digests.withSk_cmac, if_neg]
    intro hlabel
    have hlength := congrArg List.length hlabel
    rw [World.msg3Authenticated, Memory.length_slice,
      show (keyLabel "SK").length = 6 by decide, sizeofMsg3] at hlength
    omega
  have haccepted := msg3Accepted_plain prepared.session hread hmsg1 hzero hmac
    (fun _ => rfl) evaluateReport_ok
  have hjudged := judgeEnclave_plain ⟨.trusted, .zero _, .zero _⟩ hread hzero
  obtain ⟨msg4, session, w', hreturn, hstatus⟩ := processMsg3_returns haccepted
  refine ⟨prepared, w, w', msg4, session, workingSocket_plain _ _ _, hcalls, hreturn, ?_⟩
  rw [hstatus, hjudged]
  rfl

/-- Under the zero key the enclave decrypts the block, also where a zero byte follows it. -/
theorem ciphertext_decrypted_zeroKey :
    ∃ (prepared : Prepared) (w w' : World (.reporting (.withSk (.zero 16) aesZeroKey)
      (reportText "OK"))) (msg4 : Msg4) (session : Session),
      processMsg3 (.plain _ ()) prepared.msg1 prepared.session w =
          (some (some (msg4, session)), w') ∧
        StringAt ⟨msg4.bytes, fun _ => 0⟩ offsetCiphertext ⟨aesZeroKey.bytes, by decide⟩ ∧
        ∀ heap, DecryptsBlock ⟨aesZeroKey.bytes, by decide⟩ heap msg4.ciphertext := by
  obtain ⟨prepared, w, w', msg4, session, hworking, hcalls, hreturn, htrusted⟩ :=
    trusted_plain (.zero 16) aesZeroKey
  obtain ⟨hciphertext, _, _, _, _, hdecrypts⟩ :=
    ciphertext_decrypted_iff hworking hcalls hreturn htrusted
  have haes : msg4.ciphertext = aesZeroKey := hciphertext
  have hstring : StringAt ⟨msg4.bytes, fun _ => 0⟩ offsetCiphertext
      ⟨aesZeroKey.bytes, by decide⟩ := by
    have hfield : Memory.msg4Ciphertext ⟨msg4.bytes, fun _ => 0⟩ = msg4.ciphertext :=
      (Memory.msg4_fields rfl).2.2
    have hnul : Memory.slice ⟨msg4.bytes, fun _ => 0⟩ (105 + 16) 1 = [0] := by
      have hend : msg4.bytes.length ≤ 121 := by rw [msg4.length_bytes]
      simp [Memory.slice, Memory.byte, hend]
    change Memory.slice _ 105 (16 + 1) = _
    rw [Memory.slice_add, hnul, ← Memory.bytes_field]
    exact congrArg (fun block : Block 16 => block.bytes ++ [0]) (hfield.trans haes)
  refine ⟨prepared, w, w', msg4, session, hreturn, hstring, ?_⟩
  intro heap
  rw [hdecrypts _ rfl _ heap hstring, haes]
  decide

/-- Under the key of bytes 21 the ciphertext starts with a zero byte, and nothing but this
byte is copied into the enclave. -/
theorem ciphertext_truncated_key21 :
    ∃ (prepared : Prepared) (w w' : World (.reporting (.withSk (.fill 16 21) aesKey21)
      (reportText "OK"))) (msg4 : Msg4) (session : Session),
      WorkingSocket (.plain _ ()) (.serving (.reporting (.withSk (.fill 16 21) aesKey21)
        (reportText "OK")) [.plainMsg01, .plainMsg3]) ∧
        CallsMsg3 (.plain _ ()) (.serving _ [.plainMsg01, .plainMsg3]) prepared w ∧
        processMsg3 (.plain _ ()) prepared.msg1 prepared.session w =
          (some (some (msg4, session)), w') ∧
        msg4.status.isTrusted = true ∧ session.sk = .fill 16 21 ∧ msg4.ciphertext = aesKey21 ∧
        ∀ memory : Memory, memory.block = msg4.bytes →
          StringAt memory offsetCiphertext ⟨[], List.not_mem_nil⟩ ∧
            ∀ heap, ¬ DecryptsBlock ⟨[], List.not_mem_nil⟩ heap msg4.ciphertext := by
  obtain ⟨prepared, w, w', msg4, session, hworking, hcalls, hreturn, htrusted⟩ :=
    trusted_plain (.fill 16 21) aesKey21
  obtain ⟨haes, t, hcmac⟩ := ciphertext_of_returns hreturn htrusted
  have hsk : session.sk = .fill 16 21 := by
    rw [hcmac, (Sys.working_computes _ _).cmac128, Digests.withSk_cmac, if_pos rfl]
  have hciphertext : msg4.ciphertext = aesKey21 := haes
  refine ⟨prepared, w, w', msg4, session, hworking, hcalls, hreturn, htrusted, hsk, hciphertext, ?_⟩
  · intro memory hblock
    obtain ⟨_, _, hfield⟩ := Memory.msg4_fields hblock
    have hempty : StringAt memory offsetCiphertext ⟨[], List.not_mem_nil⟩ := by
      have hslice : memory.slice 105 (1 + 15) = aesKey21.bytes := by
        rw [← hciphertext, ← hfield]
        rfl
      rw [Memory.slice_add] at hslice
      have hsplit : aesKey21.bytes = [0] ++ aesKey21.bytes.drop 1 := rfl
      rw [hsplit] at hslice
      exact List.append_inj_left hslice (Memory.length_slice _ _ _)
    refine ⟨hempty, ?_⟩
    intro heap
    rw [decryptsBlock_msg4_iff hblock hempty heap, hciphertext]
    decide

end RemoteAttestation
