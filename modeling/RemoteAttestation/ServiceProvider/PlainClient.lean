import RemoteAttestation.ServiceProvider.Message1

/-! # A client of zero bytes and one point

In an environment whose digests are zero, a message that is zero where it is compared passes
every check of the handlers, whatever its length, if it has the key of message 1. Such a client
is the simplest one that reaches any point of a session. Its key is the base point, since a
key that is no point on the curve is refused.
-/

namespace RemoteAttestation

open Proc

/-! ## Fields of a message -/

/-- A slice of an allocation, by its bytes. -/
theorem Memory.slice_eq {memory : Memory} {offset length : Nat} {bytes : Bytes}
    (hlength : bytes.length = length) (hbytes : (memory.block.drop offset).take length = bytes) :
    memory.slice offset length = bytes := by
  by_cases hempty : length = 0
  · subst hempty
    rw [List.eq_nil_of_length_eq_zero hlength]
    rfl
  · rw [← hbytes, List.length_take, List.length_drop] at hlength
    rw [slice_eq_take_drop _ _ _ (by omega), hbytes]

theorem Memory.slice_zero {memory : Memory} {offset length : Nat}
    (hzero : (memory.block.drop offset).take length = List.replicate length 0) :
    memory.slice offset length = List.replicate length 0 :=
  Memory.slice_eq List.length_replicate hzero

theorem Memory.field_eq {memory : Memory} {offset length : Nat} {b : Block length}
    (hbytes : (memory.block.drop offset).take length = b.bytes) :
    memory.field offset length = b := by
  ext1
  exact Memory.slice_eq b.length_bytes hbytes

theorem leNat_replicate (n : Nat) : leNat (List.replicate n 0) = 0 := by
  induction n with
  | zero => rfl
  | succ n ih =>
      rw [List.replicate_succ, leNat, ih]
      rfl

/-- Offset and length of the parts of message 3 that are compared with something other than
the key of message 1. -/
def comparedFields : List (Nat × Nat) :=
  [(0, 16), (340, 4), (432, 8), (512, 32), (640, 2), (642, 2), (704, 64)]

/-- A message 3 with the base point that is zero wherever it is compared. -/
structure PlainFields (message : Bytes) : Prop where
  gA : (message.drop 16).take 64 = basePoint.bytes
  zero : ∀ field ∈ comparedFields,
    (message.drop field.1).take field.2 = List.replicate field.2 0

instance (message : Bytes) : Decidable (PlainFields message) :=
  decidable_of_iff ((message.drop 16).take 64 = basePoint.bytes ∧
    ∀ field ∈ comparedFields, (message.drop field.1).take field.2 = List.replicate field.2 0)
    ⟨fun h => ⟨h.1, h.2⟩, fun h => ⟨h.gA, h.zero⟩⟩

theorem gA_plainMsg3 (n : Nat) : ((plainMsg3 n).drop 16).take 64 = basePoint.bytes := by
  rw [plainMsg3, List.append_assoc, List.drop_left' List.length_replicate,
    List.take_left' basePoint.length_bytes]

theorem zero_plainMsg3 {n offset length : Nat} (hbehind : 80 ≤ offset)
    (hinside : offset + length ≤ 80 + n) :
    ((plainMsg3 n).drop offset).take length = List.replicate length 0 := by
  have hfront : (List.replicate 16 0 ++ basePoint.bytes).length = 80 := by simp
  obtain ⟨skipped, rfl⟩ := Nat.exists_eq_add_of_le hbehind
  rw [plainMsg3, ← hfront, List.drop_length_add_append, List.drop_replicate, List.take_replicate]
  congr 1
  omega

theorem mac_plainMsg3 (n : Nat) : ((plainMsg3 n).drop 0).take 16 = List.replicate 16 0 := by
  rw [List.drop_zero, plainMsg3, List.append_assoc, List.take_left' List.length_replicate]

theorem plainFields_plainMsg3 {n : Nat} (hlong : sizeofMsg3 + sizeofQuote ≤ 80 + n) :
    PlainFields (plainMsg3 n) where
  gA := gA_plainMsg3 n
  zero := by
    have hinside : ∀ field ∈ comparedFields, field = (0, 16) ∨
        80 ≤ field.1 ∧ field.1 + field.2 ≤ sizeofMsg3 + sizeofQuote := by decide
    intro field hmem
    rcases hinside field hmem with rfl | ⟨hbehind, hless⟩
    · exact mac_plainMsg3 n
    · exact zero_plainMsg3 hbehind (hless.trans hlong)

section

variable {memory : Memory}

/-- The quoted report body of such a message. -/
theorem Memory.quoteReportBody_zero (hplain : PlainFields memory.block) :
    memory.quoteReportBody = ⟨0, .zero 32, 0, 0, .zero 64⟩ := by
  have hzero := hplain.zero
  unfold Memory.quoteReportBody sizeofMsg3
  dsimp only
  rw [Memory.slice_zero (hzero (432, 8) (by decide)), Memory.slice_zero (hzero (640, 2) (by decide)),
    Memory.slice_zero (hzero (642, 2) (by decide)),
    Memory.field_eq (b := .zero 32) (hzero (512, 32) (by decide)),
    Memory.field_eq (b := .zero 64) (hzero (704, 64) (by decide)), leNat_replicate,
    leNat_replicate]
  rfl

end

/-- The service's default policy accepts it. -/
theorem verifyEnclaveIdentity_zero :
    verifyEnclaveIdentity (.zero 32) 0 0 false ⟨0, .zero 32, 0, 0, .zero 64⟩ = true := by
  decide

/-! ## Receiving a message -/

/-- The next `read` returns a message and leaves the rest of the script. -/
structure World.Receives {sys : Sys} (w : World sys) (message : Bytes) (rest : List Recv) :
    Prop where
  rv : w.readRv = 1
  block : w.readDest.block = message
  sz : w.readSz = 2 * message.length
  rbuffer : w.msgio.read.2.rbuffer = []
  incoming : w.msgio.read.2.client.incoming = rest
  allocs : w.msgio.read.2.client.allocs = w.msgio.client.allocs.tail

theorem World.receives_line {sys : Sys} {w : World sys} {message : Bytes} {rest : List Recv}
    (hsocket : w.msgio.useStdio = false) (hempty : w.msgio.rbuffer = []) (hmessage : message ≠ [])
    (hline : Delivers w.msgio.client.incoming (hexstring message ++ [10]) rest)
    (hallocs : w.msgio.client.allocs = []) : w.Receives message rest := by
  have hmalloc : (malloc w.msgio.client.allocs).1 = some .blank := by
    rw [hallocs]
    rfl
  obtain ⟨memory, hresult, hblock, hrbuffer, hincoming, htail⟩ :=
    MsgIo.read_hexstring hsocket hempty hmessage hline hmalloc
  refine ⟨?_, ?_, ?_, hrbuffer, hincoming, htail⟩
  · rw [World.readRv, hresult]
  · rw [World.readDest, hresult]
    exact hblock
  · rw [World.readSz, hresult]

/-! ## Message 0 and message 1 -/

section

variable {digests : Digests} {content : Bytes} {w : World (.reporting digests content)}

/-- The revocation list is empty, and fetching it leaves the transport alone. -/
theorem getSigrl_reporting (version gid : Nat) :
    ∃ next, getSigrl version gid w = (some (some ⟨[], Decoded.length_nil_lt⟩), next) ∧
      next.msgio = w.msgio := by
  have hsigrl : ∃ next, sigrl version gid w = (some (iasOk, content), next) ∧
      next.msgio = w.msgio := ⟨_, rfl, rfl⟩
  obtain ⟨next, hsigrl, hmsgio⟩ := hsigrl
  have hloop : sigrlLoop version gid 2 w = (some (iasOk, content), next) := by
    rw [sigrlLoop_succ hsigrl, if_neg (by simp [iasOk, iasUnauthorized])]
  exact ⟨_, getSigrl_eq_some_iff.mpr ⟨_, next, hloop, rfl, rfl⟩, hmsgio⟩

/-- The fields of the plain messages 0 and 1. -/
theorem Memory.msg1_plain {memory : Memory} (hblock : memory.block = plainMsg01) :
    memory.extendedEpidGroupId = 0 ∧ memory.msg1 = ⟨basePoint, .zero 4⟩ := by
  have hfront : (List.replicate 4 (0 : UInt8)).length = 4 := List.length_replicate
  have hkey : (List.replicate 4 0 ++ basePoint.bytes).length = 68 := by simp
  have hgroup : memory.slice 0 4 = List.replicate 4 0 := by
    apply Memory.slice_zero
    rw [hblock, plainMsg01, List.append_assoc, List.drop_zero, List.take_left' hfront]
  have hgA : memory.field 4 64 = basePoint := by
    apply Memory.field_eq
    rw [hblock, plainMsg01, List.append_assoc, List.drop_left' hfront,
      List.take_left' basePoint.length_bytes]
  have hgid : memory.field 68 4 = .zero 4 := by
    apply Memory.field_eq
    rw [hblock, plainMsg01, List.drop_left' hkey, Block.bytes_zero]
    rfl
  exact ⟨by rw [Memory.extendedEpidGroupId, hgroup, leNat_replicate], by rw [Memory.msg1, hgA, hgid]⟩

/-- What the plain messages 0 and 1 lead to. -/
theorem processMsg01_plain {rest : List Recv} (hread : w.Receives plainMsg01 rest) :
    ∃ prepared next, processMsg01 (.plain _ ()) w = (some (some prepared), next) ∧
      prepared.msg1 = ⟨basePoint, .zero 4⟩ ∧ prepared.sigrl = [] ∧ next.msgio = w.msgio.read.2 := by
  obtain ⟨hgroup, hmsg1⟩ := Memory.msg1_plain hread.block
  let unfetched : Msg01Answers (.reporting digests content) :=
    ⟨(), (), (beBlock 32 p256BaseX).bytes, ⟨[], Decoded.length_nil_lt⟩, w⟩
  obtain ⟨next, hfetched, hmsgio⟩ := getSigrl_reporting (w := unfetched.atSigrl w) 4
    (leNat w.readDest.msg1.gid.bytes)
  let answers : Msg01Answers (.reporting digests content) := { unfetched with atSign := next }
  have haccepted : Msg01Accepted (.plain _ ()) w answers :=
    { read_ok := by rw [hread.rv]; decide
      groupId := hgroup
      generated := rfl
      peer := by
        rw [hmsg1]
        exact Sys.keyFromSgxEc256_working _ _ _
      shared := rfl
      fetched := hfetched }
  exact ⟨_, _, processMsg01_eq_some_iff.mpr ⟨answers, haccepted, rfl, rfl⟩, hmsg1, rfl, hmsgio⟩

end

/-- The session of a client that sends the plain messages 0 and 1 reaches message 3. -/
theorem callsMsg3_plain (digests : Digests) (content : Bytes) {incoming middle rest : List Recv}
    {message : Bytes}
    (hfirst : Delivers incoming (hexstring plainMsg01 ++ [10]) middle)
    (hsecond : Delivers middle (hexstring message ++ [10]) rest) (hmessage : message ≠ []) :
    ∃ prepared w, CallsMsg3 (.plain (.reporting digests content) ()) (.serving _ incoming) prepared w ∧
      prepared.msg1 = ⟨basePoint, .zero 4⟩ ∧ w.Receives message rest := by
  have hread : (World.serving (.reporting digests content) incoming).Receives plainMsg01 middle :=
    World.receives_line rfl rfl plainMsg01_ne_nil hfirst rfl
  obtain ⟨prepared, next, hprocess, hmsg1, _, hmsgio⟩ := processMsg01_plain hread
  have hreceiver : next.msgio.SameReceiver
      ((next.afterSendPartial prepared.msg2.bytes).afterSend
        (prepared.sigrl.take prepared.msg2.sigRlSize)).msgio :=
    (MsgIo.sendPartial_receiver _ _).trans (MsgIo.send_receiver _ _)
  refine ⟨prepared, _, ⟨next, hprocess, rfl⟩, hmsg1, World.receives_line ?_ ?_ hmessage ?_ ?_⟩
  · rw [hreceiver.useStdio, hmsgio, (MsgIo.read_quiet _).1]
    rfl
  · rw [hreceiver.rbuffer, hmsgio, hread.rbuffer]
  · rw [hreceiver.incoming, hmsgio, hread.incoming]
    exact hsecond
  · rw [hreceiver.allocs, hmsgio, hread.allocs]
    rfl

/-! ## Message 3 -/

section

variable {digests : Digests} {content message : Bytes} {w : World (.reporting digests content)}
  {rest : List Recv} {msg1 : Msg1} {msg4 : Msg4}

/-- Such a message 3 is accepted if the digests it is compared with are zero. -/
theorem msg3Accepted_plain (session : Session) (hread : w.Receives message rest)
    (hmsg1 : msg1 = ⟨basePoint, .zero 4⟩) (hplain : PlainFields message)
    (hmac : digests.cmac session.smk w.msg3Authenticated = .zero 16)
    (hdata : ∀ text, digests.sha256 text = .zero 32)
    (heval : evaluateReport 4 false false (fun _ => 0) content = some (some msg4)) :
    Msg3Accepted (.plain _ ()) msg1 session w (digests.base64 w.msg3Quote) (signedReply content)
      msg4 := by
  rw [← hread.block] at hplain
  subst hmsg1
  refine
    { read_ok := by rw [hread.rv]; decide
      gA := Memory.field_eq hplain.gA
      mac := ?_
      encoded := rfl
      gid := (Memory.field_eq (b := .zero 4) (hplain.zero (340, 4) (by decide))).symm
      report := reporting_accepts _ _ heval
      reportData := ?_ }
  · rw [Memory.msg3Mac, Memory.field_eq (b := .zero 16) (hplain.zero (0, 16) (by decide))]
    exact hmac.symm
  · have hdigest : w.reportDigest session = some (.zero 32) := congrArg some (hdata _)
    rw [hdigest, Memory.quoteReportBody_zero hplain]
    rfl

/-- The default configuration recognises its enclave. -/
theorem judgeEnclave_plain (msg4 : Msg4) (hread : w.Receives message rest)
    (hplain : PlainFields message) :
    (Config.plain (.reporting digests content) ()).judgeEnclave w.readDest.quoteReportBody msg4 =
      msg4 := by
  rw [← hread.block] at hplain
  unfold Config.judgeEnclave
  rw [Memory.quoteReportBody_zero hplain]
  exact if_pos verifyEnclaveIdentity_zero

/-- A trusted report then has the ciphertext sent. -/
theorem sends_plain (session : Session) (hread : w.Receives message rest)
    (hmsg1 : msg1 = ⟨basePoint, .zero 4⟩) (hplain : PlainFields message)
    (hmac : digests.cmac session.smk w.msg3Authenticated = .zero 16)
    (hdata : ∀ text, digests.sha256 text = .zero 32)
    (heval : evaluateReport 4 false false (fun _ => 0) content = some (some msg4))
    (htrusted : msg4.status.isTrusted) : Sends (processMsg3 (.plain _ ()) msg1 session) w := by
  refine processMsg3_sends_iff.mpr
    ⟨_, _, msg4, msg3Accepted_plain session hread hmsg1 hplain hmac hdata heval, ?_⟩
  rw [judgeEnclave_plain msg4 hread hplain]
  exact htrusted

end

end RemoteAttestation
