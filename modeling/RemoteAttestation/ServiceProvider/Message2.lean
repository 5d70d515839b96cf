import RemoteAttestation.ServiceProvider.PlainClient

/-! # The layout of message 2

The documented message, byte by byte, from the numbers of the key exchange; and that the
line `process_msg01` and its caller send is this message. Keys and signatures leave
OpenSSL as big-endian numbers, and are sent in little-endian order.
-/

namespace RemoteAttestation

open Proc

variable {sys : Sys}

/-- The cryptographic functions behind the wrappers. A signature depends on the call,
since it is randomised. -/
structure Crypto (sys : Sys) where
  cmac : Block 16 → Bytes → Block 16
  /-- The affine coordinates of a public key. -/
  x : sys.Pkey → Nat
  y : sys.Pkey → Nat
  /-- The x-coordinate of the shared point. -/
  sharedX : sys.Pkey → sys.Pkey → Nat
  sign : Nat → Bytes → sys.Pkey → Nat × Nat
  base64Decode : Bytes → Option Decoded

namespace Crypto

variable (crypto : Crypto sys)

/-- `LE(Gb.x) || LE(Gb.y)`. -/
def gB (key : sys.Pkey) : Block 64 :=
  ⟨leBytes 32 (crypto.x key) ++ leBytes 32 (crypto.y key), by simp⟩

def kdk (gb ga : sys.Pkey) : Block 16 :=
  crypto.cmac (.zero 16) (leBytes 32 (crypto.sharedX gb ga))

def smk (gb ga : sys.Pkey) : Block 16 :=
  crypto.cmac (crypto.kdk gb ga) [1, 83, 77, 75, 0, 0x80, 0]

/-- The documented message up to its MAC, with the signature made by the call `t`. -/
def msg2Front (config : Config sys) (t : Nat) (gb : sys.Pkey) (gA : Bytes) : Bytes :=
  let rs := crypto.sign t ((crypto.gB gb).bytes ++ gA) config.servicePrivateKey
  (crypto.gB gb).bytes ++ config.spid.bytes ++ leBytes 2 config.quoteType.toNat ++ leBytes 2 1 ++
    leBytes 32 rs.1 ++ leBytes 32 rs.2

/-- The documented message. -/
def documentedMsg2 (config : Config sys) (t : Nat) (gb ga : sys.Pkey) (gA sigrl : Bytes) : Bytes :=
  let front := crypto.msg2Front config t gb gA
  front ++ (crypto.cmac (crypto.smk gb ga) front).bytes ++ leBytes 4 sigrl.length ++ sigrl

theorem length_msg2Front (config : Config sys) (t : Nat) (gb : sys.Pkey) (gA : Bytes) :
    (crypto.msg2Front config t gb gA).length = 148 := by
  simp [msg2Front]

/-- `sig_rl_size` stands at offset 164. -/
theorem documentedMsg2_size (config : Config sys) (t : Nat) (gb ga : sys.Pkey) (gA : Bytes)
    {sigrl : Bytes} (hsize : sigrl.length < 2 ^ 31) :
    let message := crypto.documentedMsg2 config t gb ga gA sigrl
    message.length = sizeofMsg2 + leNat ((message.drop 164).take 4) := by
  intro message
  have hfront : (crypto.msg2Front config t gb gA).length = 148 := crypto.length_msg2Front ..
  have hdrop : message.drop 164 = leBytes 4 sigrl.length ++ sigrl := by
    unfold message documentedMsg2
    rw [List.append_assoc, List.drop_left']
    rw [List.length_append, hfront, Block.length_bytes]
  rw [hdrop, List.take_left' (length_leBytes _ _), leNat_leBytes _ _ (by omega)]
  unfold message documentedMsg2
  simp only [List.length_append, hfront, Block.length_bytes, length_leBytes, sizeofMsg2]

end Crypto

/-- The wrappers succeed, and encode numbers as OpenSSL documents it. -/
structure Sys.Implements (sys : Sys) (crypto : Crypto sys) : Prop where
  cmac128 : ∀ t key message, sys.cmac128 t key message = (true, crypto.cmac key message)
  keyToSgxEc256 : ∀ t key, sys.keyToSgxEc256 t key = (true, crypto.gB key)
  keySharedSecret : ∀ t key peer,
    sys.keySharedSecret t key peer = some (beBlock 32 (crypto.sharedX key peer)).bytes
  ecdsaSign : ∀ t message key, sys.ecdsaSign t message key =
    (true, beBlock 32 (crypto.sign t message key).1, beBlock 32 (crypto.sign t message key).2)
  base64Decode : ∀ t text, sys.base64Decode t text = crypto.base64Decode text

/-- What a client reads that has read everything before, however the line arrives. -/
def ReadsMessage (line message : Bytes) : Prop :=
  ∀ (client : MsgIo) (rest : List Recv) (heap : Heap), client.useStdio = false →
    client.rbuffer = [] → Delivers client.client.incoming (line ++ [10]) rest →
    (malloc client.client.allocs).1 = some heap →
    ∃ memory, client.read.1 = ⟨1, some memory, 2 * message.length⟩ ∧ memory.block = message

theorem readsMessage_hexstring {message : Bytes} (hmessage : message ≠ []) :
    ReadsMessage (hexstring message) message := by
  intro client rest heap hsocket hempty hline hmalloc
  obtain ⟨memory, hread, hblock, _⟩ := MsgIo.read_hexstring hsocket hempty hmessage hline hmalloc
  exact ⟨memory, hread, hblock⟩

section

variable {crypto : Crypto sys} {config : Config sys} {w : World sys} {answers : Msg01Answers sys}

/-- The keys of an accepted message 1, as documented. -/
theorem keys_eq (himplements : sys.Implements crypto) (haccepted : Msg01Accepted config w answers) :
    (answers.kdkCall w).2 = crypto.kdk answers.gb answers.ga ∧
      (answers.smkCall w).2 = crypto.smk answers.gb answers.ga ∧
      (answers.pointCall w).2 = crypto.gB answers.gb := by
  have hsecret : answers.secret.reverse =
      leBytes 32 (crypto.sharedX answers.gb answers.ga) := by
    have hshared := haccepted.shared
    rw [himplements.keySharedSecret] at hshared
    rw [← Option.some.inj hshared, ← Block.bytes_reverse, reverse_beBlock, bytes_leBlock]
  have hkdk : (answers.kdkCall w).2 = crypto.kdk answers.gb answers.ga := by
    rw [Msg01Answers.kdkCall, himplements.cmac128, hsecret, Crypto.kdk]
  refine ⟨hkdk, ?_, ?_⟩
  · rw [Msg01Answers.smkCall, himplements.cmac128, hkdk, Crypto.smk]
    rfl
  · rw [Msg01Answers.pointCall, himplements.keyToSgxEc256]

/-- The front of message 2 is the documented one. -/
theorem authenticated_unsealed (himplements : sys.Implements crypto)
    (haccepted : Msg01Accepted config w answers) :
    (answers.unsealed config w).authenticated =
      crypto.msg2Front config answers.atSign.clock answers.gb w.readDest.msg1.gA.bytes := by
  obtain ⟨_, _, hpoint⟩ := keys_eq himplements haccepted
  unfold Msg2.authenticated Msg01Answers.unsealed Crypto.msg2Front
  rw [Msg01Answers.signCall, himplements.ecdsaSign, Msg01Answers.signedKeys, hpoint]
  simp only [reverse_beBlock, bytes_leBlock]
  rfl

/-- The two parts of message 2 together are the documented message. -/
theorem bytes_prepared (himplements : sys.Implements crypto)
    (haccepted : Msg01Accepted config w answers) :
    (answers.prepared config w).msg2.bytes ++ answers.sigrl.bytes =
      crypto.documentedMsg2 config answers.atSign.clock answers.gb answers.ga
        w.readDest.msg1.gA.bytes answers.sigrl.bytes := by
  obtain ⟨_, hsmk, _⟩ := keys_eq himplements haccepted
  have hfront := authenticated_unsealed himplements haccepted
  have hmac : (answers.macCall config w).2 = crypto.cmac (crypto.smk answers.gb answers.ga)
      (crypto.msg2Front config answers.atSign.clock answers.gb w.readDest.msg1.gA.bytes) := by
    rw [Msg01Answers.macCall, himplements.cmac128, hsmk, hfront]
  unfold Crypto.documentedMsg2 Msg2.bytes
  dsimp only
  rw [← hmac, ← hfront]
  rfl

/-- Message 2 goes out behind what is on the wire, and whole unless `::send` fails. -/
theorem sent_sendMsg2 (prepared : Prepared) (hsocket : w.msgio.useStdio = false)
    (hempty : w.msgio.wbuffer = []) (hsize : prepared.msg2.sigRlSize = prepared.sigrl.length) :
    let sent := (sendMsg2 prepared w).2.msgio
    let line := hexstring (prepared.msg2.bytes ++ prepared.sigrl) ++ [10]
    sent.wire ++ sent.wbuffer = w.msgio.wire ++ line ∧
      (Sent.error ∉ w.msgio.client.outgoing → line.length < 2 ^ 31 →
        sent.wire = w.msgio.wire ++ line ∧ sent.wbuffer = []) := by
  intro sent line
  let queued := w.msgio.sendPartial prepared.msg2.bytes
  have hpartial : queued.useStdio = false :=
    (MsgIo.sendPartial_receiver _ _).useStdio.trans hsocket
  have hqueued : queued = { w.msgio with wbuffer := hexstring prepared.msg2.bytes } := by
    rw [show queued = _ from MsgIo.sendPartial_socket hsocket _, hempty, List.nil_append]
  have hsent : sent = queued.send prepared.sigrl := by
    change queued.send (prepared.sigrl.take prepared.msg2.sigRlSize) = _
    rw [hsize, List.take_length]
  have hall : sent.wire ++ sent.wbuffer = w.msgio.wire ++ line := by
    rw [hsent, MsgIo.send_wire_append_wbuffer hpartial, hqueued]
    simp only [line, hexstring_append, List.append_assoc]
  refine ⟨hall, fun hok hline => ?_⟩
  have hlength : queued.wbuffer.length + 2 * prepared.sigrl.length + 1 = line.length := by
    rw [hqueued]
    simp only [line, List.length_append, length_hexstring, List.length_singleton]
    omega
  have hflushes : queued.Flushes prepared.sigrl := by
    refine MsgIo.flushes_of_no_error ?_ (hlength ▸ hline)
    rw [hqueued]
    exact hok
  have hwbuffer : sent.wbuffer = [] := by
    rw [hsent]
    exact (MsgIo.send_wbuffer_eq_nil_iff hpartial _).mpr hflushes
  rw [hwbuffer, List.append_nil] at hall
  exact ⟨hall, hwbuffer⟩

end

/-- Bytes that count from `first` on. -/
def counting (first n : Nat) : Bytes := (List.range n).map fun i => UInt8.ofNat (first + i)

def countingBlock (first n : Nat) : Block n := ⟨counting first n, by simp [counting]⟩

/-- An environment in which the fields of message 2 differ from each other: a MAC counts from the
length of its message, the numbers of a signature from 1 and 33, and the revocation list has
three bytes. -/
def Sys.counting : Sys :=
  { Sys.working
      { Digests.zero with cmac := fun _ message => countingBlock message.length 16 }
      fun _ => some (signedReply []) with
    ecdsaSign := fun _ _ _ => (true, (countingBlock 1 32).reverse, (countingBlock 33 32).reverse)
    base64Decode := fun _ _ => some ⟨[193, 194, 195], by decide⟩ }

/-- Its functions. -/
def Crypto.counting : Crypto Sys.counting where
  cmac _ message := countingBlock message.length 16
  x _ := p256BaseX
  y _ := p256BaseY
  sharedX _ _ := p256BaseX
  sign _ _ _ := (leNat (RemoteAttestation.counting 1 32), leNat (RemoteAttestation.counting 33 32))
  base64Decode _ := some ⟨[193, 194, 195], by decide⟩

theorem counting_implements : Sys.counting.Implements .counting where
  cmac128 _ _ _ := rfl
  keyToSgxEc256 _ _ := rfl
  keySharedSecret _ _ _ := rfl
  ecdsaSign _ _ _ := by
    have hr : (countingBlock 1 32).reverse = beBlock 32 (leNat (counting 1 32)) := by
      decide +kernel
    have hs : (countingBlock 33 32).reverse = beBlock 32 (leNat (counting 33 32)) := by
      decide +kernel
    exact congrArg₂ (fun r s => (true, r, s)) hr hs
  base64Decode _ _ := rfl

/-- A server with an SPID that counts from 80, and linkable quotes. -/
def Config.counting : Config .counting :=
  { Config.plain .counting () with
    spid := countingBlock 80 16
    quoteType := 1 }

/-- The message 2 of this server for a client with the base point. -/
def countedMsg2 : Bytes :=
  leBytes 32 p256BaseX ++ leBytes 32 p256BaseY ++ counting 80 16 ++ [1, 0] ++ [1, 0] ++
    counting 1 32 ++ counting 33 32 ++ counting 148 16 ++ [3, 0, 0, 0] ++ [193, 194, 195]

end RemoteAttestation
