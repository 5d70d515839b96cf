import RemoteAttestation.Client.DoAttestation
import RemoteAttestation.ServiceProvider.Msg3Bounds

/-! # Where the messages of fixed layout are read

Both sides cast what they receive to a structure. Each use of such a pointer is compared with
the length of the message, over every session of a client and every call of
`process_msg01`.
-/

namespace RemoteAttestation

open Proc

/-- A use that stays inside its message. A string ends with the first NUL that is found. -/
def ClientEvent.InBounds : ClientEvent → Prop
  | .receivedMsg2 _ | .receivedMsg4 _ => True
  | .load message access => access.Inside message.block.length
  | .procMsg2 msg2 size => size ≤ msg2.block.length
  | .inString message offset => ∀ i, (∀ j < i, message.byte (offset + j) ≠ 0) →
      offset + i < message.block.length

/-- A message 2 that is long enough for all that is done with it: for the structure, for the
size that `sgx_ra_proc_msg2` is given, and for its list when that is printed. Only a size that
does not fit into 32 bits can be less than the structure and its list. -/
structure Msg2Fits (verbose : Bool) (msg2 : Memory) : Prop where
  structure_le : sizeofMsg2 ≤ msg2.block.length
  size_le : Client.msg2Size msg2 ≤ msg2.block.length
  list_le : verbose = true → sizeofMsg2 + Client.sigRlSize msg2 ≤ msg2.block.length

/-- A message 4 that has a blob and, if it says that the enclave is trusted, a ciphertext and a
NUL in or behind it. -/
def Msg4Fits (msg4 : Memory) : Prop :=
  4 + sizeofPlatformInfo ≤ msg4.block.length ∧
    (Client.isTrusted msg4.msg4Status → offsetCiphertext + 16 ≤ msg4.block.length ∧
      (0 : UInt8) ∈ msg4.block.drop offsetCiphertext)

/-- What a received message has to be like. -/
def ClientEvent.Fits (verbose : Bool) : ClientEvent → Prop
  | .receivedMsg2 msg2 => Msg2Fits verbose msg2
  | .receivedMsg4 msg4 => Msg4Fits msg4
  | _ => True

/-! ## Strings -/

/-- A string is read inside the message exactly if its NUL is there. -/
theorem inString_inBounds_iff (message : Memory) (offset : Nat) :
    (ClientEvent.inString message offset).InBounds ↔ (0 : UInt8) ∈ message.block.drop offset := by
  have hbyte : ∀ i, offset + i < message.block.length →
      (message.block.drop offset)[i]? = some (message.byte (offset + i)) := by
    intro i hi
    rw [List.getElem?_drop, List.getElem?_eq_getElem hi]
    simp [Memory.byte, hi]
  constructor
  · intro hinBounds
    by_contra habsent
    have hend := hinBounds (message.block.length - offset) fun j hj hzero => by
      refine habsent (List.mem_of_getElem? (hbyte j (by omega) |>.trans ?_))
      rw [hzero]
    omega
  · intro hmem i hnonzero
    obtain ⟨k, hk⟩ := List.mem_iff_getElem?.mp hmem
    have hlt : k < message.block.length - offset := by
      rw [← List.length_drop]
      exact (List.getElem?_eq_some_iff.mp hk).1
    by_contra hend
    refine hnonzero k (by omega) ?_
    rw [hbyte k (by omega)] at hk
    exact Option.some.inj hk

/-! ## Message by message -/

namespace Client

theorem inBounds_msg2Log_iff (verbose : Bool) (msg2 : Memory) :
    (∀ event ∈ msg2Log verbose msg2, event.InBounds) ↔ Msg2Fits verbose msg2 := by
  constructor
  · intro hall
    refine ⟨hall (.load msg2 ⟨164, 4⟩) (by simp [msg2Log]), hall (.procMsg2 msg2 (msg2Size msg2))
      (by simp [msg2Log]), ?_⟩
    rintro rfl
    exact hall (.load msg2 ⟨sizeofMsg2, sigRlSize msg2⟩) (by simp [msg2Log, msg2Details])
  · rintro ⟨hheader, hsize, hlist⟩
    have hmembers : ∀ access ∈ msg2Members, access.Inside sizeofMsg2 := by decide
    have hprinted : ∀ event ∈ (if verbose then (msg2Details msg2).map (ClientEvent.load msg2)
        else []), event.InBounds := by
      cases verbose with
      | true =>
          have hdetails : ∀ access ∈ msg2Details msg2, access.Inside msg2.block.length :=
            List.forall_mem_append.mpr ⟨fun access hmem => (hmembers access hmem).mono hheader,
              List.forall_mem_singleton.mpr (hlist rfl)⟩
          exact List.forall_mem_map.mpr hdetails
      | false => simp
    unfold msg2Log
    rw [List.cons_append]
    refine List.forall_mem_cons.mpr ⟨trivial, List.forall_mem_append.mpr ⟨hprinted, ?_⟩⟩
    exact List.forall_mem_cons.mpr ⟨hheader, List.forall_mem_singleton.mpr hsize⟩

theorem inBounds_msg4Log_iff (msg4 : Memory) :
    (∀ event ∈ msg4Log msg4, event.InBounds) ↔ Msg4Fits msg4 := by
  constructor
  · intro hall
    refine ⟨hall (.load msg4 ⟨4, sizeofPlatformInfo⟩) (by simp [msg4Log]), fun htrusted => ?_⟩
    have hciphertext : ∀ event ∈ [ClientEvent.load msg4 ⟨offsetCiphertext, 16⟩,
        .inString msg4 offsetCiphertext], event.InBounds := by
      intro event hmem
      refine hall event ?_
      unfold msg4Log
      rw [if_pos htrusted]
      refine List.mem_append_right _ ?_
      rcases List.mem_cons.mp hmem with rfl | hmem
      · exact List.mem_cons_self
      · exact List.mem_cons_of_mem _ (List.mem_cons.mpr (.inl (List.mem_singleton.mp hmem)))
    exact ⟨hciphertext _ List.mem_cons_self,
      (inString_inBounds_iff _ _).mp (hciphertext _ (List.mem_cons_of_mem _ List.mem_cons_self))⟩
  · rintro ⟨hblob, hciphertext⟩
    unfold msg4Log
    refine List.forall_mem_append.mpr ⟨List.forall_mem_append.mpr ⟨?_, ?_⟩, ?_⟩
    · refine List.forall_mem_cons.mpr ⟨trivial, ?_⟩
      refine List.forall_mem_cons.mpr ⟨Nat.le_trans (by decide) hblob, ?_⟩
      exact List.forall_mem_singleton.mpr hblob
    · split
      · exact List.forall_mem_singleton.mpr hblob
      · simp
    · split
      next htrusted =>
        obtain ⟨hlong, hnul⟩ := hciphertext htrusted
        have hstring := (inString_inBounds_iff msg4 offsetCiphertext).mpr hnul
        refine List.forall_mem_cons.mpr ⟨hlong, List.forall_mem_cons.mpr ⟨hstring, ?_⟩⟩
        exact List.forall_mem_singleton.mpr hstring
      next => simp

/-- In both logs the message that was received is the only one. -/
theorem fits_msg2Log_iff (verbose : Bool) (msg2 : Memory) :
    (∀ event ∈ msg2Log verbose msg2, event.Fits verbose) ↔ Msg2Fits verbose msg2 := by
  constructor
  · intro hall
    exact hall (.receivedMsg2 msg2) List.mem_cons_self
  · intro hfits
    have hprinted : ∀ event ∈ (if verbose then (msg2Details msg2).map (ClientEvent.load msg2)
        else []), event.Fits verbose := by
      split
      · exact List.forall_mem_map.mpr fun _ _ => trivial
      · simp
    unfold msg2Log
    rw [List.cons_append]
    refine List.forall_mem_cons.mpr ⟨hfits, List.forall_mem_append.mpr ⟨hprinted, ?_⟩⟩
    exact List.forall_mem_cons.mpr ⟨trivial, List.forall_mem_singleton.mpr trivial⟩

theorem fits_msg4Log_iff (verbose : Bool) (msg4 : Memory) :
    (∀ event ∈ msg4Log msg4, event.Fits verbose) ↔ Msg4Fits msg4 := by
  constructor
  · intro hall
    exact hall (.receivedMsg4 msg4) List.mem_cons_self
  · intro hfits
    unfold msg4Log
    refine List.forall_mem_append.mpr ⟨List.forall_mem_append.mpr ⟨?_, ?_⟩, ?_⟩
    · simp [ClientEvent.Fits, hfits]
    · split
      · simp [ClientEvent.Fits]
      · simp
    · split
      · simp [ClientEvent.Fits]
      · simp

/-! ## Sessions -/

/-- The events between two states are all in bounds exactly if the messages among them fit. -/
def Judged (verbose : Bool) (client client' : Client) : Prop :=
  ∃ events, client'.log = client.log ++ events ∧
    ((∀ event ∈ events, event.InBounds) ↔ ∀ event ∈ events, event.Fits verbose)

variable {verbose : Bool}

theorem Judged.of_log_eq {client client' : Client} (hlog : client'.log = client.log) :
    Judged verbose client client' :=
  ⟨[], by rw [hlog, List.append_nil], by simp⟩

theorem Judged.trans {a b c : Client} (hleft : Judged verbose a b) (hright : Judged verbose b c) :
    Judged verbose a c := by
  obtain ⟨left, hlogLeft, hleft⟩ := hleft
  obtain ⟨right, hlogRight, hright⟩ := hright
  refine ⟨left ++ right, by rw [hlogRight, hlogLeft, List.append_assoc], ?_⟩
  rw [List.forall_mem_append, List.forall_mem_append, hleft, hright]

theorem judged_receiveMsg2 (platform : Platform) (verbose : Bool) :
    Keeps (Judged verbose) (receiveMsg2 platform verbose) := by
  intro client
  refine ⟨_, log_receiveMsg2 verbose, ?_⟩
  split
  · simp
  · rw [inBounds_msg2Log_iff, fits_msg2Log_iff]

theorem judged_receiveMsg4 (platform : Platform) (verbose : Bool) :
    Keeps (Judged verbose) (receiveMsg4 platform) := by
  intro client
  refine ⟨_, log_receiveMsg4, ?_⟩
  split
  · simp
  · rw [inBounds_msg4Log_iff, fits_msg4Log_iff verbose]

theorem judged_doAttestation (platform : Platform) (verbose : Bool) :
    Keeps (Judged verbose) (doAttestation platform verbose) := by
  have hpure : Keeps (Judged verbose) (pure () : Proc Client Unit) := fun _ => .of_log_eq rfl
  have htrans : ∀ a b c : Client, Judged verbose a b → Judged verbose b c → Judged verbose a c :=
    fun _ _ _ => Judged.trans
  refine Keeps.bind htrans (fun _ => .of_log_eq log_requestMsg2) fun started => ?_
  cases started with
  | false => exact hpure
  | true =>
      refine Keeps.bind htrans (judged_receiveMsg2 platform verbose) fun answered => ?_
      cases answered with
      | false => exact hpure
      | true => exact judged_receiveMsg4 platform verbose

theorem fits_iff {events : List ClientEvent} :
    (∀ event ∈ events, event.Fits verbose) ↔
      (∀ msg2, .receivedMsg2 msg2 ∈ events → Msg2Fits verbose msg2) ∧
        ∀ msg4, .receivedMsg4 msg4 ∈ events → Msg4Fits msg4 := by
  constructor
  · exact fun hall => ⟨fun msg2 hmem => hall _ hmem, fun msg4 hmem => hall _ hmem⟩
  · rintro ⟨hmsg2, hmsg4⟩ event hmem
    cases event with
    | receivedMsg2 msg2 => exact hmsg2 msg2 hmem
    | receivedMsg4 msg4 => exact hmsg4 msg4 hmem
    | load => trivial
    | procMsg2 => trivial
    | inString => trivial

end Client

/-! ## Messages 0 and 1 -/

section

variable {sys : Sys}

/-- What `process_msg01` reads of messages that were received: the group id, and message 1 when
it is copied. -/
def msg01Accesses (msg01 : Memory) : List Access :=
  ⟨0, 4⟩ :: if msg01.extendedEpidGroupId ≠ 0 then [] else [⟨4, 68⟩]

/-- `process_msg01` with messages that were received. -/
def examineMsg01 (config : Config sys) (msg01 : Memory) : Proc (World sys) (Option Prepared) :=
  if msg01.extendedEpidGroupId ≠ 0 then return none else prepareMsg2 config msg01.msg1

theorem processMsg01_of_read {config : Config sys} {w : World sys} (hread : w.readRv = 1) :
    processMsg01 config w = examineMsg01 config w.readDest w.afterRead := by
  unfold processMsg01
  rw [read_bind, hread]
  rfl

theorem msg1_congr {left right : Memory} (hslice : left.slice 4 68 = right.slice 4 68) :
    left.msg1 = right.msg1 := by
  rw [left.slice_add 4 64 4, right.slice_add 4 64 4] at hslice
  obtain ⟨hgA, hgid⟩ := List.append_inj hslice (by simp)
  unfold Memory.msg1
  rw [Memory.field_eq_of_slice_eq hgA, Memory.field_eq_of_slice_eq hgid]

/-- `process_msg01` depends on the messages through these bytes only. -/
theorem examineMsg01_congr {config : Config sys} {left right : Memory}
    (hagree : Memory.Agree (msg01Accesses left) left right) :
    examineMsg01 config left = examineMsg01 config right := by
  unfold msg01Accesses at hagree
  obtain ⟨hslice, hagree⟩ := Memory.agree_cons.mp hagree
  have hgroup : left.extendedEpidGroupId = right.extendedEpidGroupId := congrArg leNat hslice
  unfold examineMsg01
  rw [← hgroup]
  split
  next => rfl
  next hzero =>
    rw [if_neg hzero] at hagree
    rw [msg1_congr (Memory.agree_cons.mp hagree).1]

/-- The messages 0 and 1 are read inside their buffer, and shorter ones are rejected. -/
structure Msg01InBounds (config : Config sys) (w : World sys) : Prop where
  inside : w.readRv = 1 →
    ∀ access ∈ msg01Accesses w.readDest, access.Inside w.readDest.block.length
  rejected : w.readRv = 1 → w.readDest.block.length < 72 →
    (processMsg01 config w).1 = some none

/-- What becomes of such messages does not depend on what lies behind their buffer. -/
theorem Msg01InBounds.examineMsg01_eq {config : Config sys} {w : World sys}
    (hinBounds : Msg01InBounds config w) (hread : w.readRv = 1) {msg01 : Memory}
    (hblock : w.readDest.block = msg01.block) :
    examineMsg01 config w.readDest = examineMsg01 config msg01 :=
  examineMsg01_congr (Memory.agree_of_inside hblock (hinBounds.inside hread))

/-- A group id, and message 1 if the id is zero. -/
def Msg01Fits (msg01 : Memory) : Prop :=
  4 ≤ msg01.block.length ∧ (msg01.extendedEpidGroupId = 0 → 72 ≤ msg01.block.length)

theorem inside_msg01Accesses_iff (msg01 : Memory) :
    (∀ access ∈ msg01Accesses msg01, access.Inside msg01.block.length) ↔ Msg01Fits msg01 := by
  unfold msg01Accesses Msg01Fits
  rw [List.forall_mem_cons]
  split
  next hgroup => simp [Access.Inside, hgroup]
  next hzero => simp [Access.Inside, not_not.mp hzero]

theorem msg01_inBounds_iff (config : Config sys) (w : World sys) :
    Msg01InBounds config w ↔ (w.readRv = 1 → Msg01Fits w.readDest) := by
  constructor
  · exact fun hinBounds hread => (inside_msg01Accesses_iff _).mp (hinBounds.inside hread)
  · intro hfits
    refine ⟨fun hread => (inside_msg01Accesses_iff _).mpr (hfits hread), fun hread hshort => ?_⟩
    have hgroup : w.readDest.extendedEpidGroupId ≠ 0 := by
      intro hzero
      have hlong := (hfits hread).2 hzero
      omega
    rw [processMsg01_of_read hread, examineMsg01, if_pos hgroup]
    rfl

end

/-! ## Both sides -/

/-- The messages of fixed layout are used inside their buffers exactly if they are as long as
their contents ask for: by `process_msg01`, and in every run of `do_attestation`. -/
theorem fixedLayouts_inBounds_iff (sys : Sys) (config : Config sys) (w : World sys)
    (platform : Platform) (verbose : Bool) (msgio : MsgIo) :
    (Msg01InBounds config w ↔ (w.readRv = 1 → Msg01Fits w.readDest)) ∧
    (let log := (Client.doAttestation platform verbose (.start msgio)).2.log
     (∀ event ∈ log, event.InBounds) ↔
        (∀ msg2, .receivedMsg2 msg2 ∈ log → Msg2Fits verbose msg2) ∧
          ∀ msg4, .receivedMsg4 msg4 ∈ log → Msg4Fits msg4) := by
  refine ⟨msg01_inBounds_iff config w, ?_⟩
  intro log
  obtain ⟨events, hlog, hjudged⟩ := Client.judged_doAttestation platform verbose (.start msgio)
  have hevents : log = events := hlog.trans (List.nil_append events)
  rw [hevents, hjudged, Client.fits_iff]

/-- A platform on which every call succeeds. -/
def Platform.working : Platform where
  enclaveRaInit _ := (sgxSuccess, sgxSuccess)
  sgxGetExtendedEpidGroupId _ := (sgxSuccess, 0)
  sgxRaGetMsg1 _ := (sgxSuccess, ⟨basePoint, .zero 4⟩)
  sgxRaProcMsg2 _ _ := (sgxSuccess, [])
  wild _ _ := 0

/-- On it a client reaches message 2, and what it does with it is in its log. -/
theorem Client.mem_log_doAttestation {msgio : MsgIo} (hsocket : msgio.useStdio = false)
    (hempty : msgio.rbuffer = []) {message : Bytes} {rest : List Recv} {heap : Heap}
    (hmessage : message ≠ [])
    (hline : Delivers msgio.client.incoming (hexstring message ++ [10]) rest)
    (hmalloc : (malloc msgio.client.allocs).1 = some heap) :
    ∃ msg2 : Memory, msg2.block = message ∧ ∀ event ∈ msg2Log false msg2,
      event ∈ (doAttestation .working false (.start msgio)).2.log := by
  obtain ⟨sent, hsent⟩ : ∃ sent, sent = (msgio.sendPartial (leBytes 4 0)).send
    (⟨basePoint, .zero 4⟩ : Msg1).bytes := ⟨_, rfl⟩
  have hreceiver : msgio.SameReceiver sent := by
    rw [hsent]
    exact (msgio.sendPartial_receiver _).trans (MsgIo.send_receiver _ _)
  have hrequest : requestMsg2 .working (.start msgio) = (some true, ⟨sent, 3, []⟩) := by
    rw [hsent]
    rfl
  obtain ⟨msg2, hread, hblock, _⟩ := MsgIo.read_hexstring (hreceiver.useStdio.trans hsocket)
    (hreceiver.rbuffer.trans hempty) hmessage (hreceiver.incoming ▸ hline)
    (hreceiver.allocs ▸ hmalloc)
  have hlog : (receiveMsg2 .working false ⟨sent, 3, []⟩).2.log = msg2Log false msg2 := by
    rw [log_receiveMsg2, Client.readRv, Client.readDest]
    dsimp only
    rw [hread]
    rfl
  refine ⟨msg2, hblock, fun event hmem => ?_⟩
  unfold doAttestation
  rw [bind_of_some hrequest, if_pos rfl, bind_apply]
  generalize receiveMsg2 .working false ⟨sent, 3, []⟩ = received at hlog ⊢
  obtain ⟨_ | _ | _, next⟩ := received
  · exact hlog ▸ hmem
  · exact hlog ▸ hmem
  · obtain ⟨events, hlast, _⟩ := judged_receiveMsg4 .working false next
    dsimp only at hlog hlast ⊢
    rw [if_pos rfl, hlast, hlog]
    exact List.mem_append_left _ hmem

/-- A message 2 that ends with the size of a list of 1000 bytes, which it does not have. -/
def endlessMsg2 : Bytes := List.replicate 164 0 ++ [232, 3, 0, 0]

/-- Message 1 is copied from behind a message of 4 bytes, and `sgx_ra_proc_msg2` is given a
message of 168 bytes with a size of 1168. -/
theorem short_messages_outOfBounds :
    (∃ w : World (.authenticating (.zero 16)), w.readRv = 1 ∧ w.readDest.block.length = 4 ∧
      ¬ Msg01InBounds (.authenticating (.zero 16) false) w) ∧
    ∃ (msgio : MsgIo) (msg2 : Memory), msg2.block.length = 168 ∧
      .procMsg2 msg2 1168 ∈ (Client.doAttestation .working false (.start msgio)).2.log := by
  constructor
  · obtain ⟨w, hread⟩ : ∃ w : World (.authenticating (.zero 16)),
      w.Receives (List.replicate 4 0) [] := exists_receives _ (by decide) (by decide)
    have hlength : w.readDest.block.length = 4 := by rw [hread.block, List.length_replicate]
    have hzero : w.readDest.extendedEpidGroupId = 0 := by
      rw [Memory.extendedEpidGroupId, Memory.slice_zero, leNat_replicate]
      rw [hread.block]
      rfl
    refine ⟨w, hread.rv, hlength, fun hinBounds => ?_⟩
    have hlong := ((msg01_inBounds_iff _ w).mp hinBounds hread.rv).2 hzero
    omega
  · have hlength : endlessMsg2.length = 168 := by decide +kernel
    have hfits : 2 * endlessMsg2.length < msgioBufferSz := by
      rw [hlength]
      decide
    obtain ⟨msgio, hmsgio⟩ : ∃ msgio : MsgIo, msgio =
      { MsgIo.listen [] with client := .sending [.line endlessMsg2 hfits] } := ⟨_, rfl⟩
    have hline : Delivers msgio.client.incoming (hexstring endlessMsg2 ++ [10]) [] := by
      rw [hmsgio]
      exact Recv.delivers_line _ hfits []
    have hsocket : msgio.useStdio = false := by rw [hmsgio]; rfl
    have hempty : msgio.rbuffer = [] := by rw [hmsgio]; rfl
    have hmalloc : (malloc msgio.client.allocs).1 = some .blank := by rw [hmsgio]; rfl
    have hmessage : endlessMsg2 ≠ [] := List.ne_nil_of_length_pos (by omega)
    obtain ⟨msg2, hblock, hmem⟩ :=
      Client.mem_log_doAttestation hsocket hempty hmessage hline hmalloc
    have hsize : Client.msg2Size msg2 = 1168 := by
      rw [Client.msg2Size, Client.sigRlSize,
        Memory.slice_eq_take_drop _ _ _ (by rw [hblock, hlength]), hblock]
      decide +kernel
    refine ⟨msgio, msg2, by rw [hblock, hlength], hmem _ ?_⟩
    unfold Client.msg2Log
    rw [hsize]
    simp

end RemoteAttestation
