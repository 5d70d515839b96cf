import RemoteAttestation.Foundation.Access
import RemoteAttestation.ServiceProvider.PlainClient

/-! # Where message 3 is read

`process_msg3` casts what it received to `sgx_ra_msg3_t` and to `sgx_quote_t`. The ranges it
then reads are listed in the order of the code, and compared with the length of the message.
What the debug output prints is read anyway.
-/

namespace RemoteAttestation

open Proc

variable {sys : Sys}

/-! ## The footprint -/

/-- `q->signature_len`. -/
def Memory.quoteSignatureLen (msg3 : Memory) : Nat := leNat (msg3.slice (sizeofMsg3 + 432) 4)

/-- The members of a message and of its quote that the verbose output prints. -/
def msg3Members : List Access :=
  [⟨0, 16⟩, ⟨16, 32⟩, ⟨48, 32⟩, ⟨80, 256⟩, ⟨sizeofMsg3, 2⟩, ⟨sizeofMsg3 + 2, 2⟩, ⟨sizeofMsg3 + 4, 4⟩,
    ⟨sizeofMsg3 + 8, 2⟩, ⟨sizeofMsg3 + 10, 2⟩, ⟨sizeofMsg3 + 12, 4⟩, ⟨sizeofMsg3 + 16, 32⟩,
    ⟨sizeofMsg3 + 48, 384⟩, ⟨sizeofMsg3 + 432, 4⟩]

/-- They are followed by the signature, of the length that the quote gives. -/
def Memory.msg3Details (msg3 : Memory) : List Access :=
  msg3Members ++ [⟨sizeofMsg3 + sizeofQuote, msg3.quoteSignatureLen⟩]

/-- What `verify_enclave_identity` reads of the report body. -/
def identityAccesses : List Access :=
  let body := sizeofMsg3 + 48
  [⟨body + 48, 8⟩, ⟨body + 256, 2⟩, ⟨body + 258, 2⟩, ⟨body + 128, 32⟩]

/-- What the verbose output prints of the report body. -/
def reportDetails : List Access :=
  let body := sizeofMsg3 + 48
  [⟨body, 16⟩, ⟨body + 16, 4⟩, ⟨body + 48, 16⟩, ⟨body + 64, 32⟩, ⟨body + 128, 32⟩, ⟨body + 256, 2⟩,
    ⟨body + 258, 2⟩, ⟨body + 320, 64⟩]

/-- The reads of `process_msg3` after `get_attestation_report` returned 1. -/
def reportAccesses (config : Config sys) (session : Session) (msg3 : Memory) (w : World sys) :
    List Access :=
  ⟨sizeofMsg3 + 368, 64⟩ ::
    match (verifyReportData session msg3 w).1 with
    | some (some _) => identityAccesses ++ if config.verbose then reportDetails else []
    | _ => []

/-- The reads of `process_msg3` from the encoding of the quote on. `ps_sec_prop` is passed by
value. -/
def quoteAccesses (config : Config sys) (msg1 : Msg1) (session : Session) (msg3 : Memory)
    (quoteSz : Nat) (w : World sys) : List Access :=
  ⟨sizeofMsg3, quoteSz⟩ ::
    match sys.base64Encode w.clock (msg3.slice sizeofMsg3 quoteSz) with
    | none => []
    | some b64quote =>
        (if config.verbose then msg3.msg3Details else []) ++ ⟨sizeofMsg3 + 4, 4⟩ ::
          if msg1.gid ≠ msg3.quoteEpidGroupId then []
          else ⟨80, 256⟩ ::
            match getAttestationReport config b64quote (w.tick []) with
            | (some (some _), next) => reportAccesses config session msg3 next
            | _ => []

/-- The reads of `process_msg3` from a decoded message, whose quote it takes to have this
size, in the world after the message was received. -/
def msg3Accesses (config : Config sys) (msg1 : Msg1) (session : Session) (msg3 : Memory)
    (quoteSz : Nat) (w : World sys) : List Access :=
  ⟨16, 64⟩ ::
    if msg3.msg3GA ≠ msg1.gA then []
    else
      let authenticated := msg3.slice 16 (sizeofMsg3 - 16 + quoteSz)
      let vrfymac := sys.cmac128 w.clock session.smk authenticated
      ⟨16, sizeofMsg3 - 16 + quoteSz⟩ :: ⟨0, 16⟩ ::
        if msg3.msg3Mac ≠ vrfymac.2 then []
        else quoteAccesses config msg1 session msg3 quoteSz
          (w.tick [.cmac128 session.smk authenticated vrfymac.1 vrfymac.2])

/-! ## The checks after the message was received -/

/-- `process_msg3` from the encoding of the quote on. -/
def judgeQuote (config : Config sys) (msg1 : Msg1) (session : Session) (msg3 : Memory)
    (quoteSz : Nat) : Proc (World sys) (Option (Session × Msg4)) := do
  match ← base64Encode (msg3.slice sizeofMsg3 quoteSz) with
  | none => return none
  | some b64quote =>
      if msg1.gid ≠ msg3.quoteEpidGroupId then return none
      else
        match ← getAttestationReport config b64quote with
        | none => return none
        | some msg4 =>
            match ← verifyReportData session msg3 with
            | none => return none
            | some session =>
                return some (session, config.judgeEnclave msg3.quoteReportBody msg4)

/-- `process_msg3` from the comparison of the MAC on. -/
def compareMac (config : Config sys) (msg1 : Msg1) (session : Session) (msg3 : Memory)
    (quoteSz : Nat) (vrfymac : Block 16) : Proc (World sys) (Option (Session × Msg4)) :=
  if msg3.msg3Mac ≠ vrfymac then return none
  else judgeQuote config msg1 session msg3 quoteSz

/-- `process_msg3` with a message that was received. -/
def examineMsg3 (config : Config sys) (msg1 : Msg1) (session : Session) (msg3 : Memory)
    (quoteSz : Nat) : Proc (World sys) (Option (Session × Msg4)) := do
  if msg3.msg3GA ≠ msg1.gA then return none
  else
    let (_, vrfymac) ← cmac128 session.smk (msg3.slice 16 (sizeofMsg3 - 16 + quoteSz))
    compareMac config msg1 session msg3 quoteSz vrfymac

/-- `process_msg3` after its checks. -/
def finishMsg3 :
    Option (Session × Msg4) → Proc (World sys) (Option (Msg4 × Session))
  | none => return none
  | some (session, msg4) => do return some (← sendMsg4 session msg4)

theorem processMsg3_eq (config : Config sys) (msg1 : Msg1) (session : Session) :
    processMsg3 config msg1 session = checkMsg3 config msg1 session >>= finishMsg3 := rfl

theorem checkMsg3_of_read {config : Config sys} {msg1 : Msg1} {session : Session} {w : World sys}
    (hread : w.readRv = 1) : checkMsg3 config msg1 session w =
      examineMsg3 config msg1 session w.readDest w.quoteSz w.afterRead := by
  unfold checkMsg3
  rw [read_bind, hread]
  rfl

theorem Frame.judgeQuote {rel : World sys → World sys → Prop} (frame : Frame rel)
    (config : Config sys) (msg1 : Msg1) (session : Session) (msg3 : Memory) (quoteSz : Nat) :
    Keeps rel (RemoteAttestation.judgeQuote config msg1 session msg3 quoteSz) := by
  unfold RemoteAttestation.judgeQuote
  refine frame.bind frame.silent fun b64quote => ?_
  cases b64quote with
  | none => exact frame.pure _
  | some b64quote =>
      dsimp only
      split
      · exact frame.pure _
      · refine frame.bind (frame.getAttestationReport _ _) fun msg4 => ?_
        cases msg4 with
        | none => exact frame.pure _
        | some msg4 =>
            refine frame.bind (frame.verifyReportData _ _) fun verified => ?_
            cases verified with
            | none => exact frame.pure _
            | some session => exact frame.pure _

/-- The bytes of the footprint decide how the checks go. -/
theorem verifyReportData_congr {session : Session} {left right : Memory} (w : World sys)
    (hdata : left.slice (sizeofMsg3 + 368) 64 = right.slice (sizeofMsg3 + 368) 64) :
    verifyReportData session left w = verifyReportData session right w := by
  have hreport : left.quoteReportBody.reportData = right.quoteReportBody.reportData :=
    Memory.field_eq_of_slice_eq hdata
  unfold verifyReportData
  rw [hreport]

theorem quoteReportBody_congr {left right : Memory}
    (hdata : left.slice (sizeofMsg3 + 368) 64 = right.slice (sizeofMsg3 + 368) 64)
    (hidentity : Memory.Agree identityAccesses left right) :
    left.quoteReportBody = right.quoteReportBody := by
  simp only [identityAccesses, Memory.agree_cons, Memory.agree_nil, and_true] at hidentity
  obtain ⟨hflags, hprodId, hsvn, hmrSigner⟩ := hidentity
  have hreport : left.slice (sizeofMsg3 + 48 + 320) 64 = right.slice (sizeofMsg3 + 48 + 320) 64 :=
    hdata
  unfold Memory.quoteReportBody
  dsimp only
  rw [hflags, hprodId, hsvn, Memory.field_eq_of_slice_eq hmrSigner,
    Memory.field_eq_of_slice_eq hreport]

theorem judgeQuote_congr {config : Config sys} {msg1 : Msg1} {session : Session}
    {left right : Memory} {quoteSz : Nat} {w : World sys}
    (hagree : Memory.Agree (quoteAccesses config msg1 session left quoteSz w) left right) :
    judgeQuote config msg1 session left quoteSz w =
      judgeQuote config msg1 session right quoteSz w := by
  unfold quoteAccesses at hagree
  obtain ⟨hquote, hagree⟩ := Memory.agree_cons.mp hagree
  unfold judgeQuote
  rw [base64Encode_bind, base64Encode_bind, ← hquote]
  dsimp only at hagree ⊢
  generalize sys.base64Encode w.clock (left.slice sizeofMsg3 quoteSz) = encoded at hagree ⊢
  cases encoded with
  | none => rfl
  | some b64quote =>
      obtain ⟨_, hagree⟩ := Memory.agree_append.mp hagree
      obtain ⟨hgid, hagree⟩ := Memory.agree_cons.mp hagree
      have hgroup : left.quoteEpidGroupId = right.quoteEpidGroupId :=
        Memory.field_eq_of_slice_eq hgid
      dsimp only
      rw [← hgroup]
      by_cases hsame : msg1.gid = left.quoteEpidGroupId
      · rw [if_neg (not_not.mpr hsame)] at hagree ⊢
        rw [if_neg (not_not.mpr hsame)]
        obtain ⟨_, hagree⟩ := Memory.agree_cons.mp hagree
        rw [bind_apply, bind_apply]
        generalize getAttestationReport config b64quote (w.tick []) = reported at hagree ⊢
        obtain ⟨_ | _ | msg4, next⟩ := reported
        · rfl
        · rfl
        · obtain ⟨hdata, hagree⟩ := Memory.agree_cons.mp hagree
          dsimp only
          rw [bind_apply, bind_apply, ← verifyReportData_congr next hdata]
          generalize verifyReportData session left next = verified at hagree ⊢
          obtain ⟨_ | _ | verified, last⟩ := verified
          · rfl
          · rfl
          · obtain ⟨hidentity, _⟩ := Memory.agree_append.mp hagree
            rw [quoteReportBody_congr hdata hidentity]
      · rw [if_pos hsame, if_pos hsame]

theorem examineMsg3_congr {config : Config sys} {msg1 : Msg1} {session : Session}
    {left right : Memory} {quoteSz : Nat} {w : World sys}
    (hagree : Memory.Agree (msg3Accesses config msg1 session left quoteSz w) left right) :
    examineMsg3 config msg1 session left quoteSz w =
      examineMsg3 config msg1 session right quoteSz w := by
  unfold msg3Accesses at hagree
  obtain ⟨hslice, hagree⟩ := Memory.agree_cons.mp hagree
  have hgA : left.msg3GA = right.msg3GA := Memory.field_eq_of_slice_eq hslice
  unfold examineMsg3
  rw [← hgA]
  by_cases hsame : left.msg3GA = msg1.gA
  · rw [if_neg (not_not.mpr hsame)] at hagree ⊢
    rw [if_neg (not_not.mpr hsame)]
    obtain ⟨hauthenticated, hagree⟩ := Memory.agree_cons.mp hagree
    obtain ⟨hslice, hagree⟩ := Memory.agree_cons.mp hagree
    have hmac : left.msg3Mac = right.msg3Mac := Memory.field_eq_of_slice_eq hslice
    rw [cmac128_bind, cmac128_bind, ← hauthenticated]
    dsimp only at hagree ⊢
    unfold compareMac
    rw [← hmac]
    split
    next => rfl
    next hverified =>
      rw [if_neg hverified] at hagree
      exact judgeQuote_congr hagree
  · rw [if_pos hsame, if_pos hsame]

/-! ## The MAC -/

theorem advances_compareMac (config : Config sys) (msg1 : Msg1) (session : Session)
    (msg3 : Memory) (quoteSz : Nat) (vrfymac : Block 16) :
    Keeps Advances (compareMac config msg1 session msg3 quoteSz vrfymac) := by
  unfold compareMac
  split
  · exact frame_advances.pure _
  · exact frame_advances.judgeQuote _ _ _ _ _

theorem advances_finishMsg3 (checked : Option (Session × Msg4)) :
    Keeps Advances (finishMsg3 checked : Proc (World sys) _) := by
  cases checked with
  | none => exact frame_advances.pure _
  | some checked => exact frame_advances.bind (advances_sendMsg4 _ _) fun _ => frame_advances.pure _

theorem emitted_of_gA_ne (config : Config sys) {msg1 : Msg1} (session : Session) {w : World sys}
    (hread : w.readRv = 1) (hgA : w.readDest.msg3GA ≠ msg1.gA) :
    emitted (processMsg3 config msg1 session) w = [.read w.msgio] := by
  apply emitted_eq
  rw [processMsg3_eq, bind_apply, checkMsg3_of_read hread, examineMsg3, if_pos hgA]
  rfl

/-- The first event after the read is the call that computes the MAC. -/
theorem emitted_of_gA (config : Config sys) (msg1 : Msg1) (session : Session) {w : World sys}
    (hread : w.readRv = 1) (hgA : w.readDest.msg3GA = msg1.gA) :
    ∃ rest, emitted (processMsg3 config msg1 session) w =
      .read w.msgio :: .cmac128 session.smk w.msg3Authenticated (w.vrfymac session).1
        (w.vrfymac session).2 :: rest := by
  obtain ⟨next, hnext⟩ : ∃ next, next = w.afterRead.tick [.cmac128 session.smk
    w.msg3Authenticated (w.vrfymac session).1 (w.vrfymac session).2] := ⟨_, rfl⟩
  have hcheck : checkMsg3 config msg1 session w =
      compareMac config msg1 session w.readDest w.quoteSz (w.vrfymac session).2 next := by
    rw [checkMsg3_of_read hread, examineMsg3, if_neg (not_not.mpr hgA), hnext]
    rfl
  obtain ⟨rest, hlog, _⟩ := frame_advances.bind
    (advances_compareMac config msg1 session w.readDest w.quoteSz (w.vrfymac session).2)
    advances_finishMsg3 next
  refine ⟨rest, emitted_eq ?_⟩
  rw [processMsg3_eq, bind_apply, hcheck, ← bind_apply, hlog, hnext]
  simp

/-! ## Bounds -/

/-- The bytes that are needed of a message 3. -/
def msg3Needed (verbose : Bool) (msg3 : Memory) : Nat :=
  if verbose then sizeofMsg3 + sizeofQuote + msg3.quoteSignatureLen else sizeofMsg3 + 432

/-- A message 3 that is read inside its buffer, and whose MAC is computed over all of it. -/
structure Msg3InBounds (config : Config sys) (msg1 : Msg1) (session : Session) (w : World sys) :
    Prop where
  inside : ∀ access ∈ msg3Accesses config msg1 session w.readDest w.quoteSz w.afterRead,
    access.Inside w.readDest.block.length
  macLength : ∀ key message ok mac rest,
    emitted (processMsg3 config msg1 session) w =
      .read w.msgio :: .cmac128 key message ok mac :: rest →
    message.length + 16 = w.readDest.block.length
  rejected : w.readDest.block.length < msg3Needed config.verbose w.readDest →
    (processMsg3 config msg1 session w).1 = some none

/-- What becomes of such a message does not depend on what lies behind its buffer. -/
theorem Msg3InBounds.examineMsg3_eq {config : Config sys} {msg1 : Msg1} {session : Session}
    {w : World sys} (hinBounds : Msg3InBounds config msg1 session w) {msg3 : Memory}
    (hblock : w.readDest.block = msg3.block) :
    examineMsg3 config msg1 session w.readDest w.quoteSz w.afterRead =
      examineMsg3 config msg1 session msg3 w.quoteSz w.afterRead :=
  examineMsg3_congr (Memory.agree_of_inside hblock hinBounds.inside)

/-- The lengths for which all is well: nothing that is needed is missing, and the length of
the quote has 32 bits. -/
def QuoteFits (verbose : Bool) (msg3 : Memory) : Prop :=
  msg3Needed verbose msg3 ≤ msg3.block.length ∧ msg3.block.length < 2 ^ 32 + sizeofMsg3

theorem msg3Needed_le {verbose : Bool} {msg3 : Memory} {n : Nat}
    (hneeded : msg3Needed verbose msg3 ≤ n) :
    768 ≤ n ∧ (verbose = true → 772 + msg3.quoteSignatureLen ≤ n) := by
  unfold msg3Needed sizeofMsg3 sizeofQuote at hneeded
  cases verbose with
  | true =>
      rw [if_pos rfl] at hneeded
      exact ⟨by omega, fun _ => hneeded⟩
  | false =>
      rw [if_neg Bool.false_ne_true] at hneeded
      exact ⟨hneeded, fun h => absurd h Bool.false_ne_true⟩

theorem inside_reportAccesses {n : Nat} (config : Config sys) (session : Session) (msg3 : Memory)
    (w : World sys) (hlong : 768 ≤ n) :
    ∀ access ∈ reportAccesses config session msg3 w, access.Inside n := by
  have hidentity : ∀ access ∈ identityAccesses, access.Inside 768 := by decide
  have hdetails : ∀ access ∈ reportDetails, access.Inside 768 := by decide
  unfold reportAccesses
  refine List.forall_mem_cons.mpr ⟨hlong, ?_⟩
  split
  · refine List.forall_mem_append.mpr ⟨fun access hmem => (hidentity access hmem).mono hlong, ?_⟩
    split
    · exact fun access hmem => (hdetails access hmem).mono hlong
    · simp
  · simp

theorem inside_msg3Details {n : Nat} {msg3 : Memory} (hlong : 772 + msg3.quoteSignatureLen ≤ n) :
    ∀ access ∈ msg3.msg3Details, access.Inside n := by
  have hmembers : ∀ access ∈ msg3Members, access.Inside 772 := by decide
  refine List.forall_mem_append.mpr ⟨fun access hmem => ?_, List.forall_mem_singleton.mpr hlong⟩
  exact (hmembers access hmem).mono (by omega)

theorem inside_quoteAccesses {n quoteSz : Nat} {config : Config sys} {msg3 : Memory} (msg1 : Msg1)
    (session : Session) (w : World sys) (hneeded : msg3Needed config.verbose msg3 ≤ n)
    (hquote : sizeofMsg3 + quoteSz ≤ n) :
    ∀ access ∈ quoteAccesses config msg1 session msg3 quoteSz w, access.Inside n := by
  obtain ⟨hlong, hverbose⟩ := msg3Needed_le hneeded
  have hshort : ∀ {offset length : Nat}, offset + length ≤ 768 →
      Access.Inside n ⟨offset, length⟩ :=
    fun hle => hle.trans hlong
  unfold quoteAccesses
  refine List.forall_mem_cons.mpr ⟨hquote, ?_⟩
  split
  · simp
  · refine List.forall_mem_append.mpr ⟨?_, List.forall_mem_cons.mpr ⟨hshort (by decide), ?_⟩⟩
    · split
      next hon => exact inside_msg3Details (hverbose hon)
      next => simp
    · split
      · simp
      · refine List.forall_mem_cons.mpr ⟨hshort (by decide), ?_⟩
        split
        · exact inside_reportAccesses config session msg3 _ hlong
        · simp

theorem inside_msg3Accesses {n quoteSz : Nat} {config : Config sys} {msg3 : Memory} (msg1 : Msg1)
    (session : Session) (w : World sys) (hneeded : msg3Needed config.verbose msg3 ≤ n)
    (hquote : sizeofMsg3 + quoteSz ≤ n) :
    ∀ access ∈ msg3Accesses config msg1 session msg3 quoteSz w, access.Inside n := by
  have hlong := (msg3Needed_le hneeded).1
  have hauthenticated : Access.Inside n ⟨16, sizeofMsg3 - 16 + quoteSz⟩ := by
    unfold Access.Inside sizeofMsg3 at *
    dsimp only
    omega
  unfold msg3Accesses
  refine List.forall_mem_cons.mpr ⟨Nat.le_trans (by decide) hlong, ?_⟩
  split
  · simp
  · refine List.forall_mem_cons.mpr ⟨hauthenticated, ?_⟩
    refine List.forall_mem_cons.mpr ⟨Nat.le_trans (by decide) hlong, ?_⟩
    split
    · simp
    · exact inside_quoteAccesses msg1 session _ hneeded hquote

/-- `quote_sz` of a message whose quote has 32 bits of length. -/
theorem quoteSize_of_fits {sz n : Nat} (hsz : n = sz / 2) (hlong : sizeofMsg3 ≤ n)
    (hfits : n < 2 ^ 32 + sizeofMsg3) : sizeofMsg3 + quoteSize sz = n := by
  unfold quoteSize sizeofMsg3 at *
  omega

/-! ## A client with the keys of its session -/

theorem msg3Accesses_of_mac {config : Config sys} {msg1 : Msg1} {session : Session} {msg3 : Memory}
    {quoteSz : Nat} {w : World sys} (hgA : msg3.msg3GA = msg1.gA) {vrfymac : Bool × Block 16}
    (hcmac : sys.cmac128 w.clock session.smk (msg3.slice 16 (sizeofMsg3 - 16 + quoteSz)) = vrfymac)
    (hmac : msg3.msg3Mac = vrfymac.2) :
    msg3Accesses config msg1 session msg3 quoteSz w =
      ⟨16, 64⟩ :: ⟨16, sizeofMsg3 - 16 + quoteSz⟩ :: ⟨0, 16⟩ ::
        quoteAccesses config msg1 session msg3 quoteSz (w.tick [.cmac128 session.smk
          (msg3.slice 16 (sizeofMsg3 - 16 + quoteSz)) vrfymac.1 vrfymac.2]) := by
  unfold msg3Accesses
  rw [if_neg (not_not.mpr hgA)]
  dsimp only
  rw [hcmac, if_neg (not_not.mpr hmac)]

theorem quoteAccesses_of_report {config : Config sys} {msg1 : Msg1} (session : Session)
    {msg3 : Memory} {quoteSz : Nat} {w next : World sys} {b64quote : Bytes} {msg4 : Msg4}
    (hencode : sys.base64Encode w.clock (msg3.slice sizeofMsg3 quoteSz) = some b64quote)
    (hgid : msg1.gid = msg3.quoteEpidGroupId)
    (hreport : getAttestationReport config b64quote (w.tick []) = (some (some msg4), next)) :
    quoteAccesses config msg1 session msg3 quoteSz w =
      ⟨sizeofMsg3, quoteSz⟩ :: ((if config.verbose then msg3.msg3Details else []) ++
        ⟨sizeofMsg3 + 4, 4⟩ :: ⟨80, 256⟩ :: reportAccesses config session msg3 next) := by
  unfold quoteAccesses
  rw [hencode]
  dsimp only
  rw [if_neg (not_not.mpr hgid), hreport]

/-- An environment in which every MAC is this one, and every report is in order. -/
abbrev Sys.authenticating (mac : Block 16) : Sys :=
  .reporting { Digests.zero with cmac := fun _ _ => mac } (reportText "OK")

def Config.authenticating (mac : Block 16) (verbose : Bool) : Config (.authenticating mac) :=
  { Config.plain _ () with verbose }

theorem evaluateReport_authenticating (verbose : Bool) :
    evaluateReport 4 false verbose (fun _ => 0) (reportText "OK") =
      some (some ⟨.trusted, .zero _, .zero _⟩) := by
  cases verbose with
  | false => decide +kernel
  | true => decide +kernel

theorem getAttestationReport_authenticating (mac : Block 16) (verbose : Bool) (b64quote : Bytes)
    (w : World (.authenticating mac)) :
    ∃ msg4 next, getAttestationReport (.authenticating mac verbose) b64quote w =
      (some (some msg4), next) :=
  ⟨_, _, getAttestationReport_eq_some_iff.mpr ⟨signedReply (reportText "OK"),
    ⟨rfl, rfl, rfl, verifyResponse_working _ _ _ _ _ _, evaluateReport_authenticating verbose⟩, rfl⟩⟩

/-- A message that its client has authenticated is read up to the report data, whatever its
length. -/
theorem mem_msg3Accesses (msg3 : Memory) (quoteSz : Nat) (verbose : Bool)
    (session : Session) (w : World (.authenticating msg3.msg3Mac)) :
    let footprint := msg3Accesses (.authenticating msg3.msg3Mac verbose)
      ⟨msg3.msg3GA, msg3.quoteEpidGroupId⟩ session msg3 quoteSz w
    ⟨16, sizeofMsg3 - 16 + quoteSz⟩ ∈ footprint ∧ ⟨sizeofMsg3 + 368, 64⟩ ∈ footprint ∧
      (verbose = true → ⟨sizeofMsg3 + sizeofQuote, msg3.quoteSignatureLen⟩ ∈ footprint) := by
  intro footprint
  obtain ⟨checked, hchecked⟩ : ∃ checked, checked = w.tick [.cmac128 session.smk
    (msg3.slice 16 (sizeofMsg3 - 16 + quoteSz)) true msg3.msg3Mac] := ⟨_, rfl⟩
  obtain ⟨msg4, next, hreport⟩ := getAttestationReport_authenticating msg3.msg3Mac verbose
    (encodeBase64 (msg3.slice sizeofMsg3 quoteSz)) (checked.tick [])
  have hfootprint : footprint = _ := msg3Accesses_of_mac rfl rfl rfl
  rw [quoteAccesses_of_report session rfl rfl (hchecked ▸ hreport)] at hfootprint
  rw [hfootprint]
  refine ⟨?_, ?_, ?_⟩
  · simp
  · simp [reportAccesses]
  · rintro rfl
    simp [Config.authenticating, Memory.msg3Details]

/-! ## Every session -/

/-- What the next `read` hands to its caller. -/
def ReadResult.received (result : ReadResult) : Memory := result.dest.getD (.wild fun _ => 0)

theorem readDest_received {msgio : MsgIo} {w : World sys} (hmsgio : w.msgio = msgio) {n : Nat}
    (hlong : n < msgio.read.1.received.block.length) : w.readDest = msgio.read.1.received := by
  unfold World.readDest ReadResult.received at *
  rw [hmsgio]
  cases hdest : msgio.read.1.dest with
  | some memory => rfl
  | none =>
      rw [hdest] at hlong
      exact absurd hlong (Nat.not_lt_zero n)

/-- A message is half as long as the line it was decoded from. -/
theorem length_received {result : ReadResult} (hformed : result.WellFormed) {n : Nat}
    (hlong : n < result.received.block.length) : result.received.block.length = result.sz / 2 := by
  unfold ReadResult.received at *
  cases hdest : result.dest with
  | some memory => exact (hformed.dest memory hdest).2
  | none =>
      rw [hdest] at hlong
      exact absurd hlong (Nat.not_lt_zero n)

theorem length_msg3Authenticated (w : World sys) :
    w.msg3Authenticated.length = sizeofMsg3 - 16 + w.quoteSz := by
  rw [World.msg3Authenticated, Memory.length_slice]

/-- A received message is read inside its buffer in every session exactly if it is as long
as its contents ask for, and no longer than 32 bits can say. -/
theorem msg3_inBounds_iff {msgio : MsgIo} (verbose : Bool) (hread : msgio.read.1.rv = 1) :
    (∀ (sys : Sys) (config : Config sys) (msg1 : Msg1) (session : Session) (w : World sys),
      config.verbose = verbose → w.msgio = msgio → Msg3InBounds config msg1 session w) ↔
      QuoteFits verbose msgio.read.1.received := by
  constructor
  · intro hall
    obtain ⟨msg3, hmsg3⟩ : ∃ msg3, msg3 = msgio.read.1.received := ⟨_, rfl⟩
    obtain ⟨w, hw⟩ : ∃ w : World (.authenticating msg3.msg3Mac),
      w = .start msgio (.plain _) := ⟨_, rfl⟩
    have hmsgio : w.msgio = msgio := by rw [hw]; rfl
    have hdest : w.readDest = msg3 := by
      rw [hw]
      exact hmsg3.symm
    obtain ⟨hinside, hlength, _⟩ := hall _ (.authenticating msg3.msg3Mac verbose)
      ⟨msg3.msg3GA, msg3.quoteEpidGroupId⟩ .zero w rfl hmsgio
    rw [← hmsg3]
    rw [hdest] at hinside hlength
    obtain ⟨hauthenticated, hreport, hsignature⟩ :=
      mem_msg3Accesses msg3 w.quoteSz verbose .zero w.afterRead
    obtain ⟨rest, hmac⟩ := emitted_of_gA (.authenticating msg3.msg3Mac verbose)
      ⟨msg3.msg3GA, msg3.quoteEpidGroupId⟩ .zero (by rw [World.readRv, hmsgio, hread]) (by rw [hdest])
    have hsize := hlength _ _ _ _ _ hmac
    rw [length_msg3Authenticated] at hsize
    have hquote : w.quoteSz < 2 ^ 32 := Nat.mod_lt _ (by decide)
    have hfull := hinside _ hauthenticated
    unfold sizeofMsg3 at hsize
    unfold Access.Inside sizeofMsg3 at hfull
    dsimp only at hfull
    refine ⟨?_, ?_⟩
    · unfold msg3Needed
      split
      next hon => exact hinside _ (hsignature hon)
      next => exact hinside _ hreport
    · unfold sizeofMsg3
      omega
  · rintro ⟨hneeded, hshort⟩ sys config msg1 session w rfl hmsgio
    have hlong := (msg3Needed_le hneeded).1
    have hdest := readDest_received hmsgio hlong
    have hrv : w.readRv = 1 := by rw [World.readRv, hmsgio, hread]
    have hquote : sizeofMsg3 + w.quoteSz = w.readDest.block.length := by
      rw [hdest]
      refine quoteSize_of_fits ?_ (Nat.le_trans (by decide) hlong) hshort
      rw [World.readSz, hmsgio]
      exact length_received msgio.read_wellFormed hlong
    rw [← hdest] at hneeded
    refine ⟨inside_msg3Accesses _ _ _ hneeded hquote.le, ?_, fun h => absurd hneeded (by omega)⟩
    intro key message ok mac rest hevents
    by_cases hgA : w.readDest.msg3GA = msg1.gA
    · obtain ⟨rest', hmac⟩ := emitted_of_gA config msg1 session hrv hgA
      rw [hevents] at hmac
      cases hmac
      rw [length_msg3Authenticated]
      unfold sizeofMsg3 at *
      omega
    · rw [emitted_of_gA_ne config session hrv hgA] at hevents
      cases hevents

/-- A server may receive any message that fits into one chunk. -/
theorem exists_receives (sys : Sys) {message : Bytes} (hmessage : message ≠ [])
    (hfits : 2 * message.length < msgioBufferSz) : ∃ w : World sys, w.Receives message [] :=
  ⟨.serving sys [.line message hfits],
    World.receives_line rfl rfl hmessage (Recv.delivers_line message hfits []) rfl⟩

/-- A message of 772 bytes, the shortest that the verbose output can print, is read inside
its buffer. -/
theorem msg3_inBounds_plain :
    ∃ msgio : MsgIo, msgio.read.1.rv = 1 ∧ msgio.read.1.received.block.length = 772 ∧
      ∀ (sys : Sys) (config : Config sys) (msg1 : Msg1) (session : Session) (w : World sys),
        config.verbose = true → w.msgio = msgio → Msg3InBounds config msg1 session w := by
  obtain ⟨w, hread⟩ : ∃ w : World (.authenticating (.zero 16)), w.Receives (plainMsg3 692) [] :=
    exists_receives _ (plainMsg3_ne_nil _) (by simp [msgioBufferSz])
  have hreceived : w.msgio.read.1.received = w.readDest := rfl
  have hlength : w.msgio.read.1.received.block.length = 772 := by
    rw [hreceived, hread.block, length_plainMsg3]
  refine ⟨w.msgio, hread.rv, hlength, (msg3_inBounds_iff true hread.rv).mpr ⟨?_, ?_⟩⟩
  · have hsignature : w.readDest.quoteSignatureLen = 0 := by
      rw [Memory.quoteSignatureLen, Memory.slice_zero, leNat_replicate]
      rw [hread.block]
      exact zero_plainMsg3 (by decide) (by decide)
    rw [hlength, msg3Needed, if_pos rfl, hreceived, hsignature]
    decide
  · rw [hlength]
    decide

/-- The line of a message 3 that ends one byte before its quote. -/
def Recv.shortMsg3 : Recv := .line (RemoteAttestation.plainMsg3 255) (by simp [msgioBufferSz])

/-- In the session of a client that sends it behind messages 0 and 1 with the same key, 4 GB are
authenticated. -/
theorem short_msg3_outOfBounds :
    ∃ (prepared : Prepared) (w : World (.reporting .zero (reportText "OK")))
      (rest : List (Event _)),
      CallsMsg3 (.plain _ ()) (.serving _ [.plainMsg01, .shortMsg3]) prepared w ∧
        w.readRv = 1 ∧ w.readDest.block.length = 335 ∧
        emitted (processMsg3 (.plain _ ()) prepared.msg1 prepared.session) w =
          .read w.msgio :: .cmac128 prepared.session.smk w.msg3Authenticated true (.zero 16) ::
            rest ∧
        w.msg3Authenticated.length = 2 ^ 32 + 319 ∧
        ¬ Msg3InBounds (.plain _ ()) prepared.msg1 prepared.session w := by
  obtain ⟨prepared, w, hcalls, hmsg1, hread⟩ := callsMsg3_plain .zero (reportText "OK")
    (Recv.delivers_line _ _ [.shortMsg3]) (Recv.delivers_line (plainMsg3 255) _ [])
    (plainMsg3_ne_nil _)
  have hlength : w.readDest.block.length = 335 := by rw [hread.block, length_plainMsg3]
  have hgA : w.readDest.msg3GA = prepared.msg1.gA := by
    rw [hmsg1, Memory.msg3GA]
    apply Memory.field_eq
    rw [hread.block]
    exact gA_plainMsg3 255
  have hauthenticated : w.msg3Authenticated.length = 2 ^ 32 + 319 := by
    rw [length_msg3Authenticated, World.quoteSz, hread.sz, length_plainMsg3]
    decide
  obtain ⟨rest, hevents⟩ := emitted_of_gA (.plain _ ()) prepared.msg1 prepared.session hread.rv hgA
  refine ⟨prepared, w, rest, hcalls, hread.rv, hlength, hevents, hauthenticated, fun hinBounds => ?_⟩
  have hmac := hinBounds.macLength _ _ _ _ _ hevents
  rw [hauthenticated, hlength] at hmac
  omega

end RemoteAttestation
