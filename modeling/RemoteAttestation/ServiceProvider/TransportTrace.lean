import RemoteAttestation.Transport.Framing
import RemoteAttestation.ServiceProvider.Server

/-! # The transport during a session

The handlers touch the transport object through `read`, `send_partial` and `send`
only. A `Frame` is a relation between worlds that every other call keeps; what a
handler keeps follows from its calls. Two frames are used: during a session the
transport moves exactly along the events of the log, and the checks of a message
queue nothing.
-/

namespace RemoteAttestation

open Proc

variable {sys : Sys}

/-- A call that has nothing to do with the transport. -/
def Event.offline : Event sys → Bool
  | .read _ | .sendPartial _ _ | .send _ _ => false
  | _ => true

/-- A relation kept by `read` and by every call outside the transport. -/
structure Frame (rel : World sys → World sys → Prop) : Prop where
  refl : ∀ w, rel w w
  trans : ∀ {a b c}, rel a b → rel b c → rel a c
  read : ∀ w, rel w w.afterRead
  offline : ∀ {w w' : World sys} (events : List (Event sys)), w'.msgio = w.msgio →
    w'.log = w.log ++ events → (∀ event ∈ events, event.offline) → rel w w'

namespace Frame

variable {rel : World sys → World sys → Prop} (frame : Frame rel) {α β : Type}

include frame

theorem pure (a : α) : Keeps rel (Pure.pure a : Proc (World sys) α) := Keeps.pure frame.refl a

theorem bind {x : Proc (World sys) α} {f : α → Proc (World sys) β} (hx : Keeps rel x)
    (hf : ∀ a, Keeps rel (f a)) : Keeps rel (x >>= f) := by
  refine Keeps.bind ?_ hx hf
  intro a b c
  exact frame.trans

theorem call {answer : Nat → α} {event : α → List (Event sys)}
    (hevent : ∀ a, ∀ e ∈ event a, e.offline) : Keeps rel (RemoteAttestation.call answer event) :=
  fun _ => frame.offline _ rfl rfl (hevent _)

theorem silent {answer : Nat → α} :
    Keeps rel (RemoteAttestation.call answer fun _ => [] : Proc (World sys) α) :=
  frame.call fun _ _ hmem => absurd hmem List.not_mem_nil

theorem single {answer : Nat → α} {event : α → Event sys} (hevent : ∀ a, (event a).offline) :
    Keeps rel (RemoteAttestation.call answer fun a => [event a]) := by
  refine frame.call fun a e hmem => ?_
  rw [List.mem_singleton] at hmem
  rw [hmem]
  exact hevent a

theorem logged {event : α → Event sys} (hevent : ∀ a, (event a).offline)
    {x : Proc (World sys) α} (hx : Keeps rel x) : Keeps rel (RemoteAttestation.logged event x) := by
  refine frame.bind hx fun a w => frame.offline [event a] rfl rfl ?_
  intro e hmem
  rw [List.mem_singleton] at hmem
  rw [hmem]
  exact hevent a

theorem connection : Keeps rel (RemoteAttestation.connection : Proc (World sys) _) :=
  fun w => frame.refl w

theorem cmac128 (key : Block 16) (message : Bytes) :
    Keeps rel (RemoteAttestation.cmac128 key message) :=
  frame.single fun _ => rfl

theorem sha256Digest (message : Bytes) : Keeps rel (RemoteAttestation.sha256Digest message) :=
  frame.bind (frame.single fun _ => rfl) fun _ => frame.pure _

/-! ## Requests to the attestation service -/

theorem sigrl (version gid : Nat) : Keeps rel (RemoteAttestation.sigrl version gid) := by
  unfold RemoteAttestation.sigrl
  refine frame.bind frame.connection fun ias => frame.bind frame.silent fun agent => ?_
  split
  · exact frame.pure _
  · refine frame.bind (frame.single fun _ => rfl) fun response => ?_
    cases response with
    | none => exact frame.pure _
    | some response => exact frame.pure _

theorem sigrlLoop (version gid fuel : Nat) :
    Keeps rel (RemoteAttestation.sigrlLoop version gid fuel) := by
  induction fuel with
  | zero => exact Keeps.die frame.refl
  | succ fuel ih =>
      unfold RemoteAttestation.sigrlLoop
      refine frame.bind (frame.sigrl _ _) fun result => frame.bind frame.connection fun ias => ?_
      split
      · refine frame.bind (fun w => ?_) fun _ => ih
        exact frame.offline [] rfl (List.append_nil _).symm
          fun _ hmem => absurd hmem List.not_mem_nil
      · exact frame.pure _

theorem getSigrl (version gid : Nat) : Keeps rel (RemoteAttestation.getSigrl version gid) := by
  unfold RemoteAttestation.getSigrl
  refine frame.logged (fun _ => rfl) (frame.bind (frame.sigrlLoop _ _ _) fun result => ?_)
  obtain ⟨ret, sigrlstr⟩ := result
  dsimp only
  split
  · exact frame.pure _
  · exact frame.silent

theorem report (version : Nat) (payload : List (Bytes × Bytes)) :
    Keeps rel (RemoteAttestation.report version payload) := by
  unfold RemoteAttestation.report
  refine frame.bind frame.connection fun ias => frame.bind frame.silent fun agent => ?_
  split
  · exact frame.pure _
  · refine frame.bind (frame.single fun _ => rfl) fun response => ?_
    cases response with
    | none => exact frame.pure _
    | some response =>
        dsimp only
        split
        · exact frame.pure _
        · exact frame.silent

theorem getAttestationReport (config : Config sys) (b64quote : Bytes) :
    Keeps rel (RemoteAttestation.getAttestationReport config b64quote) := by
  unfold RemoteAttestation.getAttestationReport
  refine frame.bind (frame.report _ _) fun result => ?_
  split
  · refine frame.bind frame.silent fun verdict => ?_
    cases verdict with
    | none => exact Keeps.die frame.refl
    | some msg4 => exact frame.pure _
  · exact frame.pure _

/-! ## Handlers -/

theorem deriveKdk (gb : sys.Pkey) (gA : Block 64) :
    Keeps rel (RemoteAttestation.deriveKdk gb gA) := by
  unfold RemoteAttestation.deriveKdk
  refine frame.logged (fun _ => rfl) (frame.bind (frame.single fun _ => rfl) fun ga => ?_)
  cases ga with
  | none => exact frame.pure _
  | some ga =>
      refine frame.bind (frame.single fun _ => rfl) fun secret => ?_
      cases secret with
      | none => exact frame.pure _
      | some secret => exact frame.bind (frame.cmac128 _ _) fun _ => frame.pure _

theorem processMsg01 (config : Config sys) : Keeps rel (RemoteAttestation.processMsg01 config) := by
  unfold RemoteAttestation.processMsg01 prepareMsg2
  refine frame.bind frame.read fun result => ?_
  obtain ⟨rv, msg01, sz⟩ := result
  dsimp only
  split
  · exact frame.pure _
  · split
    · exact frame.pure _
    · split
      · exact frame.pure _
      · refine frame.bind (frame.single fun _ => rfl) fun gb => ?_
        cases gb with
        | none => exact frame.pure _
        | some gb =>
            refine frame.bind (frame.deriveKdk _ _) fun kdk => ?_
            cases kdk with
            | none => exact frame.pure _
            | some kdk =>
                refine frame.bind (frame.cmac128 _ _) fun smk => ?_
                refine frame.bind (frame.single fun _ => rfl) fun gB => ?_
                refine frame.bind (frame.getSigrl _ _) fun sigrl => ?_
                cases sigrl with
                | none => exact frame.pure _
                | some sigrl =>
                    refine frame.bind (frame.single fun _ => rfl) fun signature => ?_
                    exact frame.bind (frame.cmac128 _ _) fun _ => frame.pure _

theorem verifyReportData (session : Session) (msg3 : Memory) :
    Keeps rel (RemoteAttestation.verifyReportData session msg3) := by
  unfold RemoteAttestation.verifyReportData
  refine frame.bind (frame.cmac128 _ _) fun vk => frame.bind (frame.sha256Digest _) fun digest => ?_
  dsimp only
  split
  · exact frame.pure _
  · exact frame.pure _

theorem checkMsg3 (config : Config sys) (msg1 : Msg1) (session : Session) :
    Keeps rel (RemoteAttestation.checkMsg3 config msg1 session) := by
  unfold RemoteAttestation.checkMsg3
  refine frame.bind frame.read fun result => ?_
  obtain ⟨rv, msg3, sz⟩ := result
  dsimp only
  split
  · exact frame.pure _
  · split
    · exact frame.pure _
    · split
      · exact frame.pure _
      · refine frame.bind (frame.cmac128 _ _) fun vrfymac => ?_
        split
        · exact frame.pure _
        · refine frame.bind frame.silent fun b64quote => ?_
          cases b64quote with
          | none => exact frame.pure _
          | some b64quote =>
              dsimp only
              split
              · exact frame.pure _
              · refine frame.bind (frame.getAttestationReport _ _) fun msg4 => ?_
                cases msg4 with
                | none => exact frame.pure _
                | some msg4 =>
                    refine frame.bind (frame.verifyReportData _ _) fun verified => ?_
                    cases verified with
                    | none => exact frame.pure _
                    | some session => exact frame.pure _

end Frame

/-! ## The log is the movement of the transport -/

/-- What an event of the log says about the transport: the calls made on it change it,
every other call leaves it alone. -/
def MsgIo.Moves (msgio : MsgIo) (event : Event sys) (next : MsgIo) : Prop :=
  match event with
  | .read before => before = msgio ∧ next = msgio.read.2
  | .sendPartial before src => before = msgio ∧ next = msgio.sendPartial src
  | .send before src => before = msgio ∧ next = msgio.send src
  | _ => next = msgio

theorem MsgIo.moves_of_offline (msgio : MsgIo) {event : Event sys} (hoffline : event.offline) :
    msgio.Moves event msgio := by
  cases event with
  | read | sendPartial | send => simp [Event.offline] at hoffline
  | _ => exact rfl

/-- The world moved on by logged steps. -/
abbrev Advances : World sys → World sys → Prop := Traced World.log World.msgio MsgIo.Moves

theorem frame_advances : Frame (Advances : World sys → World sys → Prop) where
  refl := Traced.refl
  trans := Traced.trans
  read _ := .of_single rfl ⟨rfl, rfl⟩
  offline := by
    intro w w' events hmsgio hlog hevents
    refine ⟨events, hlog, ?_⟩
    rw [hmsgio]
    clear hlog
    induction events with
    | nil => exact .nil
    | cons event events ih =>
        refine .cons (MsgIo.moves_of_offline _ (hevents event List.mem_cons_self)) (ih ?_)
        exact fun e hmem => hevents e (List.mem_cons_of_mem _ hmem)

theorem advances_sendPartial (src : Bytes) :
    Keeps Advances (sendPartial src : Proc (World sys) Unit) :=
  fun _ => .of_single rfl ⟨rfl, rfl⟩

theorem advances_send (src : Bytes) :
    Keeps Advances (send src : Proc (World sys) Unit) :=
  fun _ => .of_single rfl ⟨rfl, rfl⟩

theorem advances_sendMsg2 (prepared : Prepared) :
    Keeps Advances (sendMsg2 prepared : Proc (World sys) Unit) :=
  frame_advances.bind (advances_sendPartial _) fun _ => advances_send _

theorem advances_sendMsg4 (session : Session) (msg4 : Msg4) :
    Keeps Advances (sendMsg4 session msg4 : Proc (World sys) _) := by
  unfold sendMsg4
  refine frame_advances.bind (advances_sendPartial _) fun _ => ?_
  refine frame_advances.bind (advances_sendPartial _) fun _ => ?_
  split
  · refine frame_advances.bind (frame_advances.cmac128 _ _) fun mk => ?_
    refine frame_advances.bind (frame_advances.cmac128 _ _) fun sk => ?_
    refine frame_advances.bind (frame_advances.sha256Digest _) fun _ => ?_
    refine frame_advances.bind (frame_advances.sha256Digest _) fun _ => ?_
    exact frame_advances.bind (advances_send _) fun _ => frame_advances.pure _
  · exact frame_advances.pure _

theorem advances_processMsg3 (config : Config sys) (msg1 : Msg1) (session : Session) :
    Keeps Advances (processMsg3 config msg1 session) := by
  unfold processMsg3
  refine frame_advances.bind (frame_advances.checkMsg3 _ _ _) fun checked => ?_
  cases checked with
  | none => exact frame_advances.pure _
  | some checked =>
      exact frame_advances.bind (advances_sendMsg4 _ _) fun _ => frame_advances.pure _

theorem advances_serveClient (config : Config sys) : Keeps Advances (serveClient config) := by
  unfold serveClient
  refine frame_advances.bind (frame_advances.processMsg01 config) fun prepared => ?_
  cases prepared with
  | none => exact frame_advances.pure _
  | some prepared =>
      refine frame_advances.bind (advances_sendMsg2 prepared) fun _ => ?_
      exact frame_advances.bind (advances_processMsg3 _ _ _) fun _ => frame_advances.pure _

theorem emitted_eq {α : Type} {x : Proc (World sys) α} {w : World sys} {events : List (Event sys)}
    (hlog : (x w).2.log = w.log ++ events) : emitted x w = events := by
  unfold emitted
  rw [hlog, List.drop_left]

/-- The events of two programs in sequence. -/
theorem emitted_bind {α β : Type} {x : Proc (World sys) α} {f : α → Proc (World sys) β}
    (hx : Keeps Advances x) {a : α} (hf : Keeps Advances (f a)) {w next : World sys}
    (hrun : x w = (some a, next)) : emitted (x >>= f) w = emitted x w ++ emitted (f a) next := by
  obtain ⟨left, hleft, _⟩ := hx w
  obtain ⟨right, hright, _⟩ := hf next
  rw [emitted_eq hleft, emitted_eq hright]
  apply emitted_eq
  rw [bind_of_some hrun, hright]
  rw [hrun] at hleft
  rw [hleft, List.append_assoc]

/-- Along the events a program adds to the log the transport moves to its final state. -/
theorem chain_emitted {α : Type} {x : Proc (World sys) α} (hx : Keeps Advances x)
    (w : World sys) : Chain MsgIo.Moves w.msgio (emitted x w) (x w).2.msgio := by
  obtain ⟨events, hlog, hchain⟩ := hx w
  rw [emitted_eq hlog]
  exact hchain

/-! ## The checks queue nothing -/

/-- No event between two worlds queues or sends, and the bytes queued and sent are the same. -/
structure Quiet (w w' : World sys) : Prop where
  log : ∃ events, w'.log = w.log ++ events ∧
    ∀ event ∈ events, ∀ before src, event ≠ .send before src ∧ event ≠ .sendPartial before src
  useStdio : w'.msgio.useStdio = w.msgio.useStdio
  wbuffer : w'.msgio.wbuffer = w.msgio.wbuffer
  wire : w'.msgio.wire = w.msgio.wire
  outgoing : w'.msgio.client.outgoing = w.msgio.client.outgoing

theorem MsgIo.read_quiet (msgio : MsgIo) :
    msgio.read.2.useStdio = msgio.useStdio ∧ msgio.read.2.wbuffer = msgio.wbuffer ∧
      msgio.read.2.wire = msgio.wire ∧ msgio.read.2.client.outgoing = msgio.client.outgoing := by
  unfold MsgIo.read
  split
  · exact ⟨rfl, rfl, rfl, rfl⟩
  · exact ⟨rfl, rfl, rfl, rfl⟩

theorem frame_quiet : Frame (Quiet : World sys → World sys → Prop) where
  refl w := ⟨⟨[], by simp, by simp⟩, rfl, rfl, rfl, rfl⟩
  trans := by
    intro a b c hab hbc
    obtain ⟨left, hleft, hquietLeft⟩ := hab.log
    obtain ⟨right, hright, hquietRight⟩ := hbc.log
    refine ⟨⟨left ++ right, ?_, ?_⟩, hbc.useStdio.trans hab.useStdio,
      hbc.wbuffer.trans hab.wbuffer, hbc.wire.trans hab.wire, hbc.outgoing.trans hab.outgoing⟩
    · rw [hright, hleft, List.append_assoc]
    · intro event hmem
      rcases List.mem_append.mp hmem with hmem | hmem
      · exact hquietLeft event hmem
      · exact hquietRight event hmem
  read := by
    intro w
    obtain ⟨hstdio, hwbuffer, hwire, houtgoing⟩ := w.msgio.read_quiet
    exact ⟨⟨_, rfl, by simp⟩, hstdio, hwbuffer, hwire, houtgoing⟩
  offline := by
    intro w w' events hmsgio hlog hevents
    refine ⟨⟨events, hlog, ?_⟩, by rw [hmsgio], by rw [hmsgio], by rw [hmsgio], by rw [hmsgio]⟩
    intro event hmem before src
    have hoffline := hevents event hmem
    constructor
    · rintro rfl
      simp [Event.offline] at hoffline
    · rintro rfl
      simp [Event.offline] at hoffline

/-! ## The events of a session -/

/-- Message 2 is two calls. -/
def msg2Events (prepared : Prepared) (w : World sys) : List (Event sys) :=
  [.sendPartial w.msgio prepared.msg2.bytes,
    .send (w.msgio.sendPartial prepared.msg2.bytes)
      (prepared.sigrl.take prepared.msg2.sigRlSize)]

theorem emitted_sendMsg2 (prepared : Prepared) (w : World sys) :
    emitted (sendMsg2 prepared) w = msg2Events prepared w := by
  apply emitted_eq
  simp [sendMsg2, msg2Events, send]

theorem emitted_discard {α : Type} (x : Proc (World sys) α) (w : World sys) :
    emitted (x >>= fun _ => (pure () : Proc (World sys) Unit)) w = emitted x w := by
  unfold emitted
  rw [bind_apply]
  cases x w with
  | mk returned next =>
      cases returned with
      | none => rfl
      | some a => rfl

/-- A session that reaches message 3 consists of its three parts. -/
theorem sessionEvents_eq {config : Config sys} {start next w : World sys} {prepared : Prepared}
    (hprocess : processMsg01 config start = (some (some prepared), next))
    (hsend : sendMsg2 prepared next = (some (), w)) :
    sessionEvents config start = emitted (processMsg01 config) start ++
      (msg2Events prepared next ++ emitted (processMsg3 config prepared.msg1 prepared.session) w) := by
  have hmsg3 : Keeps Advances (processMsg3 config prepared.msg1 prepared.session >>= fun _ =>
      (pure () : Proc (World sys) Unit)) :=
    frame_advances.bind (advances_processMsg3 _ _ _) fun _ => frame_advances.pure _
  unfold sessionEvents serveClient
  rw [emitted_bind (frame_advances.processMsg01 config)
      (frame_advances.bind (advances_sendMsg2 prepared) fun _ => hmsg3) hprocess]
  dsimp only
  rw [emitted_bind (advances_sendMsg2 prepared) hmsg3 hsend, emitted_sendMsg2, emitted_discard]

/-- A session that does not get as far consists of its first part. -/
theorem sessionEvents_of_rejected {config : Config sys} {start : World sys}
    (hrejects : ∀ prepared next, processMsg01 config start ≠ (some (some prepared), next)) :
    sessionEvents config start = emitted (processMsg01 config) start := by
  unfold sessionEvents serveClient emitted
  rw [bind_apply]
  cases hprocess : processMsg01 config start with
  | mk returned next =>
      cases returned with
      | none => rfl
      | some returned =>
          cases returned with
          | none => rfl
          | some prepared => exact absurd hprocess (hrejects prepared next)

/-- A session ends where `process_msg01` rejects. -/
theorem serveClient_of_rejected {config : Config sys} {w : World sys}
    (hreturn : ∀ prepared next, processMsg01 config w ≠ (some (some prepared), next)) :
    (serveClient config w).2 = (processMsg01 config w).2 := by
  unfold serveClient
  rw [bind_apply]
  cases hprocess : processMsg01 config w with
  | mk returned next =>
      cases returned with
      | none => rfl
      | some returned =>
          cases returned with
          | none => rfl
          | some prepared => exact absurd hprocess (hreturn prepared next)

/-- A session that reaches message 3 ends with `process_msg3`. -/
theorem serveClient_of_callsMsg3 {config : Config sys} {w next : World sys} {prepared : Prepared}
    (hcalls : CallsMsg3 config w prepared next) :
    (serveClient config w).2 = (processMsg3 config prepared.msg1 prepared.session next).2 := by
  obtain ⟨middle, hprocess, hsend⟩ := hcalls
  unfold serveClient
  rw [bind_of_some hprocess]
  dsimp only
  rw [bind_of_some hsend, bind_apply]
  split
  next heq =>
    rw [heq]
    rfl
  next heq => rw [heq]

/-! ## From one session to the next -/

/-- A client that is accepted finds the buffers as they are, and an empty wire. -/
theorem acceptClient_socket {w start : World sys} (hsocket : w.msgio.useStdio = false)
    (haccept : acceptClient w = some start) :
    start.msgio.useStdio = false ∧ start.msgio.wbuffer = w.msgio.wbuffer ∧
      start.msgio.rbuffer = w.msgio.rbuffer ∧ start.msgio.wire = [] := by
  unfold acceptClient at haccept
  split at haccept
  next msgio heq =>
    cases haccept
    exact MsgIo.serverLoop_socket hsocket heq
  next => simp at haccept

/-- The buffers a session hands on are those its handlers left. -/
theorem acceptClient_session {config : Config sys} {start last next : World sys}
    (hsocket : (serveClient config start).2.msgio.useStdio = false)
    (hsession : session config start = (some (), last)) (hnext : acceptClient last = some next) :
    next.msgio.useStdio = false ∧
      next.msgio.wbuffer = (serveClient config start).2.msgio.wbuffer ∧
      next.msgio.rbuffer = (serveClient config start).2.msgio.rbuffer ∧
      next.msgio.wire = [] := by
  unfold session at hsession
  obtain ⟨u, served, hserve, hdisconnect⟩ := bind_eq_some.mp hsession
  rw [hserve] at hsocket ⊢
  cases hdisconnect
  obtain ⟨hstdio, hwbuffer, hrbuffer⟩ := served.msgio.disconnect_buffers
  rw [← hwbuffer, ← hrbuffer]
  exact acceptClient_socket (hstdio.trans hsocket) hnext

end RemoteAttestation
