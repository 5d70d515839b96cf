import RemoteAttestation.Foundation.Trace
import RemoteAttestation.ServiceProvider.Handlers

/-! # The server loop

One session after the other, over one transport object and one connection to
the attestation service.
-/

namespace RemoteAttestation

variable {sys : Sys}

/-- Message 2 goes out in two parts: the structure and the revocation list. -/
def sendMsg2 (prepared : Prepared) : Proc (World sys) Unit := do
  sendPartial prepared.msg2.bytes
  send (prepared.sigrl.take prepared.msg2.sigRlSize)

def disconnect : Proc (World sys) Unit :=
  .step fun w => ((), { w with msgio := w.msgio.disconnect })

/-- The body of the server loop up to its label `disconnect`. -/
def serveClient (config : Config sys) : Proc (World sys) Unit := do
  match ← processMsg01 config with
  | none => return ()
  | some prepared =>
      sendMsg2 prepared
      let _ ← processMsg3 config prepared.msg1 prepared.session
      return ()

/-- The body of the server loop. -/
def session (config : Config sys) : Proc (World sys) Unit := do
  serveClient config
  disconnect

/-- `server_loop` in the world of the server. -/
def acceptClient (w : World sys) : Option (World sys) :=
  match w.msgio.serverLoop with
  | (true, msgio) => some { w with msgio }
  | (false, _) => none

/-- The server process when it enters its loop. -/
def World.start (msgio : MsgIo) (ias : IasConnection sys) : World sys := ⟨msgio, ias, 0, []⟩

/-- The first `n` turns of the loop of `main`: the worlds in which its sessions start. -/
def mainLoop (config : Config sys) (n : Nat) (w : World sys) : List (World sys) × World sys :=
  rounds acceptClient (session config) n w

/-- The call of `process_msg3` in a session: what `process_msg01` prepared, and the
world after message 2 was sent. -/
def CallsMsg3 (config : Config sys) (start : World sys) (prepared : Prepared)
    (w : World sys) : Prop :=
  ∃ next, processMsg01 config start = (some (some prepared), next) ∧
    sendMsg2 prepared next = (some (), w)

theorem CallsMsg3.unique {config : Config sys} {start w w' : World sys}
    {prepared prepared' : Prepared} (hleft : CallsMsg3 config start prepared w)
    (hright : CallsMsg3 config start prepared' w') : prepared = prepared' ∧ w = w' := by
  obtain ⟨next, hprocess, hsend⟩ := hleft
  obtain ⟨next', hprocess', hsend'⟩ := hright
  rw [hprocess] at hprocess'
  cases hprocess'
  rw [hsend] at hsend'
  cases hsend'
  exact ⟨rfl, rfl⟩

/-- The events a program adds to the log, whether it returns or dies. -/
def emitted {α : Type} (x : Proc (World sys) α) (w : World sys) : List (Event sys) :=
  (x w).2.log.drop w.log.length

/-- The events of the session that starts in a world. -/
def sessionEvents (config : Config sys) (start : World sys) : List (Event sys) :=
  emitted (serveClient config) start

end RemoteAttestation
