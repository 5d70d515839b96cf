import RemoteAttestation.ServiceProvider.Environment
import RemoteAttestation.ServiceProvider.TransportTrace
import RemoteAttestation.Transport.TwoTransports

/-! # The server on the standard streams

On a socket the loop of `main` waits for the next client. On the standard streams
`server_loop` has nothing to wait for, and nothing tells it that the input ended: it
returns 1 for good, and a session that meets the end of the input only fails.
-/

namespace RemoteAttestation

open Proc

variable {sys : Sys}

/-- A server that works on the standard streams. -/
def World.OnStdio (w : World sys) : Prop := w.msgio.useStdio = true

/-- One whose input is used up. -/
def World.AtEnd (w : World sys) : Prop := w.OnStdio ∧ w.msgio.stdio.stdin = []

/-- The loop of `main` is left and `main` returns. -/
def MainReturns (config : Config sys) (w : World sys) : Prop :=
  Returns acceptClient (session config) w

/-- The server stops when its input ends: the loop makes a bounded number of turns, at
most one after that in which the input was used up, and `main` returns. -/
structure StopsAtEnd (config : Config sys) (w : World sys) : Prop where
  finite : ∃ bound, ∀ n, (mainLoop config n w).1.length ≤ bound
  ends : ∀ n, ∀ start ∈ (mainLoop config n w).1, start.msgio.stdio.stdin = [] →
    ∀ m, (mainLoop config m start).1.length ≤ 2
  returns : MainReturns config w

/-! ## Sessions on the standard streams -/

theorem start_onStdio (io : Stdio) (ias : IasConnection sys) :
    (World.start (onStdio io) ias).OnStdio := rfl

/-- The transport does not leave the standard streams. -/
theorem MsgIo.Moves.useStdio {msgio next : MsgIo} {event : Event sys}
    (hmoves : msgio.Moves event next) (hstdio : msgio.useStdio = true) : next.useStdio = true := by
  cases event with
  | read before =>
      obtain ⟨_, rfl⟩ := hmoves
      rw [msgio.read_quiet.1, hstdio]
  | sendPartial before src =>
      obtain ⟨_, rfl⟩ := hmoves
      rw [MsgIo.sendPartial, if_pos hstdio]
      exact hstdio
  | send before src =>
      obtain ⟨_, rfl⟩ := hmoves
      rw [MsgIo.send, if_pos hstdio]
      exact hstdio
  | _ =>
      cases hmoves
      exact hstdio

theorem chain_useStdio {first last : MsgIo} {events : List (Event sys)}
    (hchain : Chain MsgIo.Moves first events last) (hfirst : first.useStdio = true) :
    last.useStdio = true := by
  induction hchain with
  | nil => exact hfirst
  | cons hstep _ ih => exact ih (hstep.useStdio hfirst)

theorem acceptClient_stdio {w : World sys} (hstdio : w.OnStdio) : acceptClient w = some w := by
  have huse : w.msgio.useStdio = true := hstdio
  unfold acceptClient MsgIo.serverLoop
  rw [if_pos huse]

theorem session_stdio {config : Config sys} {start last : World sys}
    (hstdio : start.OnStdio) (hsession : session config start = (some (), last)) :
    last.OnStdio := by
  obtain ⟨u, served, hserve, hdisconnect⟩ := bind_eq_some.mp hsession
  have hchain := chain_emitted (advances_serveClient config) start
  rw [hserve] at hchain
  have hserved : served.msgio.useStdio = true := chain_useStdio hchain hstdio
  cases hdisconnect
  exact served.msgio.disconnect_buffers.1.trans hserved

/-- On the standard streams there is always a client. -/
theorem not_mainReturns {config : Config sys} {w : World sys} (hstdio : w.OnStdio) :
    ¬ MainReturns config w := by
  apply not_returns ?_ ?_ hstdio
  · intro s hs
    exact ⟨s, acceptClient_stdio hs⟩
  · intro s start last hs haccept hsession
    rw [acceptClient_stdio hs] at haccept
    cases haccept
    exact session_stdio hs hsession

/-! ## After the end of the input -/

theorem readMsgLoop_atEnd (fuel : Nat) {io : Stdio} (hstdin : io.stdin = []) :
    ∃ rv : Int, (rv = -1 ∨ rv = 0) ∧ readMsgLoop (fuel + 1) io [] = (.inl rv, io) := by
  rw [readMsgLoop, List.length_nil]
  generalize room io.bufferSize 0 = n
  by_cases hone : n = 1
  · -- There is room for the NUL only, which `fgets` stores without reading.
    have hfgets : fgets n io.stdin = some ([], io.stdin) := by
      rw [hone, fgets, if_neg (by omega), if_pos rfl]
    refine ⟨0, .inr rfl, ?_⟩
    rw [hfgets]
    rfl
  · have hfgets : fgets n io.stdin = none := by
      rw [fgets, if_neg hone, if_pos hstdin, ite_self]
    rw [hfgets]
    cases hferror : io.ferror with
    | true => exact ⟨-1, .inl rfl, rfl⟩
    | false => exact ⟨0, .inr rfl, rfl⟩

/-- At the end of the input a call of `read_msg` fails, and stays there. -/
theorem readMsg_atEnd {io : Stdio} (hstdin : io.stdin = []) :
    ((readMsg io).1.rv = -1 ∨ (readMsg io).1.rv = 0) ∧ (readMsg io).2.stdin = [] := by
  have hfinish : ∀ io : Stdio, io.stdin = [] →
      ((finishMsg (readMsgLoop (2 * io.stdin.length + 2) io [])).1.rv = -1 ∨
        (finishMsg (readMsgLoop (2 * io.stdin.length + 2) io [])).1.rv = 0) ∧
      (finishMsg (readMsgLoop (2 * io.stdin.length + 2) io [])).2.stdin = [] := by
    intro io hstdin
    obtain ⟨rv, hrv, hrun⟩ := readMsgLoop_atEnd (2 * io.stdin.length + 1) hstdin
    rw [hrun]
    exact ⟨hrv, hstdin⟩
  unfold readMsg
  dsimp only
  split
  · exact ⟨.inl rfl, hstdin⟩
  next opened hopened =>
    apply hfinish
    split at hopened
    · cases hopened
      exact hstdin
    · split at hopened
      · cases hopened
      · cases hopened
        exact hstdin

/-- A session there returns, and leaves the input at its end. -/
theorem session_atEnd (config : Config sys) {w : World sys} (hend : w.AtEnd) :
    ∃ last, session config w = (some (), last) ∧ last.AtEnd := by
  obtain ⟨huse, hstdin⟩ : w.msgio.useStdio = true ∧ w.msgio.stdio.stdin = [] := hend
  obtain ⟨hrv, hrest⟩ := readMsg_atEnd hstdin
  have hread : w.msgio.read =
      ((readMsg w.msgio.stdio).1, { w.msgio with stdio := (readMsg w.msgio.stdio).2 }) := by
    rw [MsgIo.read, if_pos huse]
  have hprocess : processMsg01 config w = (some none, w.afterRead) := by
    have hfails : w.readRv = -1 ∨ w.readRv = 0 := by
      rw [World.readRv, hread]
      exact hrv
    unfold processMsg01
    rw [read_bind]
    dsimp only
    rcases hfails with hsystem | heof
    · rw [if_pos hsystem]
      rfl
    · rw [if_neg (by omega), if_pos heof]
      rfl
  have hserve : serveClient config w = (some (), w.afterRead) := by
    unfold serveClient
    rw [bind_of_some hprocess]
    rfl
  have hnext : w.afterRead.msgio = { w.msgio with stdio := (readMsg w.msgio.stdio).2 } := by
    rw [World.afterRead, hread]
  refine ⟨{ w.afterRead with msgio := w.afterRead.msgio.disconnect }, ?_, ?_, ?_⟩
  · unfold session
    rw [bind_of_some hserve]
    rfl
  · change w.afterRead.msgio.disconnect.useStdio = true
    rw [w.afterRead.msgio.disconnect_buffers.1, hnext]
    exact huse
  · change w.afterRead.msgio.disconnect.stdio.stdin = []
    rw [MsgIo.disconnect, hnext, if_pos huse]
    exact hrest

/-- So the sessions go on. -/
theorem length_mainLoop_atEnd (config : Config sys) (m : Nat) {w : World sys} (hend : w.AtEnd) :
    (mainLoop config m w).1.length = m := by
  apply length_rounds ?_ m hend
  intro s hs
  obtain ⟨last, hsession, hlast⟩ := session_atEnd config hs
  exact ⟨s, last, acceptClient_stdio hs.1, hsession, hlast⟩

/-- Every session of a server on the standard streams starts on them. -/
theorem mainLoop_stdio (config : Config sys) (n : Nat) {w : World sys} (hstdio : w.OnStdio) :
    ∀ start ∈ (mainLoop config n w).1, start.OnStdio := by
  have hserve : ∀ {start last next : World sys}, start.OnStdio → True →
      session config start = (some (), last) → acceptClient last = some next → next.OnStdio := by
    intro start last next hstart _ hsession hnext
    have hlast := session_stdio hstart hsession
    rw [acceptClient_stdio hlast] at hnext
    cases hnext
    exact hlast
  refine rounds_invariant hserve n ?_ fun _ _ => trivial
  intro start haccept
  rw [acceptClient_stdio hstdio] at haccept
  cases haccept
  exact hstdio

/-- Whatever its input and the replies of the attestation service, the server does not stop:
from the end of the input on there is one failed session after the other. -/
theorem stdioServer_endless (config : Config sys) (io : Stdio) (ias : IasConnection sys) :
    ¬ StopsAtEnd config (.start (onStdio io) ias) ∧
      ∀ n, ∀ start ∈ (mainLoop config n (.start (onStdio io) ias)).1,
        start.msgio.stdio.stdin = [] → ∀ m, (mainLoop config m start).1.length = m := by
  constructor
  · intro hstops
    exact not_mainReturns (start_onStdio io ias) hstops.returns
  · intro n start hmem hstdin m
    have hstdio := mainLoop_stdio config n (start_onStdio io ias) start hmem
    exact length_mainLoop_atEnd config m ⟨hstdio, hstdin⟩

/-- Nor does it with an empty input: a third session follows. -/
theorem empty_input_not_stopsAtEnd :
    ¬ StopsAtEnd (Config.plain (.working .zero fun _ => none) ())
      (.start (onStdio (.fresh [] [])) (.plain _)) := by
  intro hstops
  have hmem : World.start (onStdio (.fresh [] [])) (.plain _) ∈
      (mainLoop (Config.plain (.working .zero fun _ => none) ()) 1
        (.start (onStdio (.fresh [] [])) (.plain _))).1 := by
    rw [mainLoop, rounds_one (acceptClient_stdio (start_onStdio _ _))]
    exact List.mem_singleton_self _
  have hthree := hstops.ends 1 _ hmem rfl 3
  rw [length_mainLoop_atEnd _ _ ⟨start_onStdio _ _, rfl⟩] at hthree
  omega

end RemoteAttestation
