import Mathlib.Logic.Function.Basic
import RemoteAttestation.Protocol.EndToEnd
import RemoteAttestation.ServiceProvider.SendIsolation

/-! # Many clients

The server serves one client after the other over one transport object. Meanwhile the other
clients wait for it, or go on with what it has written to them, in any order. Each client agrees
with its own session of the server, as long as no session leaves bytes in the two buffers of the
object.
-/

namespace RemoteAttestation

open Proc

variable {sys : Sys}

/-- A client program, and the machine it runs on. -/
structure Party where
  platform : Platform
  verbose : Bool
  connection : Connection

namespace Network

/-! ## Steps without the server -/

/-- A turn of the client, or an arrival there. -/
structure ClientStep (config : Config sys) (party : Party) (n next : Network sys) : Prop where
  step : Step config party.platform party.verbose n next
  server : next.server = n.server
  serverPhase : next.serverPhase = n.serverPhase
  toServer : next.toServer = n.toServer

/-- The same client, with another server behind it. -/
def withServer (n : Network sys) (server : World sys) : Network sys := { n with server }

theorem serverPhase_serveMsg01 (config : Config sys) (n : Network sys) :
    (n.serveMsg01 config).serverPhase ≠ .awaitsMsg01 := by
  unfold serveMsg01
  split
  · exact fun hphase => nomatch hphase
  · exact fun hphase => nomatch hphase

theorem not_awaits_serveMsg3 (config : Config sys) (prepared : Prepared) (n : Network sys) :
    ¬ (n.serveMsg3 config prepared).serverPhase.Awaits := by
  unfold serveMsg3
  split
  · rintro (hawaits | ⟨_, hawaits⟩)
    · cases hawaits
    · cases hawaits
  · rintro (hawaits | ⟨_, hawaits⟩)
    · cases hawaits
    · cases hawaits

/-- What a client does before it is accepted, it also does in front of the server that will
accept it. -/
theorem ClientStep.withServer {config : Config sys} {party : Party} {n next : Network sys}
    (hstep : ClientStep config party n next) {server : World sys}
    (hwire : server.msgio.wire = n.server.msgio.wire) :
    Step config party.platform party.verbose (n.withServer server) (next.withServer server) := by
  obtain ⟨hstep, _, hphase, hlink⟩ := hstep
  cases hstep with
  | @arriveServer link harrives =>
      -- An arrival at the server would change its link.
      have hready := congrArg Link.ready (harrives.counted.symm.trans hlink)
      exact absurd hready (Nat.succ_ne_self _)
  | arriveClient harrives =>
      apply Step.arriveClient
      rw [Network.withServer, hwire]
      exact harrives
  | request hidle => exact .request hidle
  | receiveMsg2 hawaits hready => exact .receiveMsg2 hawaits hready
  | receiveMsg4 hawaits hready => exact .receiveMsg4 hawaits hready
  | serveMsg01 hawaits _ => exact absurd (hphase.trans hawaits) (serverPhase_serveMsg01 config n)
  | @serveMsg3 prepared hawaits _ =>
      have hstill : (n.serveMsg3 config prepared).serverPhase.Awaits :=
        .inr ⟨prepared, hphase.trans hawaits⟩
      exact absurd hstill (not_awaits_serveMsg3 config prepared n)

/-- A client that was not accepted yet. -/
def Waits (config : Config sys) (party : Party) (boot : World sys) : Network sys → Prop :=
  Relation.ReflTransGen (ClientStep config party) (opened party.connection boot)

theorem Waits.server {config : Config sys} {party : Party} {boot : World sys} {n : Network sys}
    (hwaits : Waits config party boot n) : n.server = boot := by
  induction hwaits with
  | refl => rfl
  | tail _ hstep ih => exact hstep.server.trans ih

/-- Accepting a client starts a session with all that it has done so far. -/
theorem Waits.accepted {config : Config sys} {party : Party} {boot start : World sys}
    {n : Network sys} (hwaits : Waits config party boot n)
    (hwire : start.msgio.wire = boot.msgio.wire) :
    Reachable config party.platform party.verbose party.connection start (n.withServer start) := by
  induction hwaits with
  | refl => exact .refl
  | @tail middle next hrest hstep ih =>
      apply ih.tail
      apply hstep.withServer
      rw [hwire, Waits.server hrest]

/-- A client that was not accepted has received nothing. -/
theorem Waits.log_eq_nil {config : Config sys} {party : Party} {boot : World sys} {n : Network sys}
    (hfresh : boot.Fresh) (hspeaks : party.platform.Speaks) (hwaits : Waits config party boot n) :
    n.serverPhase = .awaitsMsg01 ∧ n.client.log = [] := by
  induction hwaits with
  | refl => exact ⟨rfl, rfl⟩
  | @tail middle next hrest hstep ih =>
      obtain ⟨hphase, hlog⟩ := ih
      have hlater : next.serverPhase = .awaitsMsg01 := hstep.serverPhase.trans hphase
      have hagreement := (joined_of_reachable hfresh hspeaks
        (Waits.accepted (hrest.tail hstep) rfl)).agreement
      change Agreement _ _ _ next.serverPhase at hagreement
      rw [hlater] at hagreement
      obtain ⟨hmsg2, hmsg4⟩ := hagreement.not_received
      refine ⟨hlater, ?_⟩
      obtain ⟨hstep, _, _, _⟩ := hstep
      cases hstep with
      | arriveServer _ => exact hlog
      | arriveClient _ => exact hlog
      | request _ => exact Client.log_requestMsg2.trans hlog
      | receiveMsg2 _ _ =>
          change (Client.receiveMsg2 _ _ _).2.log = []
          change ∀ msg2, .receivedMsg2 msg2 ∉ (Client.receiveMsg2 _ _ _).2.log at hmsg2
          rw [Client.log_receiveMsg2, hlog, List.nil_append] at hmsg2 ⊢
          split
          next => rfl
          next hread =>
            rw [if_neg hread] at hmsg2
            exact absurd List.mem_cons_self (hmsg2 _)
      | receiveMsg4 _ _ =>
          change (Client.receiveMsg4 _ _).2.log = []
          change ∀ msg4, .receivedMsg4 msg4 ∉ (Client.receiveMsg4 _ _).2.log at hmsg4
          rw [Client.log_receiveMsg4, hlog, List.nil_append] at hmsg4 ⊢
          split
          next => rfl
          next hread =>
            rw [if_neg hread] at hmsg4
            exact absurd (Client.receivedMsg4_mem_msg4Log.mpr rfl) (hmsg4 _)
      | serveMsg01 hawaits _ => exact absurd hlater (serverPhase_serveMsg01 config middle)
      | @serveMsg3 prepared hawaits _ =>
          rw [hphase] at hawaits
          cases hawaits

/-- A session that has ended stays as it is. -/
theorem Step.of_ended {config : Config sys} {platform : Platform} {verbose : Bool}
    {n next : Network sys} (hstep : Step config platform verbose n next)
    (hended : ¬ n.serverPhase.Awaits) :
    next.server = n.server ∧ next.serverPhase = n.serverPhase := by
  cases hstep with
  | arriveServer _ => exact ⟨rfl, rfl⟩
  | arriveClient _ => exact ⟨rfl, rfl⟩
  | request _ => exact ⟨rfl, rfl⟩
  | receiveMsg2 _ _ => exact ⟨rfl, rfl⟩
  | receiveMsg4 _ _ => exact ⟨rfl, rfl⟩
  | serveMsg01 hawaits _ => exact absurd (.inl hawaits) hended
  | serveMsg3 hawaits _ => exact absurd (.inr ⟨_, hawaits⟩) hended

theorem Step.socket {config : Config sys} {platform : Platform} {verbose : Bool}
    {n next : Network sys} (hstep : Step config platform verbose n next)
    (hsocket : n.server.msgio.useStdio = false) : next.server.msgio.useStdio = false := by
  cases hstep with
  | arriveServer _ => exact hsocket
  | arriveClient _ => exact hsocket
  | request _ => exact hsocket
  | receiveMsg2 _ _ => exact hsocket
  | receiveMsg4 _ _ => exact hsocket
  | serveMsg01 _ _ =>
      have hprocessed := socket_of_advances (frame_advances.processMsg01 config) hsocket
      unfold Network.serveMsg01
      split
      next prepared made hprocess =>
        rw [hprocess] at hprocessed
        exact socket_of_advances (advances_sendMsg2 prepared) hprocessed
      next hprocess =>
        rw [hprocess] at hprocessed
        exact hprocessed
  | @serveMsg3 prepared _ _ =>
      have hprocessed := socket_of_advances
        (advances_processMsg3 config prepared.msg1 prepared.session) hsocket
      unfold Network.serveMsg3
      split
      next hprocess =>
        rw [hprocess] at hprocessed
        exact hprocessed
      next hprocess =>
        rw [hprocess] at hprocessed
        exact hprocessed

/-- A session that has ended did what its server does alone. -/
theorem Joined.serveClient_of_ended {config : Config sys} {platform : Platform} {verbose : Bool}
    {connection : Connection} {start : World sys} {n : Network sys}
    (hjoined : n.Joined config platform verbose connection start)
    (hended : ¬ n.serverPhase.Awaits) : (serveClient config start).2 = n.server := by
  have hstate := hjoined.serverState
  generalize n.serverPhase = phase at hstate hended
  cases hstate with
  | awaitsMsg01 _ _ => exact absurd (.inl rfl) hended
  | awaitsMsg3 _ _ _ _ _ => exact absurd (.inr ⟨_, rfl⟩) hended
  | judged hcalls hjudge =>
      have hrun := serveClient_of_callsMsg3 hcalls
      rw [hjudge] at hrun
      exact hrun
  | ended hrun => exact hrun

end Network

/-- A session starts afresh if nothing is left in the buffers. -/
theorem World.fresh_of_accepted {w start : World sys} (hsocket : w.msgio.useStdio = false)
    (hwbuffer : w.msgio.wbuffer = []) (hrbuffer : w.msgio.rbuffer = [])
    (haccept : acceptClient w = some start) : start.Fresh := by
  obtain ⟨hstdio, hqueued, hheld, hwire⟩ := acceptClient_socket hsocket haccept
  -- The wire of a new client is empty.
  refine ⟨hstdio, hheld.trans hrbuffer, ?_⟩
  rw [MsgIo.text, hwire, hqueued, hwbuffer]
  rfl

/-- After an exchange in which every call succeeded the server has nothing of this client left,
and the next one finds it as fresh as this one did. -/
theorem exchange_hands_on {config : Config sys} {platform : Platform} {verbose : Bool}
    {connection : Connection} {start called last : World sys} {requested answered : Client}
    {prepared : Prepared} {verdict : Msg4} {session : Session}
    (hexchange : Exchange config platform verbose connection start requested answered prepared
      called last verdict session) (hspeaks : platform.Speaks) :
    last.msgio.wbuffer = [] ∧ last.msgio.rbuffer = [] ∧
      ∀ next, acceptClient (disconnect last).2 = some next → next.Fresh := by
  obtain ⟨hwbuffer, hrbuffer⟩ := hexchange.server_left hspeaks
  refine ⟨hwbuffer, hrbuffer, fun next haccept => ?_⟩
  obtain ⟨hstdio, hqueued, hheld⟩ := last.msgio.disconnect_buffers
  have hserved : last.msgio.useStdio = false := by
    have hsocket := socket_of_advances (advances_serveClient config) hexchange.fresh.socket
    rw [serveClient_of_callsMsg3 hexchange.calls, hexchange.judge] at hsocket
    exact hsocket
  exact World.fresh_of_accepted (hstdio.trans hserved) (hqueued.trans hwbuffer)
    (hheld.trans hrbuffer) haccept

theorem exchange_hands_on_plain :
    ∃ (prepared : Prepared) (called last : World (.reporting .zero (reportText "OK"))),
      CallsMsg3 (.plain _ ()) (.serving _ [.plainMsg01, .plainMsg3]) prepared called ∧
        (serveClient (.plain _ ()) (.serving _ [.plainMsg01, .plainMsg3])).2 = last ∧
        last.msgio.wbuffer = [] ∧ last.msgio.rbuffer = [] := by
  obtain ⟨connection, requested, answered, prepared, called, last, verdict, session, hexchange⟩ :=
    exchange_plain
  obtain ⟨hwbuffer, hrbuffer, _⟩ := exchange_hands_on hexchange Platform.plain_speaks
  have hrun := serveClient_of_callsMsg3 hexchange.calls
  rw [hexchange.judge] at hrun
  exact ⟨prepared, called, last, hexchange.calls, hrun, hwbuffer, hrbuffer⟩

/-! ## The service -/

/-- The clients by their numbers, in the order in which they are accepted, and for each that was
accepted the world in which its session started. -/
structure Service (sys : Sys) where
  network : Nat → Network sys
  start : Nat → World sys
  accepted : Nat

namespace Service

variable {config : Config sys} {parties : Nat → Party} {boot : World sys}

def opened (parties : Nat → Party) (boot : World sys) : Service sys :=
  { network := fun i => .opened (parties i).connection boot
    start := fun _ => boot
    accepted := 0 }

/-- The server at the head of its loop: when it enters it, and after a session that returned. -/
inductive AtHead (config : Config sys) (boot : World sys) (s : Service sys) : World sys → Prop
  | first (haccepted : s.accepted = 0) : AtHead config boot s boot
  | next {k : Nat} (haccepted : s.accepted = k + 1)
      (hended : ¬ (s.network k).serverPhase.Awaits)
      (hreturned : (serveClient config (s.start k)).1 = some ()) :
      AtHead config boot s (disconnect (s.network k).server).2

inductive Step (config : Config sys) (parties : Nat → Party) (boot : World sys) :
    Service sys → Service sys → Prop
  | waits {s : Service sys} {i : Nat} {n : Network sys} (hwaits : s.accepted ≤ i)
      (hstep : Network.ClientStep config (parties i) (s.network i) n) :
      Step config parties boot s { s with network := Function.update s.network i n }
  | serves {s : Service sys} {i : Nat} {n : Network sys} (hserved : i < s.accepted)
      (hstep : Network.Step config (parties i).platform (parties i).verbose (s.network i) n) :
      Step config parties boot s { s with network := Function.update s.network i n }
  | accepts {s : Service sys} {w start : World sys} (hhead : AtHead config boot s w)
      (haccept : acceptClient w = some start) :
      Step config parties boot s
        { network := Function.update s.network s.accepted
            ((s.network s.accepted).withServer start)
          start := Function.update s.start s.accepted start
          accepted := s.accepted + 1 }

/-- The states of the service, from the time the server enters its loop. -/
def Reachable (config : Config sys) (parties : Nat → Party) (boot : World sys) :
    Service sys → Prop :=
  Relation.ReflTransGen (Step config parties boot) (opened parties boot)

/-- The sessions that are over have left both buffers of the transport object empty. -/
def Clear (s : Service sys) : Prop :=
  ∀ k, k + 1 < s.accepted →
    (s.network k).server.msgio.wbuffer = [] ∧ (s.network k).server.msgio.rbuffer = []

/-! ## The invariant -/

/-- Each client is in a state of its own session, and each session starts with what the last one
left in the buffers. -/
structure Inv (config : Config sys) (parties : Nat → Party) (boot : World sys) (s : Service sys) :
    Prop where
  waits : ∀ i, s.accepted ≤ i → Network.Waits config (parties i) boot (s.network i)
  unstarted : ∀ i, s.accepted ≤ i → s.start i = boot
  serves : ∀ i < s.accepted, Network.Reachable config (parties i).platform (parties i).verbose
    (parties i).connection (s.start i) (s.network i)
  socket : ∀ i < s.accepted, (s.network i).server.msgio.useStdio = false
  ended : ∀ k, k + 1 < s.accepted → ¬ (s.network k).serverPhase.Awaits
  returned : ∀ k, k + 1 < s.accepted → (serveClient config (s.start k)).1 = some ()
  first : 0 < s.accepted → acceptClient boot = some (s.start 0)
  next : ∀ k, k + 1 < s.accepted →
    acceptClient (disconnect (s.network k).server).2 = some (s.start (k + 1))

theorem inv_opened : (opened parties boot).Inv config parties boot where
  waits _ _ := .refl
  unstarted _ _ := rfl
  serves _ hlt := absurd hlt (Nat.not_lt_zero _)
  socket _ hlt := absurd hlt (Nat.not_lt_zero _)
  ended _ hlt := absurd hlt (Nat.not_lt_zero _)
  returned _ hlt := absurd hlt (Nat.not_lt_zero _)
  first hlt := absurd hlt (Nat.not_lt_zero _)
  next _ hlt := absurd hlt (Nat.not_lt_zero _)

section

variable {s : Service sys}

theorem Inv.waitsStep (hinv : s.Inv config parties boot) {i : Nat} {n : Network sys}
    (hwaits : s.accepted ≤ i) (hstep : Network.ClientStep config (parties i) (s.network i) n) :
    Inv config parties boot { s with network := Function.update s.network i n } where
  waits j hj := by
    dsimp only at hj ⊢
    by_cases hji : j = i
    · subst hji
      rw [Function.update_self]
      exact (hinv.waits j hj).tail hstep
    · rw [Function.update_of_ne hji]
      exact hinv.waits j hj
  unstarted := hinv.unstarted
  serves j hj := by
    dsimp only at hj ⊢
    rw [Function.update_of_ne (Nat.ne_of_lt (Nat.lt_of_lt_of_le hj hwaits))]
    exact hinv.serves j hj
  socket j hj := by
    dsimp only at hj ⊢
    rw [Function.update_of_ne (Nat.ne_of_lt (Nat.lt_of_lt_of_le hj hwaits))]
    exact hinv.socket j hj
  ended k hk := by
    dsimp only at hk ⊢
    rw [Function.update_of_ne (Nat.ne_of_lt (Nat.lt_of_succ_lt (Nat.lt_of_lt_of_le hk hwaits)))]
    exact hinv.ended k hk
  returned := hinv.returned
  first := hinv.first
  next k hk := by
    dsimp only at hk ⊢
    rw [Function.update_of_ne (Nat.ne_of_lt (Nat.lt_of_succ_lt (Nat.lt_of_lt_of_le hk hwaits)))]
    exact hinv.next k hk

theorem Inv.servesStep (hinv : s.Inv config parties boot) {i : Nat} {n : Network sys}
    (hserved : i < s.accepted)
    (hstep : Network.Step config (parties i).platform (parties i).verbose (s.network i) n) :
    Inv config parties boot { s with network := Function.update s.network i n } where
  waits j hj := by
    dsimp only at hj ⊢
    rw [Function.update_of_ne (Nat.ne_of_gt (Nat.lt_of_lt_of_le hserved hj))]
    exact hinv.waits j hj
  unstarted := hinv.unstarted
  serves j hj := by
    dsimp only at hj ⊢
    by_cases hji : j = i
    · subst hji
      rw [Function.update_self]
      exact (hinv.serves j hj).tail hstep
    · rw [Function.update_of_ne hji]
      exact hinv.serves j hj
  socket j hj := by
    dsimp only at hj ⊢
    by_cases hji : j = i
    · subst hji
      rw [Function.update_self]
      exact hstep.socket (hinv.socket j hj)
    · rw [Function.update_of_ne hji]
      exact hinv.socket j hj
  ended k hk := by
    dsimp only at hk ⊢
    by_cases hki : k = i
    · subst hki
      -- The session is over, so the step is one of its client.
      rw [Function.update_self, (hstep.of_ended (hinv.ended k hk)).2]
      exact hinv.ended k hk
    · rw [Function.update_of_ne hki]
      exact hinv.ended k hk
  returned := hinv.returned
  first := hinv.first
  next k hk := by
    dsimp only at hk ⊢
    by_cases hki : k = i
    · subst hki
      rw [Function.update_self, (hstep.of_ended (hinv.ended k hk)).1]
      exact hinv.next k hk
    · rw [Function.update_of_ne hki]
      exact hinv.next k hk

theorem Inv.acceptsStep (hinv : s.Inv config parties boot) {w start : World sys}
    (hwire : start.msgio.wire = boot.msgio.wire) (hsocket : start.msgio.useStdio = false)
    (hhead : s.AtHead config boot w)
    (haccept : acceptClient w = some start) :
    Inv config parties boot
      { network := Function.update s.network s.accepted
          ((s.network s.accepted).withServer start)
        start := Function.update s.start s.accepted start
        accepted := s.accepted + 1 } where
  waits j hj := by
    dsimp only at hj ⊢
    rw [Function.update_of_ne (Nat.ne_of_gt hj)]
    exact hinv.waits j (Nat.le_of_succ_le hj)
  unstarted j hj := by
    dsimp only at hj ⊢
    rw [Function.update_of_ne (Nat.ne_of_gt hj)]
    exact hinv.unstarted j (Nat.le_of_succ_le hj)
  serves j hj := by
    dsimp only at hj ⊢
    by_cases hlast : j = s.accepted
    · subst hlast
      rw [Function.update_self, Function.update_self]
      exact (hinv.waits _ (Nat.le_refl _)).accepted hwire
    · rw [Function.update_of_ne hlast, Function.update_of_ne hlast]
      exact hinv.serves j (Nat.lt_of_le_of_ne (Nat.le_of_lt_succ hj) hlast)
  socket j hj := by
    dsimp only at hj ⊢
    by_cases hlast : j = s.accepted
    · subst hlast
      rw [Function.update_self]
      exact hsocket
    · rw [Function.update_of_ne hlast]
      exact hinv.socket j (Nat.lt_of_le_of_ne (Nat.le_of_lt_succ hj) hlast)
  ended k hk := by
    dsimp only at hk ⊢
    have hbefore : k < s.accepted := Nat.lt_of_succ_lt_succ hk
    rw [Function.update_of_ne (Nat.ne_of_lt hbefore)]
    cases hhead with
    | first hnone => exact absurd hbefore (by rw [hnone]; exact Nat.not_lt_zero _)
    | @next last haccepted hended _ =>
        rw [haccepted] at hbefore
        rcases Nat.lt_succ_iff_lt_or_eq.mp hbefore with hearlier | rfl
        · exact hinv.ended k (by rw [haccepted]; exact Nat.succ_lt_succ hearlier)
        · exact hended
  returned k hk := by
    have hbefore : k < s.accepted := Nat.lt_of_succ_lt_succ hk
    dsimp only
    rw [Function.update_of_ne (Nat.ne_of_lt hbefore)]
    cases hhead with
    | first hnone => exact absurd hbefore (by rw [hnone]; exact Nat.not_lt_zero _)
    | @next last haccepted _ hreturned =>
        rw [haccepted] at hbefore
        rcases Nat.lt_succ_iff_lt_or_eq.mp hbefore with hearlier | rfl
        · exact hinv.returned k (by rw [haccepted]; exact Nat.succ_lt_succ hearlier)
        · exact hreturned
  first _ := by
    dsimp only
    cases hhead with
    | first hnone =>
        rw [hnone, Function.update_self]
        exact haccept
    | next haccepted _ _ =>
        have hsome : 0 < s.accepted := by
          rw [haccepted]
          exact Nat.succ_pos _
        rw [Function.update_of_ne (Nat.ne_of_lt hsome)]
        exact hinv.first hsome
  next k hk := by
    dsimp only at hk ⊢
    have hbefore : k < s.accepted := Nat.lt_of_succ_lt_succ hk
    rw [Function.update_of_ne (Nat.ne_of_lt hbefore)]
    by_cases hlast : k + 1 = s.accepted
    · -- The session before the one that starts.
      rw [hlast, Function.update_self]
      cases hhead with
      | first hnone => exact absurd hbefore (by rw [hnone]; exact Nat.not_lt_zero _)
      | next haccepted _ _ =>
          obtain rfl := Nat.succ.inj (haccepted.symm.trans hlast.symm)
          exact haccept
    · rw [Function.update_of_ne hlast]
      exact hinv.next k (Nat.lt_of_le_of_ne hbefore hlast)

/-- The server is at the head of its loop on its socket. -/
theorem Inv.socket_atHead (hinv : s.Inv config parties boot) (hfresh : boot.Fresh)
    {w : World sys} (hhead : s.AtHead config boot w) : w.msgio.useStdio = false := by
  cases hhead with
  | first _ => exact hfresh.socket
  | @next k haccepted _ _ =>
      have hserved := hinv.socket k (by rw [haccepted]; exact Nat.lt_succ_self k)
      exact (s.network k).server.msgio.disconnect_buffers.1.trans hserved

theorem Inv.step (hinv : s.Inv config parties boot) (hfresh : boot.Fresh) {next : Service sys}
    (hstep : Step config parties boot s next) : next.Inv config parties boot := by
  cases hstep with
  | waits hwaits hstep => exact hinv.waitsStep hwaits hstep
  | serves hserved hstep => exact hinv.servesStep hserved hstep
  | accepts hhead haccept =>
      obtain ⟨hsocket, _, _, hwire⟩ := acceptClient_socket (hinv.socket_atHead hfresh hhead) haccept
      have hblank := List.append_eq_nil_iff.mp hfresh.text
      exact hinv.acceptsStep (hwire.trans hblank.1.symm) hsocket hhead haccept

theorem inv_of_reachable (hfresh : boot.Fresh) (hreachable : Reachable config parties boot s) :
    s.Inv config parties boot := by
  induction hreachable with
  | refl => exact inv_opened
  | tail _ hstep ih => exact ih.step hfresh hstep

/-! ## The loop of the server -/

/-- Each session starts afresh as long as the ones before it leave nothing. -/
theorem Inv.start_fresh (hinv : s.Inv config parties boot) (hfresh : boot.Fresh)
    (hclear : s.Clear) (i : Nat) (hserved : i < s.accepted) : (s.start i).Fresh := by
  cases i with
  | zero =>
      have hblank := List.append_eq_nil_iff.mp hfresh.text
      exact World.fresh_of_accepted hfresh.socket hblank.2 hfresh.rbuffer (hinv.first hserved)
  | succ k =>
      obtain ⟨hwbuffer, hrbuffer⟩ := hclear k hserved
      obtain ⟨hstdio, hqueued, hheld⟩ := (s.network k).server.msgio.disconnect_buffers
      exact World.fresh_of_accepted
        (hstdio.trans (hinv.socket k (Nat.lt_of_succ_lt hserved))) (hqueued.trans hwbuffer)
        (hheld.trans hrbuffer) (hinv.next k hserved)

/-- The sessions that were accepted are those of the loop of `main`. -/
theorem starts_of_mainLoop (hfresh : boot.Fresh) (hspeaks : ∀ i, (parties i).platform.Speaks)
    (hreachable : Reachable config parties boot s) (hclear : s.Clear) :
    (mainLoop config s.accepted boot).1 = (List.range s.accepted).map s.start := by
  have hinv := inv_of_reachable hfresh hreachable
  apply rounds_of_path s.start (fun k => (disconnect (s.network k).server).2) hinv.first
  · intro k hlt
    have hserved := Nat.lt_of_succ_lt hlt
    have hjoined := Network.joined_of_reachable (hinv.start_fresh hfresh hclear k hserved)
      (hspeaks k) (hinv.serves k hserved)
    have hrun : serveClient config (s.start k) = (some (), (s.network k).server) :=
      Prod.ext (hinv.returned k hlt) (hjoined.serveClient_of_ended (hinv.ended k hlt))
    exact bind_of_some hrun fun _ => disconnect
  · exact hinv.next

/-- Two clients that go away without a word. -/
def silentParty : Party := ⟨.plain, false, .sending []⟩

def silentServer (sys : Sys) : World sys :=
  .start (.listen [.sending [], .sending []]) (.plain sys)

/-- The server accepts the second one when it has noticed that the first one is gone. -/
theorem exists_silent :
    ∃ s : Service (.reporting .zero (reportText "OK")),
      Reachable (.plain _ ()) (fun _ => silentParty) (silentServer _) s ∧
        s.accepted = 2 ∧ s.Clear := by
  have hfirst : Reachable (.plain _ ()) (fun _ => silentParty)
      (silentServer (.reporting .zero (reportText "OK"))) _ :=
    Relation.ReflTransGen.refl.tail (.accepts (.first rfl) rfl)
  have hserved := hfirst.tail (.serves (i := 0) Nat.zero_lt_one (.serveMsg01 rfl (Nat.zero_le _)))
  have hsecond := hserved.tail (.accepts (.next (k := 0) rfl (by
    rintro (hawaits | ⟨_, hawaits⟩)
    · cases hawaits
    · cases hawaits) rfl) rfl)
  refine ⟨_, hsecond, rfl, ?_⟩
  intro k hlt
  obtain rfl : k = 0 := Nat.lt_one_iff.mp (Nat.lt_of_succ_lt_succ hlt)
  exact ⟨rfl, rfl⟩

theorem starts_of_mainLoop_silent :
    ∃ s : Service (.reporting .zero (reportText "OK")), s.accepted = 2 ∧
      (mainLoop (.plain _ ()) 2 (silentServer _)).1 = (List.range 2).map s.start := by
  obtain ⟨s, hreachable, haccepted, hclear⟩ := exists_silent
  have hstarts := starts_of_mainLoop ⟨rfl, rfl, rfl⟩ (fun _ => Platform.plain_speaks) hreachable hclear
  rw [haccepted] at hstarts
  exact ⟨s, haccepted, hstarts⟩

/-! ## Agreement -/

/-- Among the others, a client and its session are in a state that they could also be in
alone, as long as the sessions before it leave nothing in the buffers. -/
theorem joined_of_reachable (hfresh : boot.Fresh) (hspeaks : ∀ i, (parties i).platform.Speaks)
    (hreachable : Reachable config parties boot s) (hclear : s.Clear) (i : Nat) :
    ∃ n : Network sys, n.client = (s.network i).client ∧
      n.serverPhase = (s.network i).serverPhase ∧
      n.Joined config (parties i).platform (parties i).verbose (parties i).connection
        (s.start i) := by
  have hinv := inv_of_reachable hfresh hreachable
  rcases Nat.lt_or_ge i s.accepted with hserved | hwaits
  · have hstart := hinv.start_fresh hfresh hclear i hserved
    exact ⟨s.network i, rfl, rfl,
      Network.joined_of_reachable hstart (hspeaks i) (hinv.serves i hserved)⟩
  · rw [hinv.unstarted i hwaits]
    have hclient := (hinv.waits i hwaits).accepted rfl
    exact ⟨(s.network i).withServer boot, rfl, rfl,
      Network.joined_of_reachable hfresh (hspeaks i) hclient⟩

/-- A session that was accepted can go on as it would alone. -/
theorem Reachable.session (hreachable : Reachable config parties boot s) {i : Nat}
    (hserved : i < s.accepted) {n : Network sys}
    (hrun : Relation.ReflTransGen
      (Network.Step config (parties i).platform (parties i).verbose) (s.network i) n) :
    Reachable config parties boot { s with network := Function.update s.network i n } := by
  induction hrun with
  | refl =>
      rw [Function.update_eq_self]
      exact hreachable
  | @tail middle next _ hstep ih =>
      have hnext : Network.Step config (parties i).platform (parties i).verbose
          (Function.update s.network i middle i) next := by
        rw [Function.update_self]
        exact hstep
      have hserves := ih.tail (.serves hserved hnext)
      rw [Function.update_idem] at hserves
      exact hserves

end

/-- One client goes through the whole exchange while the others wait. -/
theorem exists_exchanged :
    ∃ (party : Party) (s : Service (.reporting .zero (reportText "OK"))) (msg4 : Memory),
      Reachable (.plain _ ()) (fun _ => party) (.server _ [.plainMsg01, .plainMsg3]) s ∧
        party.platform = .plain ∧ s.accepted = 1 ∧ s.Clear ∧
        .receivedMsg4 msg4 ∈ (s.network 0).client.log := by
  obtain ⟨connection, requested, answered, prepared, called, last, verdict, session, hexchange⟩ :=
    exchange_plain
  obtain ⟨n, hrun, _, _, msg4, hmem, _⟩ := hexchange.reaches_end Platform.plain_speaks
  have haccepted : Reachable (.plain _ ()) (fun _ => ⟨.plain, false, connection⟩)
      (.server (.reporting .zero (reportText "OK")) [.plainMsg01, .plainMsg3]) _ :=
    Relation.ReflTransGen.refl.tail (.accepts (.first rfl) rfl)
  refine ⟨_, _, msg4, haccepted.session (i := 0) Nat.zero_lt_one hrun, rfl, rfl, ?_, hmem⟩
  exact fun k hlt => absurd (Nat.lt_of_succ_lt_succ hlt) (Nat.not_lt_zero k)

section

variable {s : Service sys}

/-- Whatever other clients do, a client is only told that it is trusted if its own message 3
authorises its enclave. -/
theorem clients_authorised {digests : Digests} (hcomputes : sys.Computes digests)
    (hfresh : boot.Fresh) (hsized : ∀ i, (parties i).platform.WellSized)
    (hreachable : Reachable config parties boot s) (hclear : s.Clear) {i : Nat} {msg4 : Memory}
    (hmem : .receivedMsg4 msg4 ∈ (s.network i).client.log) :
    ∃ prepared called verdict session,
      (s.network i).serverPhase = .judged prepared called (some (verdict, session)) ∧
        (s.start i).readDest.block = (parties i).platform.msg01 ∧
        called.readDest.block = (parties i).platform.msg3 prepared.text ∧
        Authorised digests config (s.start i) prepared.session called ∧
        msg4.block = verdict.bytes ∧ verdict.ciphertext =
          sys.aesEncrypt (digests.cmac prepared.session.kdk (keyLabel "SK")) plaintext := by
  obtain ⟨n, hclient, hphase, hjoined⟩ :=
    joined_of_reachable hfresh (fun i => (hsized i).speaks) hreachable hclear i
  rw [← hclient] at hmem
  rw [← hphase]
  exact hjoined.authorised hcomputes (hsized i) hmem

end

/-- The first of the clients is authorised while the others wait. -/
theorem clients_authorised_plain :
    ∃ (party : Party) (s : Service (.reporting .zero (reportText "OK"))) (prepared : Prepared)
      (called : World (.reporting .zero (reportText "OK"))),
      Reachable (.plain _ ()) (fun _ => party) (.server _ [.plainMsg01, .plainMsg3]) s ∧
        (s.network 0).serverPhase.prepared = some prepared ∧
        Authorised .zero (.plain _ ()) (s.start 0) prepared.session called := by
  obtain ⟨party, s, msg4, hreachable, hplatform, _, hclear, hmem⟩ := exists_exchanged
  have hsized : party.platform.WellSized := hplatform ▸ Platform.plain_wellSized
  obtain ⟨prepared, called, _, _, hphase, _, _, hauthorised, _⟩ :=
    clients_authorised (i := 0) (Sys.working_computes _ _) ⟨rfl, rfl, rfl⟩ (fun _ => hsized)
      hreachable hclear hmem
  exact ⟨party, s, prepared, called, hreachable, by rw [hphase]; rfl, hauthorised⟩

end Service

end RemoteAttestation
