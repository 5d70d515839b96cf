import RemoteAttestation.Protocol.Agreement

/-! # The parties never wait for each other

Each party reads only after it has sent the line that the other one waits for. So when
everything that was sent has arrived, one of two parties that have not finished can take
its turn.
-/

namespace RemoteAttestation

variable {sys : Sys}

/-- All that was sent has arrived: nothing is left in a buffer of the sender or on a link. -/
structure Network.Settled (n : Network sys) : Prop where
  toServer : n.toServer.delivered Recv.bytes n.server.msgio.client.incoming = n.client.msgio.text
  toClient : n.toClient.delivered Recv.bytes n.client.msgio.client.incoming = n.server.msgio.text

/-! ## The turns that are left -/

def ClientPhase.turnsLeft : ClientPhase → Nat
  | .idle => 3
  | .awaitsMsg2 => 2
  | .awaitsMsg4 => 1
  | .ended => 0

def ServerPhase.turnsLeft : ServerPhase sys → Nat
  | .awaitsMsg01 => 2
  | .awaitsMsg3 _ => 1
  | .judged _ _ _ => 0
  | .ended _ => 0

def Network.turnsLeft (n : Network sys) : Nat := n.clientPhase.turnsLeft + n.serverPhase.turnsLeft

section

variable {config : Config sys} {platform : Platform} {verbose : Bool} {connection : Connection}
  {start : World sys} {n : Network sys}

theorem Network.turnsLeft_request (hphase : n.clientPhase = .idle) :
    (n.request platform).turnsLeft < n.turnsLeft := by
  have hserver : (n.request platform).serverPhase = n.serverPhase := rfl
  unfold Network.turnsLeft
  rw [hserver, hphase]
  apply Nat.add_lt_add_right
  unfold Network.request
  dsimp only
  split
  · exact Nat.lt_succ_self 2
  · exact Nat.succ_pos 2

theorem Network.turnsLeft_receiveMsg2 (hphase : n.clientPhase = .awaitsMsg2) :
    (n.receiveMsg2 platform verbose).turnsLeft < n.turnsLeft := by
  have hserver : (n.receiveMsg2 platform verbose).serverPhase = n.serverPhase := rfl
  unfold Network.turnsLeft
  rw [hserver, hphase]
  apply Nat.add_lt_add_right
  unfold Network.receiveMsg2
  dsimp only
  split
  · exact Nat.lt_succ_self 1
  · exact Nat.succ_pos 1

theorem Network.turnsLeft_serveMsg01 (hphase : n.serverPhase = .awaitsMsg01) :
    (n.serveMsg01 config).turnsLeft < n.turnsLeft := by
  unfold Network.turnsLeft Network.serveMsg01
  rw [hphase]
  split
  · exact Nat.add_lt_add_left (Nat.lt_succ_self 1) _
  · exact Nat.add_lt_add_left (Nat.succ_pos 1) _

theorem Network.turnsLeft_serveMsg3 {prepared : Prepared}
    (hphase : n.serverPhase = .awaitsMsg3 prepared) :
    (n.serveMsg3 config prepared).turnsLeft < n.turnsLeft := by
  unfold Network.turnsLeft Network.serveMsg3
  rw [hphase]
  split
  · exact Nat.add_lt_add_left Nat.zero_lt_one _
  · exact Nat.add_lt_add_left Nat.zero_lt_one _

/-- Two parties that have not finished can go on when all that was sent has arrived. -/
theorem Network.never_both_wait (hfresh : start.Fresh) (hspeaks : platform.Speaks)
    (hreachable : Network.Reachable config platform verbose connection start n)
    (hsettled : n.Settled) (hclient : n.clientPhase ≠ .ended) (hserver : n.serverPhase.Awaits) :
    ∃ next, Network.Step config platform verbose n next ∧ next.turnsLeft < n.turnsLeft := by
  have hjoined := Network.joined_of_reachable hfresh hspeaks hreachable
  have hclientState := hjoined.clientState
  have hserverState := hjoined.serverState
  have htoServer := hsettled.toServer
  have htoClient := hsettled.toClient
  cases hphase : n.clientPhase with
  | idle => exact ⟨_, .request hphase, Network.turnsLeft_request hphase⟩
  | awaitsMsg2 =>
      rw [hphase] at hclientState
      cases hclientState with
      | awaitsMsg2 hrequest htaken =>
          have hrequested := Client.requested_of_start hrequest
          rw [hrequested.text] at htoServer
          rcases hserver with hserver | ⟨prepared, hserver⟩
          · -- The messages 0 and 1 are there.
            rw [hserver] at hserverState
            cases hserverState with
            | awaitsMsg01 hstart hfront =>
                rw [← List.nil_append (messageLine platform.msg01)] at htoServer
                refine ⟨_, .serveMsg01 hserver ?_, Network.turnsLeft_serveMsg01 hserver⟩
                exact MsgIo.usedCount_le_ready (hstart ▸ hfresh.socket) (hstart ▸ hfresh.rbuffer)
                  hfront htoServer
          · -- Message 2 is there.
            rw [hserver] at hserverState
            cases hserverState with
            | awaitsMsg3 hcalls htext hfront hsocket hempty =>
                rw [htext, ← List.nil_append (messageLine prepared.text)] at htoClient
                refine ⟨_, .receiveMsg2 hphase ?_, Network.turnsLeft_receiveMsg2 hphase⟩
                exact MsgIo.usedCount_le_ready hrequested.socket hrequested.rbuffer htaken htoClient
  | awaitsMsg4 =>
      rw [hphase] at hclientState
      cases hclientState with
      | awaitsMsg4 hrequest hanswer hmade htaken htext hsocket hempty =>
          rw [htext] at htoServer
          rcases hserver with hserver | ⟨prepared, hserver⟩
          · rw [hserver] at hmade
            cases hmade
          · -- Message 3 is there.
            rw [hserver] at hserverState
            cases hserverState with
            | awaitsMsg3 hcalls htext' hfront hsocket' hempty' =>
                refine ⟨_, .serveMsg3 hserver ?_, Network.turnsLeft_serveMsg3 hserver⟩
                exact MsgIo.usedCount_le_ready hsocket' hempty' hfront htoServer
  | ended => exact absurd hphase hclient

end

/-- A client that waits for message 2, and the server to which its messages 0 and 1 have come. -/
theorem Network.never_both_wait_msg2 :
    ∃ n : Network (.reporting .zero (reportText "OK")),
      Network.Reachable (.plain _ ()) .plain false (.sending []) (.serving _ [.plainMsg01]) n ∧
        n.clientPhase = .awaitsMsg2 ∧ n.serverPhase = .awaitsMsg01 ∧ n.Settled ∧
        ∃ next, Network.Step (.plain _ ()) .plain false n next ∧ next.turnsLeft < n.turnsLeft := by
  obtain ⟨n, hn⟩ : ∃ n : Network (.reporting .zero (reportText "OK")), n =
      { Network.opened (.sending []) (.serving _ [.plainMsg01]) with
        client := .requestedPlain (.sending [])
        clientPhase := .awaitsMsg2
        toServer := ⟨[], 1⟩ } := ⟨_, rfl⟩
  have hrequested := Client.requested_of_start (Client.request_plain (.sending []))
  have htext : (Client.requestedPlain (.sending [])).msgio.text = messageLine plainMsg01 := by
    rw [hrequested.text, Platform.plain_msg01]
  have hwire : (Client.requestedPlain (.sending [])).msgio.wire = messageLine plainMsg01 := by
    rw [← htext, MsgIo.text, Client.requestedPlain_wbuffer rfl, List.append_nil]
  have hdelivered : Link.delivered Recv.bytes [.plainMsg01] ⟨[], 1⟩ = messageLine plainMsg01 := by
    rw [Link.delivered, List.take_of_length_le (by decide), List.flatMap_singleton]
    rfl
  have hreachable : Network.Reachable (.plain _ ()) .plain false (.sending [])
      (.serving _ [.plainMsg01]) n := by
    refine .tail (.single (.request rfl)) ?_
    rw [hn]
    refine .arriveServer ⟨rfl, by decide, ?_⟩
    change Link.delivered Recv.bytes [.plainMsg01] ⟨[], 1⟩ <+:
      (Client.requestedPlain (.sending [])).msgio.wire
    rw [hdelivered, hwire]
  have hsettled : n.Settled := by
    rw [hn]
    exact ⟨hdelivered.trans htext.symm, rfl⟩
  have hphases : n.clientPhase = .awaitsMsg2 ∧ n.serverPhase = .awaitsMsg01 := by
    rw [hn]
    exact ⟨rfl, rfl⟩
  refine ⟨n, hreachable, hphases.1, hphases.2, hsettled, ?_⟩
  refine Network.never_both_wait ⟨rfl, rfl, rfl⟩ Platform.plain_speaks hreachable hsettled ?_
    (.inl hphases.2)
  rw [hphases.1]
  exact ClientPhase.noConfusion

end RemoteAttestation
