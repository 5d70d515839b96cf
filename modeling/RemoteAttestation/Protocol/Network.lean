import Mathlib.Logic.Relation
import RemoteAttestation.Protocol.Turns

/-! # A client and a server on one connection

`do_attestation` and a session of the server, joined by a link in each direction. The steps of
the system are the turns of the parties and the arrivals of bytes, in any order: what a party
writes arrives in pieces of any size, late or never, and a `recv` may be interrupted, fail or
report the end of the connection at any time. A party takes its turn when the results that its
`read` will use are there.
-/

namespace RemoteAttestation

open Proc

variable {sys : Sys}

/-- Where the client is in `do_attestation`. -/
inductive ClientPhase where
  | idle
  | awaitsMsg2
  | awaitsMsg4
  | ended
deriving DecidableEq

/-- Where the server is in its session. -/
inductive ServerPhase (sys : Sys) where
  | awaitsMsg01
  | awaitsMsg3 (prepared : Prepared)
  /-- `process_msg3` was called in this world and returned. -/
  | judged (prepared : Prepared) (called : World sys) (result : Option (Msg4 × Session))
  | ended (prepared : Option Prepared)

/-- What `process_msg01` has prepared. -/
def ServerPhase.prepared : ServerPhase sys → Option Prepared
  | .awaitsMsg01 => none
  | .awaitsMsg3 prepared => some prepared
  | .judged prepared _ _ => some prepared
  | .ended prepared => prepared

structure Network (sys : Sys) where
  client : Client
  clientPhase : ClientPhase
  server : World sys
  serverPhase : ServerPhase sys
  /-- The link on which the server reads. -/
  toServer : Link UInt8
  /-- The link on which the client reads. -/
  toClient : Link UInt8

namespace Network

/-- A client that has just connected, and the server that has accepted it. -/
def opened (connection : Connection) (server : World sys) : Network sys :=
  { client := .start (.connected connection)
    clientPhase := .idle
    server
    serverPhase := .awaitsMsg01
    toServer := .opened
    toClient := .opened }

/-- The link of the client after its next `read`. -/
def clientUse (n : Network sys) : Link UInt8 := n.client.msgio.useLink n.toClient

/-- The link of the server after its next `read`. -/
def serverUse (n : Network sys) : Link UInt8 := n.server.msgio.useLink n.toServer

/-! ## Turns -/

def request (platform : Platform) (n : Network sys) : Network sys :=
  let (goes, client) := Client.requestMsg2 platform n.client
  { n with client, clientPhase := if goes = some true then .awaitsMsg2 else .ended }

def receiveMsg2 (platform : Platform) (verbose : Bool) (n : Network sys) : Network sys :=
  let (goes, client) := Client.receiveMsg2 platform verbose n.client
  { n with
    client
    clientPhase := if goes = some true then .awaitsMsg4 else .ended
    toClient := n.clientUse }

def receiveMsg4 (platform : Platform) (n : Network sys) : Network sys :=
  { n with
    client := (Client.receiveMsg4 platform n.client).2
    clientPhase := .ended
    toClient := n.clientUse }

def serveMsg01 (config : Config sys) (n : Network sys) : Network sys :=
  match processMsg01 config n.server with
  | (some (some prepared), next) =>
      { n with
        server := (sendMsg2 prepared next).2
        serverPhase := .awaitsMsg3 prepared
        toServer := n.serverUse }
  | (_, next) => { n with server := next, serverPhase := .ended none, toServer := n.serverUse }

def serveMsg3 (config : Config sys) (prepared : Prepared) (n : Network sys) : Network sys :=
  match processMsg3 config prepared.msg1 prepared.session n.server with
  | (some result, next) =>
      { n with
        server := next
        serverPhase := .judged prepared n.server result
        toServer := n.serverUse }
  | (none, next) =>
      { n with server := next, serverPhase := .ended (some prepared), toServer := n.serverUse }

theorem serveMsg01_of_rejected {config : Config sys} {n : Network sys}
    (hreturn : ∀ prepared next, processMsg01 config n.server ≠ (some (some prepared), next)) :
    n.serveMsg01 config =
      { n with
        server := (processMsg01 config n.server).2
        serverPhase := .ended none
        toServer := n.serverUse } := by
  unfold serveMsg01
  cases hprocess : processMsg01 config n.server with
  | mk returned next =>
      cases returned with
      | none => rfl
      | some returned =>
          cases returned with
          | none => rfl
          | some prepared => exact absurd hprocess (hreturn prepared next)

/-- The steps of the system. -/
inductive Step (config : Config sys) (platform : Platform) (verbose : Bool) :
    Network sys → Network sys → Prop
  | arriveServer {n : Network sys} {link : Link UInt8}
      (harrives : n.toServer.Arrives Recv.bytes n.server.msgio.client.incoming
        n.client.msgio.wire link) : Step config platform verbose n { n with toServer := link }
  | arriveClient {n : Network sys} {link : Link UInt8}
      (harrives : n.toClient.Arrives Recv.bytes n.client.msgio.client.incoming
        n.server.msgio.wire link) : Step config platform verbose n { n with toClient := link }
  | request {n : Network sys} (hphase : n.clientPhase = .idle) :
      Step config platform verbose n (n.request platform)
  | receiveMsg2 {n : Network sys} (hphase : n.clientPhase = .awaitsMsg2)
      (hready : n.client.msgio.usedCount ≤ n.toClient.ready) :
      Step config platform verbose n (n.receiveMsg2 platform verbose)
  | receiveMsg4 {n : Network sys} (hphase : n.clientPhase = .awaitsMsg4)
      (hready : n.client.msgio.usedCount ≤ n.toClient.ready) :
      Step config platform verbose n (n.receiveMsg4 platform)
  | serveMsg01 {n : Network sys} (hphase : n.serverPhase = .awaitsMsg01)
      (hready : n.server.msgio.usedCount ≤ n.toServer.ready) :
      Step config platform verbose n (n.serveMsg01 config)
  | serveMsg3 {n : Network sys} {prepared : Prepared}
      (hphase : n.serverPhase = .awaitsMsg3 prepared)
      (hready : n.server.msgio.usedCount ≤ n.toServer.ready) :
      Step config platform verbose n (n.serveMsg3 config prepared)

/-- The states of the system, from the time the connection is there. -/
def Reachable (config : Config sys) (platform : Platform) (verbose : Bool)
    (connection : Connection) (server : World sys) : Network sys → Prop :=
  Relation.ReflTransGen (Step config platform verbose) (opened connection server)

end Network

/-- A server on a socket whose buffers are empty, before it has written to its client. -/
structure World.Fresh (w : World sys) : Prop where
  socket : w.msgio.useStdio = false
  rbuffer : w.msgio.rbuffer = []
  text : w.msgio.text = []

end RemoteAttestation
