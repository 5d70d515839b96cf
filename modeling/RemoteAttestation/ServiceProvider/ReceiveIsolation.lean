import RemoteAttestation.ServiceProvider.Attestation
import RemoteAttestation.ServiceProvider.TransportTrace
import RemoteAttestation.Transport.TwoTransports

/-! # What one client's messages do to the others

The buffer behind `read` outlives the session, and `read` shortens it on one of its
exits only. The memory that a message is decoded into has held the messages of earlier
sessions. A session in which every `read` is delivered nothing, or one line of digits,
leaves the buffer empty and fills its memory; a run of such sessions reads what each client
sent and nothing else.
-/

namespace RemoteAttestation

open Proc

variable {sys : Sys}

/-- What the calls of `read` among the events returned. -/
def readResults (events : List (Event sys)) : List ReadResult :=
  events.flatMap fun
    | .read before => [before.read.1]
    | _ => []

/-- What a number of successive calls of `read` return. -/
def reads : Nat → MsgIo → List ReadResult
  | 0, _ => []
  | n + 1, msgio => msgio.read.1 :: reads n msgio.read.2

/-- The same calls of `malloc` succeed. The blocks may have held anything. -/
def SameSuccess (allocs allocs' : List (Option Heap)) : Prop :=
  ∀ n, (malloc (allocs.drop n)).1.isSome = (malloc (allocs'.drop n)).1.isSome

/-- The reads of a session return what they would have returned if the buffer had been empty
when it started, whatever was in the memory that they are given. -/
def ReadsOwnBytes (config : Config sys) (start : World sys) : Prop :=
  ∀ allocs, SameSuccess start.msgio.client.allocs allocs →
    (readResults (sessionEvents config start)).map ReadResult.observed =
      (reads (readResults (sessionEvents config start)).length
        { MsgIo.listen [] with client := { start.msgio.client with allocs } }).map
          ReadResult.observed

/-- Every `read` of the session is delivered nothing, or one line of digits. -/
def ReceivesLines (config : Config sys) (start : World sys) : Prop :=
  ∀ before, Event.read before ∈ sessionEvents config start → DeliversLine before.client

/-! ## One `read` in two memories -/

theorem SameSuccess.refl (allocs : List (Option Heap)) : SameSuccess allocs allocs := fun _ => rfl

theorem SameSuccess.tail {allocs allocs' : List (Option Heap)} (hsame : SameSuccess allocs allocs') :
    SameSuccess allocs.tail allocs'.tail := by
  intro n
  simpa only [List.drop_tail] using hsame (n + 1)

/-- Two objects on a socket with nothing in their buffers, which will receive the same and
differ in what their memory held. -/
structure SameBytes (left right : MsgIo) : Prop where
  left_socket : left.useStdio = false
  right_socket : right.useStdio = false
  left_rbuffer : left.rbuffer = []
  right_rbuffer : right.rbuffer = []
  incoming : left.client.incoming = right.client.incoming
  allocs : SameSuccess left.client.allocs right.client.allocs

/-- A line of digits decodes alike in any two blocks. -/
theorem takeLine_singleLine {text : Bytes} {idx ws : Nat} (hend : lineEnd text = some (idx, ws))
    (hblank : idx ≠ 0) (heven : idx % 2 = 0) (hdigits : ∀ c ∈ text.take idx, (hexValue? c).isSome)
    (hall : text.length ≤ idx + ws) (rest : List Recv) {allocs : List (Option Heap)}
    (hmalloc : (malloc allocs).1.isSome) :
    let state := takeLine text rest allocs idx ws
    state.result.observed = (1, some (hexPairs (text.take idx)), idx) ∧ state.rbuffer = [] ∧
      state.incoming = rest ∧ state.allocs = allocs.tail := by
  obtain ⟨heap, hheap⟩ := Option.isSome_iff_exists.mp hmalloc
  have htwice : 2 * (idx / 2) = idx := by omega
  have hlength := (lineEnd_bounds hend).2
  have hblock : (decodeInto heap text (idx / 2)).block = hexPairs (text.take idx) := by
    rw [decodeInto_digits heap ⟨by omega, by rwa [htwice]⟩, htwice]
  rw [takeLine_of_memory hblank heven (Prod.ext hheap rfl)]
  refine ⟨?_, List.drop_eq_nil_of_le hall, rfl, rfl⟩
  rw [ReadResult.observed, Option.map_some, hblock]

/-- A `read` that is delivered nothing or a line of digits. -/
theorem SameBytes.read {left right : MsgIo} (hsame : SameBytes left right)
    (hdelivers : DeliversLine left.client) :
    left.read.1.observed = right.read.1.observed ∧ SameBytes left.read.2 right.read.2 := by
  rw [MsgIo.read_socket hsame.left_socket, MsgIo.read_socket hsame.right_socket,
    hsame.left_rbuffer, hsame.right_rbuffer, ← hsame.incoming]
  rcases hdelivers with hsilent | ⟨text, rest, hgathers, hline, hmalloc⟩
  · obtain ⟨rv, rest, hloop⟩ := readLoop_of_silent hsilent
    rw [hloop, hloop]
    exact ⟨rfl, hsame.left_socket, hsame.right_socket, rfl, rfl, rfl, hsame.allocs⟩
  · obtain ⟨idx, ws, hend, hblank, heven, hdigits, hall⟩ := hline
    have hmalloc' : (malloc right.client.allocs).1.isSome := hsame.allocs 0 ▸ hmalloc
    obtain ⟨hleft, hleftBuffer, hleftRest, hleftTail⟩ :=
      takeLine_singleLine hend hblank heven hdigits hall rest hmalloc
    obtain ⟨hright, hrightBuffer, hrightRest, hrightTail⟩ :=
      takeLine_singleLine hend hblank heven hdigits hall rest hmalloc'
    rw [readLoop_of_gathers hgathers _ hend, readLoop_of_gathers hgathers _ hend]
    refine ⟨hleft.trans hright.symm, hsame.left_socket, hsame.right_socket, hleftBuffer,
      hrightBuffer, hleftRest.trans hrightRest.symm, ?_⟩
    dsimp only
    rw [hleftTail, hrightTail]
    exact hsame.allocs.tail

/-- Sending changes none of this. -/
theorem SameBytes.of_receiver {left next right : MsgIo} (hsame : SameBytes left right)
    (hreceiver : left.SameReceiver next) : SameBytes next right :=
  ⟨hreceiver.useStdio.trans hsame.left_socket, hsame.right_socket,
    hreceiver.rbuffer.trans hsame.left_rbuffer, hsame.right_rbuffer,
    hreceiver.incoming.trans hsame.incoming, hreceiver.allocs ▸ hsame.allocs⟩

/-- Along the log an object with other memory reads the same. -/
theorem readResults_of_chain {left right last : MsgIo} {events : List (Event sys)}
    (hchain : Chain MsgIo.Moves left events last) (hsame : SameBytes left right)
    (hlines : ∀ before, Event.read before ∈ events → DeliversLine before.client) :
    (readResults events).map ReadResult.observed =
      (reads (readResults events).length right).map ReadResult.observed := by
  induction hchain generalizing right with
  | nil => rfl
  | @cons first next last event events hstep _ ih =>
      have hlater := fun before hmem => hlines before (List.mem_cons_of_mem _ hmem)
      cases event with
      | read before =>
          obtain ⟨rfl, rfl⟩ := hstep
          obtain ⟨hresult, hnext⟩ := hsame.read (hlines _ List.mem_cons_self)
          change before.read.1.observed :: (readResults events).map ReadResult.observed =
            (reads (readResults events).length.succ right).map ReadResult.observed
          rw [reads, List.map_cons, ← ih hnext hlater, hresult]
      | sendPartial before src =>
          obtain ⟨_, rfl⟩ := hstep
          exact ih (hsame.of_receiver (MsgIo.sendPartial_receiver _ _)) hlater
      | send before src =>
          obtain ⟨_, rfl⟩ := hstep
          exact ih (hsame.of_receiver (MsgIo.send_receiver _ _)) hlater
      | _ =>
          cases hstep
          exact ih hsame hlater

/-- An object on a socket whose receive buffer is empty. -/
structure Drained (msgio : MsgIo) : Prop where
  socket : msgio.useStdio = false
  rbuffer : msgio.rbuffer = []

/-- It reads like one that starts with other memory. -/
theorem Drained.sameBytes {msgio : MsgIo} (hdrained : Drained msgio) {allocs : List (Option Heap)}
    (hallocs : SameSuccess msgio.client.allocs allocs) :
    SameBytes msgio { MsgIo.listen [] with client := { msgio.client with allocs } } :=
  ⟨hdrained.socket, rfl, hdrained.rbuffer, rfl, rfl, hallocs⟩

/-- A `read` that is delivered nothing or a line leaves the buffer empty, and sending
does not touch it. -/
theorem Drained.step {msgio next : MsgIo} {event : Event sys} (hmoves : msgio.Moves event next)
    (hdelivers : ∀ before, event = .read before → DeliversLine before.client)
    (hdrained : Drained msgio) : Drained next := by
  obtain ⟨hsocket, hempty⟩ := hdrained
  cases event with
  | read before =>
      obtain ⟨rfl, rfl⟩ := hmoves
      have hsame : SameBytes before before := ⟨hsocket, hsocket, hempty, hempty, rfl, .refl _⟩
      obtain ⟨_, hnext⟩ := hsame.read (hdelivers before rfl)
      exact ⟨hnext.left_socket, hnext.left_rbuffer⟩
  | sendPartial before src =>
      obtain ⟨_, rfl⟩ := hmoves
      have hreceiver := MsgIo.sendPartial_receiver msgio src
      exact ⟨hreceiver.useStdio.trans hsocket, hreceiver.rbuffer.trans hempty⟩
  | send before src =>
      obtain ⟨_, rfl⟩ := hmoves
      have hreceiver := MsgIo.send_receiver msgio src
      exact ⟨hreceiver.useStdio.trans hsocket, hreceiver.rbuffer.trans hempty⟩
  | _ =>
      cases hmoves
      exact ⟨hsocket, hempty⟩

/-! ## Sessions -/

section

variable {start : World sys}

theorem readsOwnBytes_of_drained (config : Config sys) (hdrained : Drained start.msgio)
    (hlines : ReceivesLines config start) : ReadsOwnBytes config start := by
  intro allocs hallocs
  have hchain := chain_emitted (advances_serveClient config) start
  exact readResults_of_chain hchain (hdrained.sameBytes hallocs) hlines

theorem drained_serveClient (config : Config sys) (hdrained : Drained start.msgio)
    (hlines : ReceivesLines config start) : Drained (serveClient config start).2.msgio := by
  have hchain := chain_emitted (advances_serveClient config) start
  have hall : ∀ event ∈ sessionEvents config start,
      ∀ before, event = .read before → DeliversLine before.client := by
    rintro _ hmem before rfl
    exact hlines before hmem
  refine hchain.preserves ?_ hall hdrained
  intro first event next hmoves hdelivers hfirst
  exact hfirst.step hmoves hdelivers

end

/-- In every run over a socket whose reads are delivered nothing or one line, each session
reads the bytes of its own client. -/
theorem sessions_read_own_bytes (config : Config sys) (n : Nat) (waiting : List Connection)
    (ias : IasConnection sys)
    (hlines : ∀ start ∈ (mainLoop config n (.start (.listen waiting) ias)).1,
      ReceivesLines config start) :
    ∀ start ∈ (mainLoop config n (.start (.listen waiting) ias)).1,
      ReadsOwnBytes config start := by
  have hinv : ∀ start ∈ (mainLoop config n (.start (.listen waiting) ias)).1,
      Drained start.msgio := by
    refine rounds_invariant ?_ n ?_ hlines
    · intro start last next hdrained hstart hsession hnext
      have hserved := drained_serveClient config hdrained hstart
      obtain ⟨hstdio, _, hrbuffer, _⟩ := acceptClient_session hserved.socket hsession hnext
      exact ⟨hstdio, hrbuffer.trans hserved.rbuffer⟩
    · intro start haccept
      obtain ⟨hstdio, _, hrbuffer, _⟩ := acceptClient_socket rfl haccept
      exact ⟨hstdio, hrbuffer⟩
  intro start hmem
  exact readsOwnBytes_of_drained config (hinv start hmem) (hlines start hmem)

/-- Whether an event is a `read` that is delivered something else. -/
def Event.leavesBytes : Event sys → Bool
  | .read before => !deliversLine before.client
  | _ => false

theorem receivesLines_of_events {config : Config sys} {start : World sys}
    (hevents : (sessionEvents config start).all (fun event => !event.leavesBytes) = true) :
    ReceivesLines config start := by
  intro before hmem
  have hbefore := List.all_eq_true.mp hevents _ hmem
  rw [Event.leavesBytes, Bool.not_not] at hbefore
  exact deliversLine_sound hbefore

/-- Two clients that leave after message 2 are each read on their own. -/
theorem two_clients_read_own_bytes :
    (mainLoop (.plain _ ()) 2 (.start (.listen [.sending [.plainMsg01], .sending [.plainMsg01]])
        (.plain (.reporting .zero (reportText "OK"))))).1.length = 2 ∧
      ∀ start ∈ (mainLoop (.plain _ ()) 2 (.start (.listen [.sending [.plainMsg01],
          .sending [.plainMsg01]]) (.plain (.reporting .zero (reportText "OK"))))).1,
        ReadsOwnBytes (.plain _ ()) start := by
  have hevents : ∀ start ∈ (mainLoop (.plain _ ()) 2 (.start (.listen [.sending [.plainMsg01],
      .sending [.plainMsg01]]) (.plain (.reporting .zero (reportText "OK"))))).1,
      (sessionEvents (.plain _ ()) start).all (fun event => !event.leavesBytes) = true := by
    decide +kernel
  refine ⟨by decide +kernel, ?_⟩
  exact sessions_read_own_bytes (.plain (.reporting .zero (reportText "OK")) ()) 2
    [.sending [.plainMsg01], .sending [.plainMsg01]] (.plain _)
    fun start hmem => receivesLines_of_events (hevents start hmem)

/-- A line with an odd number of digits. -/
def Recv.oddLine : Recv := .data ⟨[48, 10], by simp [msgioBufferSz]⟩

/-- A client that sends such a line makes the server read it again for the next client. -/
theorem odd_line_reaches_next_session :
    ∃ start ∈ (mainLoop (.plain _ ()) 2 (.start (.listen [.sending [.oddLine],
        .sending [.plainMsg01]]) (.plain (.reporting .zero (reportText "OK"))))).1,
      ¬ ReadsOwnBytes (.plain _ ()) start := by
  have hdiffer : ∃ start ∈ (mainLoop (.plain _ ()) 2 (.start (.listen [.sending [.oddLine],
      .sending [.plainMsg01]]) (.plain (.reporting .zero (reportText "OK"))))).1,
      (readResults (sessionEvents (.plain _ ()) start)).map ReadResult.observed ≠
        (reads (readResults (sessionEvents (.plain _ ()) start)).length
          { MsgIo.listen [] with client := start.msgio.client }).map ReadResult.observed := by
    decide +kernel
  obtain ⟨start, hmem, hobserved⟩ := hdiffer
  exact ⟨start, hmem, fun hown => hobserved (hown _ (.refl _))⟩

end RemoteAttestation
