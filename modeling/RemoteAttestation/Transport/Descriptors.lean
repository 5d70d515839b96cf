import Mathlib.Data.List.Induction
import Mathlib.Tactic.Common

/-! # Socket descriptors

The two sockets of a `MsgIo` server, from the constructor to the destructor. The kernel may
give the number of a closed descriptor to the next one, so a descriptor is its number
and a serial number that the program does not see.
-/

namespace RemoteAttestation

structure Descriptor where
  number : Nat
  serial : Nat
deriving DecidableEq

/-- What happens to descriptors: a call of `socket` or `accept` that succeeds, and the calls
that give one back. -/
inductive SocketEvent where
  | obtained (descriptor : Descriptor)
  | shutdown (descriptor : Descriptor)
  | close (descriptor : Descriptor)
deriving DecidableEq

/-- The members `s` and `ls`, `none` for -1, with the events so far and the serial number of
the next descriptor. -/
structure Sockets where
  useStdio : Bool
  s : Option Descriptor
  ls : Option Descriptor
  next : Nat
  events : List SocketEvent
deriving DecidableEq

namespace Sockets

def record (sockets : Sockets) (events : List SocketEvent) : Sockets :=
  { sockets with events := sockets.events ++ events }

/-- A descriptor of this number is obtained and kept as `s`. -/
def obtain (sockets : Sockets) (number : Nat) : Sockets :=
  { sockets with
    s := some ⟨number, sockets.next⟩
    next := sockets.next + 1
    events := sockets.events ++ [.obtained ⟨number, sockets.next⟩] }

/-- `close` of a member; -1 is refused by the kernel. -/
def closing : Option Descriptor → List SocketEvent
  | none => []
  | some descriptor => [.close descriptor]

/-- `shutdown` and `close` of a member that is not -1. -/
def shuttingDown : Option Descriptor → List SocketEvent
  | none => []
  | some descriptor => [.shutdown descriptor, .close descriptor]

/-- The loop over the addresses: for each what `socket` returns and whether `bind`
succeeds. -/
def bindLoop (sockets : Sockets) : List (Option Nat × Bool) → Sockets
  | [] => sockets
  | (none, _) :: addrs => bindLoop { sockets with s := none } addrs
  | (some number, bound) :: addrs =>
      let sockets := sockets.obtain number
      if bound then sockets
      else bindLoop { sockets.record (closing sockets.s) with s := none } addrs

/-- The constructor of a server. The first part says whether it returns; an exception leaves
no object. -/
def server (addrs : List (Option Nat × Bool)) (listen : Bool) : Bool × Sockets :=
  let sockets := bindLoop ⟨false, none, none, 0, []⟩ addrs
  if sockets.s = none then (false, sockets)
  else
    let sockets := { sockets with ls := sockets.s, s := none }
    if listen then (true, sockets) else (false, sockets.record (closing sockets.ls))

/-- `server_loop`, with what `accept` returns. -/
def serverLoop (sockets : Sockets) (accepted : Option Nat) : Sockets :=
  if sockets.useStdio then sockets
  else match accepted with
    | none => { sockets.record (closing sockets.ls) with s := none }
    | some number => sockets.obtain number

def disconnect (sockets : Sockets) : Sockets :=
  if sockets.useStdio then sockets else sockets.record (shuttingDown sockets.s)

/-- The destructor. -/
def destroy (sockets : Sockets) : Sockets :=
  sockets.record (shuttingDown sockets.s ++ shuttingDown sockets.ls)

end Sockets

/-- A call on the object between its construction and its destruction. -/
inductive SocketCall where
  | serverLoop (accepted : Option Nat)
  | disconnect
deriving DecidableEq

def SocketCall.apply (sockets : Sockets) : SocketCall → Sockets
  | .serverLoop accepted => sockets.serverLoop accepted
  | .disconnect => sockets.disconnect

namespace Sockets

def calls (sockets : Sockets) (calls : List SocketCall) : Sockets :=
  calls.foldl SocketCall.apply sockets

/-- The calls, and the destructor if a signal arrives behind them. -/
def lifetime (sockets : Sockets) (calls : List SocketCall) (destroyed : Bool) : Sockets :=
  if destroyed then (sockets.calls calls).destroy else sockets.calls calls

end Sockets

/-- The events of a server object: those of its constructor, and if this returns those of
its life. -/
def serverEvents (addrs : List (Option Nat × Bool)) (listen : Bool) (calls : List SocketCall)
    (destroyed : Bool) : List SocketEvent :=
  match Sockets.server addrs listen with
  | (false, sockets) => sockets.events
  | (true, sockets) => (sockets.lifetime calls destroyed).events

/-- What may follow an event: nothing is shut down twice, and nothing happens to a descriptor
that was closed. -/
def SocketEvent.Allows : SocketEvent → SocketEvent → Prop
  | .obtained _, _ => True
  | .shutdown descriptor, later => later ≠ .shutdown descriptor
  | .close descriptor, later => later ≠ .shutdown descriptor ∧ later ≠ .close descriptor

/-- Every descriptor is shut down and closed at most once, and left alone once it was closed. -/
def ClosedOnce (events : List SocketEvent) : Prop := events.Pairwise SocketEvent.Allows

/-- No session is disconnected twice, and no server loop fails twice. Neither the descriptor of
a session that was disconnected nor that of a loop that failed is there when the object is
destroyed. -/
structure Orderly (calls : List SocketCall) (destroyed : Bool) : Prop where
  session : ∀ front number back,
    calls ≠ front ++ .serverLoop (some number) :: .disconnect :: .disconnect :: back
  listening : ∀ front middle back,
    calls ≠ front ++ .serverLoop none :: (middle ++ .serverLoop none :: back)
  destroyedSession : destroyed = true → ∀ front number,
    calls ≠ front ++ [.serverLoop (some number), .disconnect]
  destroyedListening : destroyed = true → .serverLoop none ∉ calls

/-! ## Events -/

/-- The descriptor was shut down or closed. -/
def Touched (descriptor : Descriptor) (events : List SocketEvent) : Prop :=
  .shutdown descriptor ∈ events ∨ .close descriptor ∈ events

section

variable {events : List SocketEvent} {descriptor : Descriptor} {number : Nat}

/-- Nothing that happened forbids to give back a descriptor that was not touched. -/
theorem allows_of_not_touched (hfresh : ¬ Touched descriptor events) {event : SocketEvent}
    (hmem : event ∈ events) :
    event.Allows (.shutdown descriptor) ∧ event.Allows (.close descriptor) := by
  cases event with
  | obtained d => exact ⟨trivial, trivial⟩
  | shutdown d =>
      refine ⟨fun hsame => hfresh (.inl ?_), SocketEvent.noConfusion⟩
      rwa [hsame]
  | close d =>
      have hne : descriptor ≠ d := by
        rintro rfl
        exact hfresh (.inr hmem)
      refine ⟨⟨fun hsame => hne ?_, SocketEvent.noConfusion⟩,
        ⟨SocketEvent.noConfusion, fun hsame => hne ?_⟩⟩
      · exact SocketEvent.shutdown.inj hsame
      · exact SocketEvent.close.inj hsame

theorem closedOnce_obtained (honce : ClosedOnce events) :
    ClosedOnce (events ++ [.obtained descriptor]) := by
  refine List.pairwise_append.mpr
    ⟨honce, List.pairwise_singleton _ _, fun event _ later hlater => ?_⟩
  rw [List.mem_singleton.mp hlater]
  cases event with
  | obtained d => trivial
  | shutdown d => exact SocketEvent.noConfusion
  | close d => exact ⟨SocketEvent.noConfusion, SocketEvent.noConfusion⟩

theorem closedOnce_close (honce : ClosedOnce events) (hfresh : ¬ Touched descriptor events) :
    ClosedOnce (events ++ [.close descriptor]) := by
  refine List.pairwise_append.mpr
    ⟨honce, List.pairwise_singleton _ _, fun event hmem later hlater => ?_⟩
  rw [List.mem_singleton.mp hlater]
  exact (allows_of_not_touched hfresh hmem).2

theorem closedOnce_shuttingDown (honce : ClosedOnce events) (hfresh : ¬ Touched descriptor events) :
    ClosedOnce (events ++ [.shutdown descriptor, .close descriptor]) := by
  have hpair : ClosedOnce [.shutdown descriptor, .close descriptor] :=
    List.pairwise_pair.mpr SocketEvent.noConfusion
  refine List.pairwise_append.mpr ⟨honce, hpair, fun event hmem later hlater => ?_⟩
  obtain ⟨hshutdown, hclose⟩ := allows_of_not_touched hfresh hmem
  rcases List.mem_cons.mp hlater with rfl | hlast
  · exact hshutdown
  · rw [List.mem_singleton.mp hlast]
    exact hclose

/-- A descriptor that was closed is not given back again. -/
theorem not_closedOnce (hclosed : .close descriptor ∈ events) {later : List SocketEvent}
    (hlater : .close descriptor ∈ later) : ¬ ClosedOnce (events ++ later) := by
  intro honce
  have hallows := (List.pairwise_append.mp honce).2.2 _ hclosed _ hlater
  exact hallows.2 rfl

theorem ClosedOnce.of_append {later : List SocketEvent} (honce : ClosedOnce (events ++ later)) :
    ClosedOnce events :=
  (List.pairwise_append.mp honce).1

@[simp] theorem touched_append {later : List SocketEvent} :
    Touched descriptor (events ++ later) ↔
      Touched descriptor events ∨ Touched descriptor later := by
  unfold Touched
  simp only [List.mem_append]
  tauto

end

/-- The front of a list of calls in order is in order. -/
theorem Orderly.of_append {front back : List SocketCall}
    (horderly : Orderly (front ++ back) false) :
    Orderly front false := by
  refine ⟨?_, ?_, fun h => absurd h Bool.false_ne_true,
    fun h => absurd h Bool.false_ne_true⟩
  · rintro first number last rfl
    exact horderly.session first number (last ++ back) (by simp)
  · rintro first middle last rfl
    exact horderly.listening first middle (last ++ back) (by simp)

/-! ## The object -/

namespace Sockets

/-- A state of a server in which nothing was given back twice, and every serial number that
was given out is below the next one. -/
structure Sound (sockets : Sockets) : Prop where
  socket : sockets.useStdio = false
  once : ClosedOnce sockets.events
  fresh : ∀ descriptor, sockets.next ≤ descriptor.serial → ¬ Touched descriptor sockets.events
  session : ∀ descriptor, sockets.s = some descriptor → descriptor.serial < sockets.next

variable {sockets : Sockets} {number : Nat}

theorem Sound.obtain (hsound : sockets.Sound) (number : Nat) : (sockets.obtain number).Sound := by
  refine ⟨hsound.socket, closedOnce_obtained hsound.once, fun descriptor hserial => ?_, ?_⟩
  · have hlow : sockets.next ≤ descriptor.serial := Nat.le_of_succ_le hserial
    have hbefore := hsound.fresh descriptor hlow
    simpa [Sockets.obtain, Touched] using hbefore
  · rintro descriptor hs
    cases hs
    exact Nat.lt_succ_self _

/-- The descriptor that was just obtained was not touched. -/
theorem Sound.not_touched_obtain (hsound : sockets.Sound) (number : Nat) :
    ¬ Touched ⟨number, sockets.next⟩ (sockets.obtain number).events := by
  have hbefore := hsound.fresh ⟨number, sockets.next⟩ (Nat.le_refl _)
  simpa [Sockets.obtain, Touched] using hbefore

/-- Closing a descriptor that was not touched. -/
theorem Sound.close (hsound : sockets.Sound) {descriptor : Descriptor}
    (hserial : descriptor.serial < sockets.next)
    (huntouched : ¬ Touched descriptor sockets.events) :
    { sockets.record [.close descriptor] with s := none }.Sound := by
  refine ⟨hsound.socket, closedOnce_close hsound.once huntouched, fun other hother => ?_, ?_⟩
  · have hne : other ≠ descriptor := by
      rintro rfl
      exact absurd hserial (Nat.not_lt.mpr hother)
    simpa [record, Touched, hne] using hsound.fresh other hother
  · rintro d hs
    cases hs

/-! ## Construction -/

/-- The loop of the constructor closes what it does not keep. -/
theorem bindLoop_sound (hsound : sockets.Sound) (hnone : sockets.s = none)
    (addrs : List (Option Nat × Bool)) :
    (bindLoop sockets addrs).Sound ∧ (bindLoop sockets addrs).ls = sockets.ls ∧
      ∀ descriptor, (bindLoop sockets addrs).s = some descriptor →
        ¬ Touched descriptor (bindLoop sockets addrs).events := by
  induction addrs generalizing sockets with
  | nil =>
      refine ⟨hsound, rfl, fun descriptor hs => ?_⟩
      rw [bindLoop, hnone] at hs
      cases hs
  | cons addr addrs ih =>
      obtain ⟨number | number, bound⟩ := addr
      · have hreset : { sockets with s := none }.Sound :=
          ⟨hsound.socket, hsound.once, hsound.fresh, fun _ hs => by cases hs⟩
        exact ih hreset rfl
      · have hobtained := hsound.obtain number
        have huntouched := hsound.not_touched_obtain number
        cases bound with
        | true =>
            refine ⟨hobtained, rfl, fun descriptor hs => ?_⟩
            cases hs
            exact huntouched
        | false =>
            have hclosed := hobtained.close (Nat.lt_succ_self _) huntouched
            exact ih hclosed rfl

/-- A constructor that returns leaves a listening socket that was not touched. -/
structure Listening (sockets : Sockets) : Prop where
  sound : sockets.Sound
  session : sockets.s = none
  listening : ∃ descriptor, sockets.ls = some descriptor ∧ descriptor.serial < sockets.next ∧
    ¬ Touched descriptor sockets.events

theorem server_sound (addrs : List (Option Nat × Bool)) (listen : Bool) :
    ClosedOnce (server addrs listen).2.events ∧
      ((server addrs listen).1 = true → (server addrs listen).2.Listening) := by
  have hinitial : Sound ⟨false, none, none, 0, []⟩ :=
    ⟨rfl, List.Pairwise.nil, fun _ _ htouched => by simp [Touched] at htouched,
      fun _ hs => by cases hs⟩
  obtain ⟨hsound, _, huntouched⟩ := bindLoop_sound hinitial rfl addrs
  unfold server
  generalize bindLoop ⟨false, none, none, 0, []⟩ addrs = bound at hsound huntouched
  dsimp only
  split
  next => exact ⟨hsound.once, fun h => by cases h⟩
  next hbound =>
    obtain ⟨descriptor, hs⟩ := Option.ne_none_iff_exists'.mp hbound
    have hfresh := huntouched descriptor hs
    cases listen with
    | true =>
        refine ⟨hsound.once, fun _ => ⟨⟨hsound.socket, hsound.once, hsound.fresh, ?_⟩, rfl, ?_⟩⟩
        · exact fun _ h => by cases h
        · exact ⟨descriptor, hs, hsound.session descriptor hs, hfresh⟩
    | false =>
        refine ⟨?_, fun h => by cases h⟩
        change ClosedOnce (bound.events ++ closing bound.s)
        rw [hs]
        exact closedOnce_close hsound.once hfresh

/-! ## Calls -/

theorem calls_append (sockets : Sockets) (front back : List SocketCall) :
    sockets.calls (front ++ back) = (sockets.calls front).calls back :=
  List.foldl_append

/-- No call changes the kind of the object or its listening socket. -/
theorem apply_members (sockets : Sockets) (call : SocketCall) :
    (call.apply sockets).useStdio = sockets.useStdio ∧ (call.apply sockets).ls = sockets.ls ∧
      ∃ later, (call.apply sockets).events = sockets.events ++ later := by
  by_cases hstdio : sockets.useStdio = true
  · have happly : call.apply sockets = sockets := by
      cases call with
      | serverLoop accepted => simp [SocketCall.apply, serverLoop, hstdio]
      | disconnect => simp [SocketCall.apply, disconnect, hstdio]
    rw [happly]
    exact ⟨rfl, rfl, [], (List.append_nil _).symm⟩
  · cases call with
    | serverLoop accepted =>
        rw [SocketCall.apply]
        unfold serverLoop
        rw [if_neg hstdio]
        cases accepted with
        | none => exact ⟨rfl, rfl, _, rfl⟩
        | some number => exact ⟨rfl, rfl, _, rfl⟩
    | disconnect =>
        rw [SocketCall.apply]
        unfold disconnect
        rw [if_neg hstdio]
        exact ⟨rfl, rfl, _, rfl⟩

theorem calls_members (sockets : Sockets) (calls : List SocketCall) :
    (sockets.calls calls).useStdio = sockets.useStdio ∧ (sockets.calls calls).ls = sockets.ls ∧
      ∃ later, (sockets.calls calls).events = sockets.events ++ later := by
  induction calls generalizing sockets with
  | nil => exact ⟨rfl, rfl, [], (List.append_nil _).symm⟩
  | cons call calls ih =>
      obtain ⟨hstdio, hls, later, hevents⟩ := apply_members sockets call
      obtain ⟨hstdio', hls', later', hevents'⟩ := ih (call.apply sockets)
      refine ⟨hstdio'.trans hstdio, hls'.trans hls, later ++ later', ?_⟩
      rw [← List.append_assoc, ← hevents]
      exact hevents'

/-- What a life did up to some call stays in the log. -/
theorem closedOnce_of_lifetime {front back : List SocketCall} {destroyed : Bool}
    (honce : ClosedOnce (sockets.lifetime (front ++ back) destroyed).events) :
    ClosedOnce (sockets.calls front).events := by
  obtain ⟨_, _, later, hevents⟩ := calls_members (sockets.calls front) back
  rw [lifetime, calls_append] at honce
  cases destroyed with
  | true =>
      rw [if_pos rfl, destroy, record, hevents] at honce
      exact honce.of_append.of_append
  | false =>
      rw [if_neg Bool.false_ne_true, hevents] at honce
      exact honce.of_append

theorem events_disconnect (hsocket : sockets.useStdio = false) (front : List SocketCall) :
    (sockets.calls (front ++ [.disconnect])).events =
      (sockets.calls front).events ++ shuttingDown (sockets.calls front).s := by
  have hfront := (calls_members sockets front).1.trans hsocket
  rw [calls_append]
  generalize sockets.calls front = middle at hfront
  simp [calls, SocketCall.apply, disconnect, record, hfront]

theorem events_failed (hsocket : sockets.useStdio = false) (front : List SocketCall) :
    (sockets.calls (front ++ [.serverLoop none])).events =
      (sockets.calls front).events ++ closing sockets.ls := by
  have hfront := (calls_members sockets front).1.trans hsocket
  rw [← (calls_members sockets front).2.1, calls_append]
  generalize sockets.calls front = middle at hfront
  simp [calls, SocketCall.apply, serverLoop, record, hfront]

/-- After a session was disconnected its descriptor is closed, and kept. -/
theorem calls_disconnected (hsocket : sockets.useStdio = false) (front : List SocketCall)
    (number : Nat) :
    ∃ descriptor,
      (sockets.calls (front ++ [.serverLoop (some number), .disconnect])).s = some descriptor ∧
        .close descriptor ∈
          (sockets.calls (front ++ [.serverLoop (some number), .disconnect])).events := by
  have hfront : (sockets.calls front).useStdio = false :=
    (calls_members sockets front).1.trans hsocket
  refine ⟨⟨number, (sockets.calls front).next⟩, ?_⟩
  rw [calls_append]
  generalize sockets.calls front = middle at hfront
  simp [calls, SocketCall.apply, serverLoop, disconnect, obtain, record, shuttingDown, hfront]

/-- After a server loop that failed the listening socket is closed, and kept. -/
theorem calls_failed (hsocket : sockets.useStdio = false) {descriptor : Descriptor}
    (hls : sockets.ls = some descriptor) {calls : List SocketCall}
    (hfailed : .serverLoop none ∈ calls) : .close descriptor ∈ (sockets.calls calls).events := by
  obtain ⟨front, back, rfl⟩ := List.append_of_mem hfailed
  obtain ⟨hstdio, hlistening, _⟩ := calls_members sockets front
  obtain ⟨_, _, later, hevents⟩ :=
    calls_members (SocketCall.apply (sockets.calls front) (.serverLoop none)) back
  have hclose : SocketEvent.close descriptor ∈
      (SocketCall.apply (sockets.calls front) (.serverLoop none)).events := by
    simp [SocketCall.apply, serverLoop, record, closing, hstdio, hsocket, hlistening, hls]
  rw [calls_append]
  change .close descriptor ∈
    (Sockets.calls (SocketCall.apply (sockets.calls front) (.serverLoop none)) back).events
  rw [hevents]
  exact List.mem_append_left _ hclose

/-! ## A life in order -/

/-- What holds of a server object after calls that were in order. -/
structure Serving (calls : List SocketCall) (sockets : Sockets) : Prop where
  sound : sockets.Sound
  listening : ∃ descriptor, sockets.ls = some descriptor ∧ descriptor.serial < sockets.next ∧
    sockets.s ≠ some descriptor ∧
      (Touched descriptor sockets.events → .serverLoop none ∈ calls)
  session : sockets.s = none ∨
    (∃ descriptor front number, sockets.s = some descriptor ∧
      calls = front ++ [.serverLoop (some number)] ∧ ¬ Touched descriptor sockets.events) ∨
    ∃ front number, calls = front ++ [.serverLoop (some number), .disconnect]

/-- A client that is accepted gets a descriptor of its own. -/
theorem Serving.accepted {calls : List SocketCall} (hserving : Serving calls sockets)
    (number : Nat) :
    Serving (calls ++ [.serverLoop (some number)])
      (SocketCall.apply sockets (.serverLoop (some number))) := by
  obtain ⟨listening, hls, hserial, hne, htouched⟩ := hserving.listening
  have hsound := hserving.sound
  have happly : SocketCall.apply sockets (.serverLoop (some number)) = sockets.obtain number := by
    simp [SocketCall.apply, serverLoop, hsound.socket]
  rw [happly]
  refine ⟨hsound.obtain number, ⟨listening, hls, Nat.lt_succ_of_lt hserial, ?_, ?_⟩,
    .inr (.inl ⟨_, calls, number, rfl, rfl, hsound.not_touched_obtain number⟩)⟩
  · intro hsame
    rw [← Option.some.inj hsame] at hserial
    exact Nat.lt_irrefl _ hserial
  · intro hagain
    have hbefore : Touched listening sockets.events := by
      simpa [obtain, Touched] using hagain
    exact List.mem_append_left _ (htouched hbefore)

/-- The first `accept` that fails closes the listening socket. -/
theorem Serving.failed {calls : List SocketCall} (hserving : Serving calls sockets)
    (horderly : Orderly (calls ++ [.serverLoop none]) false) :
    Serving (calls ++ [.serverLoop none]) (SocketCall.apply sockets (.serverLoop none)) := by
  obtain ⟨listening, hls, hserial, _, htouched⟩ := hserving.listening
  have hsound := hserving.sound
  have hfresh : ¬ Touched listening sockets.events := by
    intro hagain
    obtain ⟨front, middle, rfl⟩ := List.append_of_mem (htouched hagain)
    exact horderly.listening front middle [] (by simp)
  have happly : SocketCall.apply sockets (.serverLoop none) =
      { sockets.record [.close listening] with s := none } := by
    simp [SocketCall.apply, serverLoop, hsound.socket, closing, hls]
  rw [happly]
  refine ⟨hsound.close hserial hfresh, ⟨listening, hls, hserial, ?_, fun _ => by simp⟩, .inl rfl⟩
  exact fun h => by cases h

/-- A session is disconnected once, or there is none. -/
theorem Serving.disconnected {calls : List SocketCall} (hserving : Serving calls sockets)
    (horderly : Orderly (calls ++ [.disconnect]) false) :
    Serving (calls ++ [.disconnect]) (SocketCall.apply sockets .disconnect) := by
  obtain ⟨listening, hls, hserial, hne, htouched⟩ := hserving.listening
  have hsound := hserving.sound
  have happly : SocketCall.apply sockets .disconnect =
      sockets.record (shuttingDown sockets.s) := by
    simp [SocketCall.apply, disconnect, hsound.socket]
  rw [happly]
  rcases hserving.session with hnone | ⟨descriptor, front, number, hs, rfl, hfresh⟩ |
    ⟨front, number, rfl⟩
  · have hidle : sockets.record (shuttingDown sockets.s) = sockets := by
      rw [hnone, shuttingDown, record, List.append_nil]
    rw [hidle]
    refine ⟨hsound, ⟨listening, hls, hserial, hne, fun h => ?_⟩, .inl hnone⟩
    exact List.mem_append_left _ (htouched h)
  · have hdifferent : descriptor ≠ listening := by
      rintro rfl
      exact hne hs
    rw [hs]
    refine ⟨⟨hsound.socket, closedOnce_shuttingDown hsound.once hfresh, ?_, hsound.session⟩,
      ⟨listening, hls, hserial, hne, ?_⟩, .inr (.inr ⟨front, number, by simp⟩)⟩
    · intro other hother
      have hother' : other ≠ descriptor := by
        rintro rfl
        exact absurd (hsound.session other hs) (Nat.not_lt.mpr hother)
      simpa [record, shuttingDown, Touched, hother'] using hsound.fresh other hother
    · intro hagain
      have hbefore : Touched listening sockets.events := by
        simpa [record, shuttingDown, Touched, hdifferent.symm] using hagain
      exact List.mem_append_left _ (htouched hbefore)
  · -- The session before was disconnected already.
    exact absurd (by simp) (horderly.session front number [])

/-- One call more. -/
theorem Serving.apply {calls : List SocketCall} (hserving : Serving calls sockets)
    (call : SocketCall) (horderly : Orderly (calls ++ [call]) false) :
    Serving (calls ++ [call]) (call.apply sockets) := by
  cases call with
  | serverLoop accepted =>
      cases accepted with
      | none => exact hserving.failed horderly
      | some number => exact hserving.accepted number
  | disconnect => exact hserving.disconnected horderly

/-- Calls in order, one after the other. -/
theorem Listening.serving (hlistening : sockets.Listening) {calls : List SocketCall}
    (horderly : Orderly calls false) : Serving calls (sockets.calls calls) := by
  induction calls using List.reverseRecOn with
  | nil =>
      obtain ⟨descriptor, hls, hserial, hfresh⟩ := hlistening.listening
      refine ⟨hlistening.sound, ⟨descriptor, hls, hserial, ?_, fun h => absurd h hfresh⟩,
        .inl hlistening.session⟩
      rw [calls, List.foldl_nil, hlistening.session]
      exact (Option.some_ne_none _).symm
  | append_singleton calls call ih =>
      rw [calls_append]
      exact (ih horderly.of_append).apply call horderly

/-- The destructor after calls in order. -/
theorem Serving.destroy {calls : List SocketCall} (hserving : Serving calls sockets)
    (horderly : Orderly calls true) : ClosedOnce sockets.destroy.events := by
  obtain ⟨listening, hls, _, hne, htouched⟩ := hserving.listening
  have hfresh : ¬ Touched listening sockets.events :=
    fun h => horderly.destroyedListening rfl (htouched h)
  rw [Sockets.destroy, record, hls]
  rcases hserving.session with hnone | ⟨descriptor, front, number, hs, _, huntouched⟩ |
    ⟨front, number, hcalls⟩
  · rw [hnone]
    exact closedOnce_shuttingDown hserving.sound.once hfresh
  · have hdifferent : listening ≠ descriptor := by
      rintro rfl
      exact hne hs
    rw [hs, ← List.append_assoc]
    apply closedOnce_shuttingDown (closedOnce_shuttingDown hserving.sound.once huntouched)
    simpa [shuttingDown, Touched, hdifferent] using hfresh
  · exact absurd hcalls (horderly.destroyedSession rfl front number)

/-- The descriptors of a life are closed once if and only if its calls are in order. -/
theorem Listening.closedOnce_iff (hlistening : sockets.Listening) (calls : List SocketCall)
    (destroyed : Bool) :
    ClosedOnce (sockets.lifetime calls destroyed).events ↔ Orderly calls destroyed := by
  have hsocket := hlistening.sound.socket
  obtain ⟨listening, hls, _, _⟩ := hlistening.listening
  constructor
  · intro honce
    refine ⟨?_, ?_, ?_, ?_⟩
    · rintro front number back rfl
      obtain ⟨descriptor, hs, hclosed⟩ := calls_disconnected hsocket front number
      have hsplit : front ++ .serverLoop (some number) :: .disconnect :: .disconnect :: back =
          (front ++ [.serverLoop (some number), .disconnect]) ++ [.disconnect] ++ back := by simp
      rw [hsplit] at honce
      have hagain := closedOnce_of_lifetime honce
      rw [events_disconnect hsocket, hs] at hagain
      exact not_closedOnce hclosed (List.mem_cons_of_mem _ List.mem_cons_self) hagain
    · rintro front middle back rfl
      have hclosed : .close listening ∈
          (sockets.calls (front ++ .serverLoop none :: middle)).events :=
        calls_failed hsocket hls (by simp)
      have hsplit : front ++ .serverLoop none :: (middle ++ .serverLoop none :: back) =
          (front ++ .serverLoop none :: middle) ++ [.serverLoop none] ++ back := by simp
      rw [hsplit] at honce
      have hagain := closedOnce_of_lifetime honce
      rw [events_failed hsocket, hls] at hagain
      exact not_closedOnce hclosed List.mem_cons_self hagain
    · rintro rfl front number rfl
      obtain ⟨descriptor, hs, hclosed⟩ := calls_disconnected hsocket front number
      rw [lifetime, if_pos rfl, destroy, record, hs] at honce
      exact not_closedOnce hclosed (by simp [shuttingDown]) honce
    · rintro rfl hfailed
      have hclosed := calls_failed hsocket hls hfailed
      rw [lifetime, if_pos rfl, destroy, record, (calls_members sockets calls).2.1, hls] at honce
      exact not_closedOnce hclosed (by simp [shuttingDown]) honce
  · intro horderly
    cases destroyed with
    | false => exact (hlistening.serving horderly).sound.once
    | true =>
        have hcalls : Orderly calls false :=
          ⟨horderly.session, horderly.listening, fun h => absurd h Bool.false_ne_true,
            fun h => absurd h Bool.false_ne_true⟩
        exact (hlistening.serving hcalls).destroy horderly

end Sockets

/-- The descriptors of a server object are given back once in every life of it whose calls
are in order, and in no other. -/
theorem serverEvents_closedOnce_iff (addrs : List (Option Nat × Bool)) (listen : Bool)
    (calls : List SocketCall) (destroyed : Bool) :
    ClosedOnce (serverEvents addrs listen calls destroyed) ↔
      ((Sockets.server addrs listen).1 = true → Orderly calls destroyed) := by
  obtain ⟨honce, hlistening⟩ := Sockets.server_sound addrs listen
  unfold serverEvents
  generalize Sockets.server addrs listen = constructed at honce hlistening
  obtain ⟨returned, sockets⟩ := constructed
  cases returned with
  | false => exact iff_of_true honce fun h => absurd h Bool.false_ne_true
  | true =>
      rw [(hlistening rfl).closedOnce_iff calls destroyed]
      exact ⟨fun horderly _ => horderly, fun horderly => horderly rfl⟩

/-- A signal after a session closes its descriptor a second time. -/
theorem signal_not_closedOnce :
    ¬ ClosedOnce (serverEvents [(some 3, true)] true [.serverLoop (some 4), .disconnect] true) := by
  intro honce
  have hevents : serverEvents [(some 3, true)] true [.serverLoop (some 4), .disconnect] true =
      [.obtained ⟨3, 0⟩, .obtained ⟨4, 1⟩, .shutdown ⟨4, 1⟩, .close ⟨4, 1⟩] ++
        [.shutdown ⟨4, 1⟩, .close ⟨4, 1⟩, .shutdown ⟨3, 0⟩, .close ⟨3, 0⟩] := by decide
  rw [hevents] at honce
  exact not_closedOnce (by decide) (List.mem_cons_of_mem _ List.mem_cons_self) honce

end RemoteAttestation
