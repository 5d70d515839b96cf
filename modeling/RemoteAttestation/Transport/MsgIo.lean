import RemoteAttestation.Transport.HexUtil

/-! # Message transport

`MsgIo` is created once and serves one client after the other. Its two string
buffers belong to the object, the socket to the session. What the kernel will
answer during a session (`recv`, `send`, `malloc`) is part of the connection, so
every operation is a function of the object's state.
-/

namespace RemoteAttestation

/-- `MSGIO_BUFFER_SZ`, the size of `lbuffer` and the step in which the line
buffer of `readMsg` grows. -/
def msgioBufferSz : Nat := 1024 * 1024

/-- What one `recv` into `lbuffer` can deliver. -/
structure Chunk where
  bytes : Bytes
  fits : bytes.length ≤ msgioBufferSz

/-- Results of `recv`; a connection without further results is closed and
`recv` returns 0. -/
inductive Recv where
  | data (chunk : Chunk)
  | eintr
  | error

/-- Results of `::send`; without further results the kernel takes all it is given. -/
inductive Sent where
  | bytes (count : Nat)
  | eintr
  | error
deriving DecidableEq

/-- What a successful `malloc` finds: the old contents of the new block and
what lies behind it, and the unset variables of the code that fills it. -/
structure Heap where
  contents : Nat → UInt8
  stale : Nat → UInt8

def Heap.blank : Heap := ⟨fun _ => 0, fun _ => 0⟩

/-- A client, by what the kernel will answer on its socket. Without further
entries in `allocs` allocations succeed. -/
structure Connection where
  incoming : List Recv
  outgoing : List Sent
  allocs : List (Option Heap)

/-- The standard streams and the static line buffer of `readMsg`. -/
structure Stdio where
  stdin : Bytes
  /-- Whether the input ends with an error and not with end of file. -/
  ferror : Bool
  stdout : Bytes
  /-- The size `buffer` was allocated with; `none` is the null pointer. -/
  buffer : Option Nat
  bufferSize : Nat
  allocs : List (Option Heap)

structure MsgIo where
  useStdio : Bool
  wbuffer : Bytes
  rbuffer : Bytes
  /-- The session socket. -/
  client : Connection
  /-- What the kernel has accepted for this client. -/
  wire : Bytes
  /-- The clients `accept` will still return. -/
  waiting : List Connection
  stdio : Stdio

/-- The value of `read`, what it assigned to `*dest` (`none`: nothing) and to `*sz`. -/
structure ReadResult where
  rv : Int
  dest : Option Memory
  sz : Nat

/-- The next `malloc`. -/
def malloc (allocs : List (Option Heap)) : Option Heap × List (Option Heap) :=
  (allocs.headD (some .blank), allocs.tail)

/-- A block of `len` bytes after `fromHexstring` stored its bytes at the front. -/
def decodeInto (heap : Heap) (src : Bytes) (len : Nat) : Memory :=
  let stored := (fromHexstring heap.stale src len).2
  let old := (List.range (len - stored.length)).map fun i => heap.contents (stored.length + i)
  { block := stored ++ old
    beyond := fun i => heap.contents (len + i) }

/-- An unsigned length converted to a 32-bit `int`. -/
def toInt32 (n : Nat) : Int := Int.bmod n (2 ^ 32)

/-! ## Standard input -/

/-- `fgets` with room for `n` characters: the characters stored before the
NUL, and the rest of the input. -/
def fgets (n : Int) (stdin : Bytes) : Option (Bytes × Bytes) :=
  if n ≤ 0 then none
  else if n = 1 then some ([], stdin)
  else if stdin = [] then none
  else
    let room := stdin.take (n.toNat - 1)
    let count := match find [10] room with
      | some i => i + 1
      | none => room.length
    some (stdin.take count, stdin.drop count)

/-- What `fgets` is given: an unsigned difference, converted to `int`. -/
def room (bufferSize length : Nat) : Int := Int.bmod ((bufferSize : Int) - length) (2 ^ 32)

/-- `buffer_size` after it was increased. -/
def grown (bufferSize : Nat) : Nat := (bufferSize + msgioBufferSz) % 2 ^ 32

/-- The reading loop of `readMsg`. `line` is the C string in `buffer`; the
result is the return value of a failed read or the line without its newline. -/
def readMsgLoop : Nat → Stdio → Bytes → (Int ⊕ Bytes) × Stdio
  | 0, io, _ => (.inl 0, io)
  | fuel + 1, io, line =>
      match fgets (room io.bufferSize line.length) io.stdin with
      | none => (.inl (if io.ferror then -1 else 0), io)
      | some (chunk, rest) =>
          let line := line ++ cstr chunk
          let io := { io with stdin := rest }
          if line = [] then (.inl 0, io)
          else if line.getLast? = some 10 then (.inr line.dropLast, io)
          else
            let size := grown io.bufferSize
            match malloc io.allocs with
            | (none, allocs) =>
                (.inl (-1), { io with bufferSize := size, buffer := none, allocs })
            | (some _, allocs) =>
                readMsgLoop fuel { io with bufferSize := size, buffer := some size, allocs } line

/-- What `readMsg` makes of the outcome of its loop. -/
def finishMsg : (Int ⊕ Bytes) × Stdio → ReadResult × Stdio
  | (.inl rv, io) => (⟨rv, none, 0⟩, io)
  | (.inr line, io) =>
      let bread := if line.getLast? = some 13 then line.length - 1 else line.length
      if bread % 2 = 1 then (⟨0, none, 0⟩, io)
      else match malloc io.allocs with
        | (none, allocs) => (⟨-1, none, 0⟩, { io with allocs })
        | (some heap, allocs) =>
            (⟨1, some (decodeInto heap (line ++ [10]) (bread / 2)), bread⟩, { io with allocs })

/-- `read_msg`: one line from standard input. -/
def readMsg (io : Stdio) : ReadResult × Stdio :=
  let start : Option Stdio := match io.buffer with
    | some _ => some io
    | none =>
        match malloc io.allocs with
        | (none, _) => none
        | (some _, allocs) => some { io with buffer := some io.bufferSize, allocs }
  match start with
  | none => (⟨-1, none, 0⟩, { io with allocs := io.allocs.tail })
  -- Every iteration but the first after a growth consumes input.
  | some io => finishMsg (readMsgLoop (2 * io.stdin.length + 2) io [])

/-! ## Socket -/

/-- Where the first line of `rbuffer` ends, and the length of its terminator.
A `\r\n` anywhere is preferred to the first `\n`. -/
def lineEnd (rbuffer : Bytes) : Option (Nat × Nat) :=
  match find [13, 10] rbuffer with
  | some idx => some (idx, 2)
  | none => (find [10] rbuffer).map fun idx => (idx, 1)

/-- The socket branch of `MsgIO::read`, with the buffer and the part of the
connection it changes. -/
structure ReadState where
  result : ReadResult
  rbuffer : Bytes
  incoming : List Recv
  allocs : List (Option Heap)

/-- What `read` does with a buffer that holds a line ending at `idx`. -/
def takeLine (rbuffer : Bytes) (incoming : List Recv) (allocs : List (Option Heap))
    (idx ws : Nat) : ReadState :=
  if idx = 0 then ⟨⟨1, none, 0⟩, rbuffer, incoming, allocs⟩
  else if idx % 2 = 1 then ⟨⟨0, none, 0⟩, rbuffer, incoming, allocs⟩
  else match malloc allocs with
    | (none, allocs) => ⟨⟨-1, none, idx⟩, rbuffer, incoming, allocs⟩
    | (some heap, allocs) =>
        ⟨⟨1, some (decodeInto heap rbuffer (idx / 2)), idx⟩, rbuffer.drop (idx + ws),
          incoming, allocs⟩

/-- The receive loop of `MsgIO::read`: it always waits for new bytes before it
looks at `rbuffer`. -/
def readLoop (allocs : List (Option Heap)) : List Recv → Bytes → ReadState
  | [], rbuffer => ⟨⟨0, none, 0⟩, rbuffer, [], allocs⟩
  | .eintr :: incoming, rbuffer => readLoop allocs incoming rbuffer
  | .error :: incoming, rbuffer => ⟨⟨-1, none, 0⟩, rbuffer, incoming, allocs⟩
  | .data chunk :: incoming, rbuffer =>
      if chunk.bytes = [] then ⟨⟨0, none, 0⟩, rbuffer, incoming, allocs⟩
      else match lineEnd (rbuffer ++ chunk.bytes) with
        | none => readLoop allocs incoming (rbuffer ++ chunk.bytes)
        | some (idx, ws) => takeLine (rbuffer ++ chunk.bytes) incoming allocs idx ws

/-- What a `::send` loop leaves: the unsent bytes, the bytes on the wire and
the results not used. -/
structure SendState where
  wbuffer : Bytes
  wire : Bytes
  outgoing : List Sent

/-- The loop of `MsgIO::send`. The length of the buffer is passed as an `int`; a
negative one is refused by the kernel like any other error. -/
def sendLoop : List Sent → Bytes → Bytes → SendState
  | [], wbuffer, wire =>
      if toInt32 wbuffer.length = wbuffer.length then ⟨[], wire ++ wbuffer, []⟩
      else ⟨wbuffer, wire, []⟩
  | result :: outgoing, wbuffer, wire =>
      if wbuffer = [] then ⟨[], wire, result :: outgoing⟩
      else match result with
        | .eintr => sendLoop outgoing wbuffer wire
        | .error => ⟨wbuffer, wire, outgoing⟩
        | .bytes count =>
            if toInt32 wbuffer.length < 0 then ⟨wbuffer, wire, outgoing⟩
            else
              let bsent := min count (toInt32 wbuffer.length).toNat
              if bsent = wbuffer.length then ⟨[], wire ++ wbuffer, outgoing⟩
              else sendLoop outgoing (wbuffer.drop bsent) (wire ++ wbuffer.take bsent)

namespace MsgIo

/-- The constructor that listens on a socket; both buffers start empty. -/
def listen (waiting : List Connection) : MsgIo :=
  { useStdio := false
    wbuffer := []
    rbuffer := []
    client := ⟨[], [], []⟩
    wire := []
    waiting
    stdio := ⟨[], false, [], none, 0, []⟩ }

/-- `server_loop`: whether there is a client to serve. -/
def serverLoop (msgio : MsgIo) : Bool × MsgIo :=
  if msgio.useStdio then (true, msgio)
  else match msgio.waiting with
    | [] => (false, msgio)
    | client :: waiting => (true, { msgio with client, wire := [], waiting })

/-- `disconnect` closes the session socket and touches neither buffer. -/
def disconnect (msgio : MsgIo) : MsgIo :=
  if msgio.useStdio then msgio else { msgio with client := ⟨[], [], []⟩ }

def read (msgio : MsgIo) : ReadResult × MsgIo :=
  if msgio.useStdio then
    let (result, stdio) := readMsg msgio.stdio
    (result, { msgio with stdio })
  else
    let state := readLoop msgio.client.allocs msgio.client.incoming msgio.rbuffer
    (state.result,
      { msgio with
        rbuffer := state.rbuffer
        client := { msgio.client with incoming := state.incoming, allocs := state.allocs } })

def sendPartial (msgio : MsgIo) (src : Bytes) : MsgIo :=
  if msgio.useStdio then
    { msgio with stdio := { msgio.stdio with stdout := msgio.stdio.stdout ++ hexstring src } }
  else { msgio with wbuffer := msgio.wbuffer ++ hexstring src }

def send (msgio : MsgIo) (src : Bytes) : MsgIo :=
  if msgio.useStdio then
    { msgio with
      stdio := { msgio.stdio with stdout := msgio.stdio.stdout ++ hexstring src ++ [10] } }
  else
    let state := sendLoop msgio.client.outgoing (msgio.wbuffer ++ hexstring src ++ [10]) msgio.wire
    { msgio with
      wbuffer := state.wbuffer
      wire := state.wire
      client := { msgio.client with outgoing := state.outgoing } }

end MsgIo

end RemoteAttestation
