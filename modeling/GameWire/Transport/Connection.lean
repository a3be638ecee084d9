import GameWire.Transport.Framer
import GameWire.Transport.Socket

/-!
# Connections

A connection carries packets over one socket and is polled by its caller. Reading and writing do as
much as the socket allows and never wait: what cannot be finished now stays buffered for the next
call.

A read that gets part of a frame leaves the connection `reading`, and one that completes a frame
leaves it `ready` until the packet is taken. A write that could not be finished leaves it `blocked`.
A failed transfer or a frame that cannot be decoded leaves it `errored`, and closing it `closed`.
-/

namespace GameWire

inductive ConnectionState where
  | idle
  /-- Part of a frame is buffered. -/
  | reading
  /-- A packet waits to be taken. -/
  | ready
  /-- Bytes that go out are still buffered. -/
  | blocked
  | closed
  | errored
  deriving DecidableEq, Repr

def ConnectionState.name : ConnectionState → String
  | idle => "Idle"
  | reading => "Reading"
  | ready => "Ready"
  | blocked => "Blocked"
  | closed => "Closed"
  | errored => "Errored"

structure Connection where
  socket? : Option Socket
  framer : Framer
  /-- Bytes that came in and are not decoded yet. -/
  inbound : Bytes := []
  /-- Bytes that are to go out and that the socket has not accepted yet. -/
  outbound : Bytes := []
  /-- The packet that was read last, until it is taken. -/
  pending? : Option Model := none
  /-- How much is read from the socket at once. -/
  readChunk : Nat
  readChunk_pos : 0 < readChunk
  state : ConnectionState := .idle
  /-- The message of the last call, if it failed. -/
  error : ErrorSlot := {}

namespace Connection

/-! ## Transfers -/

/-- Reads from a socket until a frame decodes or nothing more can be read now. The state is the
framer, the bytes that came in and are not decoded yet, and the socket. -/
def pull (most : Nat) (hm : 0 < most) (framer : Framer) (inbound : Bytes) (socket : Socket) :
    Call (Framer × Bytes × Socket) (Except ProtocolError (Option Model)) :=
  if h : socket.reads = [] then { result := .ok none, state := (framer, inbound, socket) }
  else
    have := Socket.readSize_read_lt hm h
    match (socket.read most).1 with
    | .error e =>
      match e.kind with
      | .wouldBlock =>
        { result := .ok none, state := (framer, inbound, (socket.read most).2) }
      -- A call that was interrupted is made again at once.
      | .interrupted => pull most hm framer inbound (socket.read most).2
      | .permanent =>
        { result := .error (.io e), state := (framer, inbound, (socket.read most).2) }
    -- Reading nothing means that the other side has closed.
    | .ok [] =>
      { result := .error .connectionClosed, state := (framer, inbound, (socket.read most).2) }
    | .ok bs =>
      let next := framer.next (inbound ++ bs)
      let activity := .bytesRead bs.length :: next.activity
      match next.result with
      | .ok none =>
        let pulled := pull most hm next.state.1 next.state.2 (socket.read most).2
        { pulled with activity := activity ++ pulled.activity }
      | result =>
        { result, state := (next.state.1, next.state.2, (socket.read most).2), activity }
  termination_by socket.readSize

/-- Writes to a socket until everything is accepted or nothing more can be written now, and tells
whether everything was. The state is the socket and the bytes it did not accept. -/
def push (socket : Socket) (outbound : Bytes) :
    Call (Socket × Bytes) (Except ProtocolError Bool) :=
  if ho : outbound = [] then { result := .ok true, state := (socket, outbound) }
  else
    match hw : (socket.write outbound).1 with
    | .error e =>
      match e.kind with
      | .wouldBlock => { result := .ok false, state := ((socket.write outbound).2, outbound) }
      -- An answer has been used up, so the retry comes to an end.
      | .interrupted =>
        have := List.length_pos_iff.2 (Socket.writes_ne_nil_of_write_error hw)
        push (socket.write outbound).2 outbound
      | .permanent => { result := .error (.io e), state := ((socket.write outbound).2, outbound) }
    | .ok 0 => { result := .error (.io .writeZero), state := ((socket.write outbound).2, outbound) }
    | .ok (n + 1) =>
      have := List.length_pos_iff.2 ho
      let pushed := push (socket.write outbound).2 (outbound.drop (n + 1))
      { pushed with activity := .bytesWritten (n + 1) :: pushed.activity }
  termination_by (socket.writes.length, outbound.length)
  decreasing_by
    · exact Prod.Lex.left _ _ (by simp; omega)
    · by_cases he : socket.writes.length = 0
      · exact Prod.lex_def.2 (.inr ⟨by simp [he], by simp; omega⟩)
      · exact Prod.Lex.left _ _ (by simp; omega)

/-- Writes to a socket and, when it has accepted everything, flushes it. Tells whether all of that
could be done now. -/
def pushAndFlush (socket : Socket) (outbound : Bytes) :
    Call (Socket × Bytes) (Except ProtocolError Bool) :=
  let pushed := push socket outbound
  match pushed.result with
  | .ok true =>
    let (flushed, socket) := pushed.state.1.flush
    { pushed with
      result := match flushed with
        | .ok () => .ok true
        -- An interrupted flush is not made again: it fails like any other.
        | .error e => if e.kind = .wouldBlock then .ok false else .error (.io e)
      state := (socket, pushed.state.2) }
  | _ => pushed

/-! ## Calls -/

def noSocketMessage : String := "No stream is attached"

/-- The message of a read after a failure. -/
def erroredMessage : String := "Connection is in an error state"

/-- A new connection over a socket. At least one byte is read at once. -/
def ofSocket (socket : Socket) (codec : Codec) (keys : ExchangeKeys) (readChunk : Nat) :
    Call Connection Unit where
  result := ()
  state :=
    { socket? := some socket
      framer := Framer.ofCodec codec keys
      readChunk := max readChunk 1
      readChunk_pos := by omega }
  activity := [.connectionEstablished]

def dialect (c : Connection) : Dialect := c.framer.dialect

def pendingOutput (c : Connection) : Nat := c.outbound.length

def setDialect (c : Connection) (dialect : Dialect) : Connection :=
  { c with framer := c.framer.setDialect dialect, error := .empty }

/-- The state while no packet waits: output that is still buffered counts more than input. -/
def restingState (c : Connection) : ConnectionState :=
  if !c.outbound.isEmpty then .blocked
  else if c.inbound.isEmpty then .idle
  else .reading

/-- The packet that was read last, which is given away. -/
def takePacket (c : Connection) : Call Connection (Option Model) where
  result := c.pending?
  state :=
    { c with
      pending? := none
      state := if c.pending?.isSome ∧ c.state = .ready then c.restingState else c.state }

/-- The outcome of a call that cannot be gone on from. -/
def fail (c : Connection) (e : ProtocolError) : Call Connection Poll where
  result := .failed
  state := { c with state := .errored, error := .ofError e }
  activity := [.connectionFailed]

/-- The next frame, out of the bytes that are there already or from the socket. -/
def pullFrame (c : Connection) (socket : Socket) :
    Call (Framer × Bytes × Socket) (Except ProtocolError (Option Model)) :=
  let next := c.framer.next c.inbound
  match next.result with
  | .ok none =>
    let pulled := pull c.readChunk c.readChunk_pos next.state.1 next.state.2 socket
    { pulled with activity := next.activity ++ pulled.activity }
  | result => { result, state := (next.state.1, next.state.2, socket), activity := next.activity }

/-- Reads until a packet can be taken or nothing more can be read now. A packet that was read before
and not taken is replaced. -/
def read (c : Connection) : Call Connection Poll :=
  match c.socket? with
  | none => { result := .noSocket, state := { c with error := .ofMessage noSocketMessage } }
  | some socket =>
    if c.state = .errored then
      { result := .failed, state := { c with error := .ofMessage erroredMessage } }
    else
      let pulled := c.pullFrame socket
      let (framer, inbound, socket) := pulled.state
      let c := { c with framer, inbound, socket? := some socket, error := .empty }
      match pulled.result with
      | .ok (some m) =>
        { result := .ready
          state := { c with pending? := some m, state := .ready }
          activity := pulled.activity }
      | .ok none =>
        { result := .blocked
          state := { c with state := c.restingState }
          activity := pulled.activity }
      | .error e =>
        let failed := c.fail e
        { failed with activity := pulled.activity ++ failed.activity }

def send (c : Connection) (socket : Socket) : Call Connection Poll :=
  let pushed := pushAndFlush socket c.outbound
  let (socket, outbound) := pushed.state
  let c := { c with outbound, socket? := some socket, error := .empty }
  match pushed.result with
  | .ok true =>
    { result := .ready
      state := { c with state := if c.state = .blocked then c.restingState else c.state }
      activity := pushed.activity }
  | .ok false =>
    { result := .blocked, state := { c with state := .blocked }, activity := pushed.activity }
  | .error e =>
    let failed := c.fail e
    { failed with activity := pushed.activity ++ failed.activity }

/-- Queues a packet, if there is one, and sends what is buffered. A packet that cannot be encoded is
not queued and leaves the connection usable. -/
def write (c : Connection) (entropy : Entropy) (m? : Option Model) : Call Connection Poll :=
  match c.socket?, m? with
  | none, _ => { result := .noSocket, state := { c with error := .ofMessage noSocketMessage } }
  | some socket, none => c.send socket
  | some socket, some m =>
    let encoded := c.framer.encode entropy m
    let c := { c with framer := encoded.state }
    match encoded.result with
    | .error e =>
      { result := .failed
        state := { c with error := .ofError e }
        activity := encoded.activity }
    | .ok bs =>
      let sent := { c with outbound := c.outbound ++ bs }.send socket
      { sent with activity := encoded.activity ++ .frameSent :: sent.activity }

/-! ## Giving up the socket -/

/-- What giving up the socket, if there is one, reports. -/
def farewell (c : Connection) : List Activity :=
  if c.socket?.isSome then [.connectionClosed] else []

/-- Releases the socket and forgets everything that is buffered. -/
def close (c : Connection) : Call Connection Unit where
  result := ()
  state :=
    { c with socket? := none, inbound := [], outbound := [], pending? := none, state := .closed }
  activity := c.farewell

/-- Gives the socket away, and with it the connection. -/
def detach (c : Connection) : Option Socket × List Activity :=
  (c.socket?, c.farewell)

end Connection

end GameWire
