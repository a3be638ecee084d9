import GameWire.Transport.Connection

/-!
# Calls on a connection

What each way out of a read or a write leaves behind, and connections after any sequence of calls.
-/

namespace GameWire.Connection

/-! ## Reading -/

theorem read_of_noSocket {c : Connection} (hs : c.socket? = none) :
    c.read.result = .noSocket ∧
      c.read.state = { c with error := .ofMessage noSocketMessage } := by
  unfold read
  simp only [hs, and_self]

section Read

variable {c : Connection} {socket : Socket} (hs : c.socket? = some socket)
  (hstate : c.state ≠ .errored)
include hs hstate

/-- A packet that was read waits to be taken. -/
theorem read_of_packet {m : Model} (hr : (c.pullFrame socket).result = .ok (some m)) :
    c.read.result = .ready ∧ c.read.state =
      { c with
        framer := (c.pullFrame socket).state.1
        inbound := (c.pullFrame socket).state.2.1
        socket? := some (c.pullFrame socket).state.2.2
        error := .empty
        pending? := some m
        state := .ready } := by
  unfold read
  simp only [hs, if_neg hstate, hr, and_self]

theorem read_of_none (hr : (c.pullFrame socket).result = .ok none) :
    c.read.result = .blocked ∧ c.read.state =
      let after : Connection :=
        { c with
          framer := (c.pullFrame socket).state.1
          inbound := (c.pullFrame socket).state.2.1
          socket? := some (c.pullFrame socket).state.2.2
          error := .empty }
      { after with state := after.restingState } := by
  unfold read
  simp only [hs, if_neg hstate, hr, and_self]

theorem read_of_error {e : ProtocolError} (hr : (c.pullFrame socket).result = .error e) :
    c.read.result = .failed ∧ c.read.state =
      { c with
        framer := (c.pullFrame socket).state.1
        inbound := (c.pullFrame socket).state.2.1
        socket? := some (c.pullFrame socket).state.2.2
        state := .errored
        error := .ofError e } := by
  unfold read fail
  simp only [hs, if_neg hstate, hr, and_self]

/-- Whatever comes of it, a read leaves the connection with what was pulled. -/
theorem read_pulled :
    c.read.state.framer = (c.pullFrame socket).state.1 ∧
      c.read.state.inbound = (c.pullFrame socket).state.2.1 ∧
      c.read.state.socket? = some (c.pullFrame socket).state.2.2 ∧
      c.read.state.readChunk = c.readChunk := by
  cases hr : (c.pullFrame socket).result with
  | error e => rw [(read_of_error hs hstate hr).2]; exact ⟨rfl, rfl, rfl, rfl⟩
  | ok m? =>
    cases m? with
    | none => rw [(read_of_none hs hstate hr).2]; exact ⟨rfl, rfl, rfl, rfl⟩
    | some m => rw [(read_of_packet hs hstate hr).2]; exact ⟨rfl, rfl, rfl, rfl⟩

end Read

/-- A read reports what pulling does, and its own failure. -/
theorem activity_read (c : Connection) :
    c.read.activity =
      match c.socket? with
      | none => []
      | some socket =>
        if c.state = .errored then []
        else
          (c.pullFrame socket).activity ++
            Codec.onFailure (c.pullFrame socket).result .connectionFailed := by
  unfold read fail
  cases c.socket? with
  | none => rfl
  | some socket =>
    by_cases he : c.state = .errored
    · simp only [if_pos he]
    · simp only [if_neg he]
      cases (c.pullFrame socket).result with
      | error e => rfl
      | ok m? =>
        cases m? with
        | none => exact (List.append_nil _).symm
        | some m => exact (List.append_nil _).symm

/-- Only a packet makes a read ready. -/
theorem read_eq_ready {c : Connection} (h : c.read.result = .ready) :
    ∃ socket m, c.socket? = some socket ∧ c.state ≠ .errored ∧
      (c.pullFrame socket).result = .ok (some m) := by
  unfold read at h
  split at h
  · cases h
  · rename_i socket hs
    by_cases he : c.state = .errored
    · rw [if_pos he] at h
      cases h
    · rw [if_neg he] at h
      cases hr : (c.pullFrame socket).result with
      | error e => simp only [hr] at h; cases h
      | ok m? =>
        cases m? with
        | none => simp only [hr] at h; cases h
        | some m => exact ⟨socket, m, hs, he, hr⟩

/-- What is buffered decides the state of rest. -/
theorem restingState_cases (c : Connection) :
    c.restingState = .blocked ∧ c.outbound ≠ [] ∨
      c.restingState = .idle ∧ c.inbound = [] ∧ c.outbound = [] ∨
      c.restingState = .reading ∧ c.inbound ≠ [] ∧ c.outbound = [] := by
  unfold restingState
  cases c.outbound with
  | cons b bs => exact .inl ⟨rfl, List.cons_ne_nil b bs⟩
  | nil =>
    cases c.inbound with
    | nil => exact .inr (.inl ⟨rfl, rfl, rfl⟩)
    | cons b bs => exact .inr (.inr ⟨rfl, List.cons_ne_nil b bs, rfl⟩)

/-- The other states are never states of rest. -/
theorem restingState_ne (c : Connection) {state : ConnectionState}
    (h : state = .ready ∨ state = .closed ∨ state = .errored) : c.restingState ≠ state := by
  rcases c.restingState_cases with ⟨hr, -⟩ | ⟨hr, -⟩ | ⟨hr, -⟩ <;>
    rcases h with rfl | rfl | rfl <;> rw [hr] <;> decide

/-! ## Writing -/

section Send

variable {c : Connection} {socket : Socket}

/-- A connection that has pushed what goes out, before it knows what came of it. -/
def pushed (c : Connection) (socket : Socket) : Connection :=
  { c with
    outbound := (pushAndFlush socket c.outbound).state.2
    socket? := some (pushAndFlush socket c.outbound).state.1
    error := .empty }

/-- Only a blocked connection changes its state when everything is sent. -/
theorem send_of_done (hr : (pushAndFlush socket c.outbound).result = .ok true) :
    (c.send socket).result = .ready ∧ (c.send socket).state =
      { c.pushed socket with
        state := if c.state = .blocked then (c.pushed socket).restingState else c.state } := by
  unfold send pushed
  simp only [hr, and_self]

theorem send_of_waiting (hr : (pushAndFlush socket c.outbound).result = .ok false) :
    (c.send socket).result = .blocked ∧
      (c.send socket).state = { c.pushed socket with state := .blocked } := by
  unfold send pushed
  simp only [hr, and_self]

theorem send_of_error {e : ProtocolError}
    (hr : (pushAndFlush socket c.outbound).result = .error e) :
    (c.send socket).result = .failed ∧
      (c.send socket).state = { c.pushed socket with state := .errored, error := .ofError e } := by
  unfold send pushed fail
  simp only [hr, and_self]

/-- Sending reports what pushing does, and its own failure. -/
theorem activity_send (c : Connection) (socket : Socket) :
    (c.send socket).activity =
      (pushAndFlush socket c.outbound).activity ++
        Codec.onFailure (pushAndFlush socket c.outbound).result .connectionFailed := by
  unfold send fail
  simp only
  cases (pushAndFlush socket c.outbound).result with
  | error e => rfl
  | ok done =>
    cases done with
    | true => exact (List.append_nil _).symm
    | false => exact (List.append_nil _).symm

/-- Sending leaves alone what comes in. -/
theorem send_inbound (c : Connection) (socket : Socket) :
    (c.send socket).state.framer = c.framer ∧ (c.send socket).state.inbound = c.inbound ∧
      (c.send socket).state.readChunk = c.readChunk := by
  unfold send fail
  simp only
  split <;> exact ⟨rfl, rfl, rfl⟩

end Send

section Write

variable {c : Connection} {entropy : Entropy}

theorem write_of_noSocket (hs : c.socket? = none) (entropy : Entropy) (m? : Option Model) :
    (c.write entropy m?).result = .noSocket ∧
      (c.write entropy m?).state = { c with error := .ofMessage noSocketMessage } := by
  unfold write
  simp only [hs, and_self]

theorem write_of_none {socket : Socket} (hs : c.socket? = some socket) :
    c.write entropy none = c.send socket := by
  unfold write
  simp only [hs]

theorem write_of_error {socket : Socket} {m : Model} {e : ProtocolError}
    (hs : c.socket? = some socket) (he : (c.framer.encode entropy m).result = .error e) :
    (c.write entropy (some m)).result = .failed ∧ (c.write entropy (some m)).state =
      { c with framer := (c.framer.encode entropy m).state, error := .ofError e } := by
  unfold write
  simp only [hs, he, and_self]

/-- A connection that has queued bytes for a model, before it sends any. -/
def queue (c : Connection) (framer : Framer) (bs : Bytes) : Connection :=
  { c with framer, outbound := c.outbound ++ bs }

theorem write_of_ok {socket : Socket} {m : Model} {bs : Bytes}
    (hs : c.socket? = some socket) (he : (c.framer.encode entropy m).result = .ok bs) :
    (c.write entropy (some m)).result =
        ((c.queue (c.framer.encode entropy m).state bs).send socket).result ∧
      (c.write entropy (some m)).state =
        ((c.queue (c.framer.encode entropy m).state bs).send socket).state := by
  unfold write queue
  simp only [hs, he, and_self]

/-- A write reports what encoding does, and then what sending does. -/
theorem activity_write (c : Connection) (entropy : Entropy) (m? : Option Model) :
    (c.write entropy m?).activity =
      match c.socket?, m? with
      | none, _ => []
      | some socket, none => (c.send socket).activity
      | some socket, some m =>
        (c.framer.encode entropy m).activity ++
          match (c.framer.encode entropy m).result with
          | .error _ => []
          | .ok bs =>
            .frameSent ::
              ((c.queue (c.framer.encode entropy m).state bs).send socket).activity := by
  unfold write queue
  cases c.socket? with
  | none => rfl
  | some socket =>
    cases m? with
    | none => rfl
    | some m =>
      simp only
      cases (c.framer.encode entropy m).result with
      | error e => exact (List.append_nil _).symm
      | ok bs => rfl

end Write

/-! ## Sequences of calls -/

/-- A call on a connection that is not closed. -/
inductive Operation where
  | read
  | write (entropy : Entropy) (m? : Option Model)
  | take
  | setDialect (dialect : Dialect)

def perform (c : Connection) : Operation → Connection
  | .read => c.read.state
  | .write entropy m? => (c.write entropy m?).state
  | .take => c.takePacket.state
  | .setDialect dialect => c.setDialect dialect

def run (c : Connection) : List Operation → Connection
  | [] => c
  | op :: ops => (c.perform op).run ops

end GameWire.Connection
