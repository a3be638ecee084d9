import GameWire.Proofs.Transport.Inbound
import GameWire.Proofs.Transport.Reports

/-!
# Traffic

What crosses the socket of a connection is what its calls report: every byte that a read hands over
or a write accepts, every packet that is read as a frame, and every packet that is encoded.  Without
frames the packets that are read are not counted.
-/

namespace GameWire

namespace Socket

/-- Writing leaves alone what is going to be read. -/
theorem payload_write (socket : Socket) (offered : Bytes) :
    (socket.write offered).2.payload = socket.payload := by
  unfold Socket.write
  split <;> rfl

theorem payload_flush (socket : Socket) : socket.flush.2.payload = socket.payload := by
  unfold Socket.flush
  split <;> rfl

end Socket

namespace Connection

/-- What crosses the socket between two states of a connection, and what a tally says of it. -/
structure Moves (c c' : Connection) (t : Tally) (framesIn framesOut : Nat) : Prop where
  payload : ∃ received, c.payload = received ++ c'.payload ∧ t.bytesIn = received.length
  accepted : ∃ sent, c'.accepted = c.accepted ++ sent ∧ t.bytesOut = sent.length
  framesIn : t.framesIn = framesIn
  framesOut : t.framesOut = framesOut

section Moves

variable {c c' c'' : Connection}

/-- Without the socket nothing is moved, whatever keys are exchanged and frames are queued. -/
theorem moves_of_socket_eq (h : c'.socket? = c.socket?) (established rejected framesOut : Nat) :
    c.Moves c' (.exchanges established rejected + { framesOut }) 0 framesOut where
  payload := ⟨[], by unfold Connection.payload; rw [h]; rfl, rfl⟩
  accepted := ⟨[], by unfold Connection.accepted; rw [h, List.append_nil], rfl⟩
  framesIn := rfl
  framesOut := Nat.zero_add _

theorem Moves.trans {s t : Tally} {i i' o o' : Nat} (h : c.Moves c' s i o)
    (h' : c'.Moves c'' t i' o') : c.Moves c'' (s + t) (i + i') (o + o') where
  payload := by
    obtain ⟨received, hpayload, hin⟩ := h.payload
    obtain ⟨more, hpayload', hin'⟩ := h'.payload
    refine ⟨received ++ more, ?_, ?_⟩
    · rw [hpayload, hpayload', List.append_assoc]
    · rw [List.length_append, ← hin, ← hin']
      rfl
  accepted := by
    obtain ⟨sent, haccepted, hout⟩ := h.accepted
    obtain ⟨more, haccepted', hout'⟩ := h'.accepted
    refine ⟨sent ++ more, ?_, ?_⟩
    · rw [haccepted', haccepted, List.append_assoc]
    · rw [List.length_append, ← hout, ← hout']
      rfl
  framesIn := by
    rw [← h.framesIn, ← h'.framesIn]
    rfl
  framesOut := by
    rw [← h.framesOut, ← h'.framesOut]
    rfl

end Moves

/-! ## Reading -/

/-- The pieces that are read are reported by their lengths. -/
theorem tally_pieces (pieces : List Bytes) :
    Tally.of (pieces.map (.bytesRead ·.length)) = { bytesIn := pieces.flatten.length } := by
  induction pieces with
  | nil => rfl
  | cons piece pieces ih =>
    show Tally.one (.bytesRead piece.length) + Tally.of (pieces.map (.bytesRead ·.length)) = _
    rw [ih, List.flatten_cons, List.length_append]
    rfl

/-- A socket that fails while the framer waits does not make a packet of what is there. -/
theorem Intake.isPacket_eq {f : Framer} {inbound : Bytes} {pieces : List Bytes} {socket : Socket}
    {most : Nat} {p : Call (Framer × Bytes × Socket) (Except ProtocolError (Option Model))}
    (h : Intake f inbound pieces socket most p) :
    Framer.isPacket (f.next (inbound ++ pieces.flatten)).result = Framer.isPacket p.result := by
  rcases h.result with hsame | ⟨hnone, e, he⟩
  · rw [hsame]
  · rw [hnone, he]
    rfl

theorem isReady_read {c : Connection} {socket : Socket} (hs : c.socket? = some socket)
    (hstate : c.state ≠ .errored) :
    c.read.result.isReady = Framer.isPacket (c.pullFrame socket).result := by
  cases hr : (c.pullFrame socket).result with
  | error e =>
    rw [(read_of_error hs hstate hr).1]
    rfl
  | ok m? =>
    cases m? with
    | none =>
      rw [(read_of_none hs hstate hr).1]
      rfl
    | some m =>
      rw [(read_of_packet hs hstate hr).1]
      rfl

theorem moves_read (c : Connection) :
    c.Moves c.read.state (.of c.read.activity) (c.read.result.isReady && !c.dialect.isRaw).toNat
      0 := by
  rw [activity_read]
  cases hs : c.socket? with
  | none =>
    obtain ⟨hr, hc⟩ := read_of_noSocket hs
    rw [hr, hc]
    exact moves_of_socket_eq (by rfl) 0 0 0
  | some socket =>
    by_cases he : c.state = .errored
    · obtain ⟨hr, hc⟩ := read_of_errored (by rw [hs]; rfl) he
      rw [hr, hc]
      simp only [if_pos he]
      exact moves_of_socket_eq (by rfl) 0 0 0
    · simp only [if_neg he]
      obtain ⟨-, -, hsocket, -⟩ := read_pulled hs he
      -- The pieces that are taken off the socket are the bytes that the read reports.
      obtain ⟨pieces, hintake⟩ := c.exists_intake socket
      obtain ⟨rejected, hnext⟩ := c.framer.exists_tally_next (c.inbound ++ pieces.flatten)
      rw [hintake.isPacket_eq, ← isReady_read hs he] at hnext
      have htally : Tally.of ((c.pullFrame socket).activity ++
          Codec.onFailure (c.pullFrame socket).result .connectionFailed) =
            { bytesIn := pieces.flatten.length } + Tally.of
              (c.framer.next (c.inbound ++ pieces.flatten)).activity := by
        rw [Tally.of_append, Tally.of_onFailure rfl, add_zero, hintake.activity, Tally.of_append,
          tally_pieces]
      rw [htally, hnext]
      refine ⟨⟨pieces.flatten, ?_, rfl⟩, ⟨[], ?_, rfl⟩, ?_, rfl⟩
      · unfold Connection.payload
        rw [hs, hsocket]
        exact hintake.payload
      · rw [c.read_conserves.1, List.append_nil]
      · rw [Bool.and_comm]
        exact (Nat.zero_add _).trans (Nat.zero_add _)

/-! ## Writing -/

/-- What a push reports is what the socket has accepted. -/
theorem exists_sent_push (socket : Socket) (outbound : Bytes) :
    (push socket outbound).state.1.payload = socket.payload ∧
      ∃ sent, (push socket outbound).state.1.accepted = socket.accepted ++ sent ∧
        Tally.of (push socket outbound).activity = { bytesOut := sent.length } := by
  fun_induction push socket outbound with
  | case1 socket => exact ⟨rfl, [], (List.append_nil _).symm, rfl⟩
  | case2 socket outbound _ e hw _ =>
    refine ⟨socket.payload_write outbound, [], ?_, rfl⟩
    rw [accepted_write_error hw, List.append_nil]
  | case3 socket outbound _ e hw _ _ ih =>
    rw [accepted_write_error hw, socket.payload_write] at ih
    exact ih
  | case4 socket outbound _ e hw _ =>
    refine ⟨socket.payload_write outbound, [], ?_, rfl⟩
    rw [accepted_write_error hw, List.append_nil]
  | case5 socket outbound _ hw =>
    exact ⟨socket.payload_write outbound, [], (accepted_write_ok hw).1, rfl⟩
  | case6 socket outbound _ n hw _ pushed ih =>
    obtain ⟨haccepted, hle⟩ := accepted_write_ok hw
    obtain ⟨hpayload, sent, hsent, htally⟩ := ih
    refine ⟨hpayload.trans (socket.payload_write outbound), outbound.take (n + 1) ++ sent, ?_, ?_⟩
    · rw [← List.append_assoc, ← haccepted]
      exact hsent
    · show Tally.one (.bytesWritten (n + 1)) + Tally.of pushed.activity = _
      rw [htally, List.length_append, List.length_take_of_le hle]
      rfl

theorem exists_sent_pushAndFlush (socket : Socket) (outbound : Bytes) :
    (pushAndFlush socket outbound).state.1.payload = socket.payload ∧
      ∃ sent, (pushAndFlush socket outbound).state.1.accepted = socket.accepted ++ sent ∧
        Tally.of (pushAndFlush socket outbound).activity = { bytesOut := sent.length } := by
  obtain ⟨hpayload, sent, hsent, htally⟩ := exists_sent_push socket outbound
  unfold pushAndFlush
  simp only
  split
  · exact ⟨(Socket.payload_flush _).trans hpayload, sent, (accepted_flush _).trans hsent, htally⟩
  · exact ⟨hpayload, sent, hsent, htally⟩

theorem moves_send {c : Connection} {socket : Socket} (hs : c.socket? = some socket) :
    c.Moves (c.send socket).state (.of (c.send socket).activity) 0 0 := by
  obtain ⟨hpayload, sent, hsent, htally⟩ := exists_sent_pushAndFlush socket c.outbound
  have hsocket : (c.send socket).state.socket? =
      some (pushAndFlush socket c.outbound).state.1 := by
    unfold send fail
    simp only
    split <;> rfl
  rw [activity_send, Tally.of_append, Tally.of_onFailure rfl, add_zero, htally]
  refine ⟨⟨[], ?_, rfl⟩, ⟨sent, ?_, rfl⟩, rfl, rfl⟩
  · unfold Connection.payload
    rw [hs, hsocket]
    exact hpayload.symm
  · unfold Connection.accepted
    rw [hs, hsocket]
    exact hsent

/-! ## Any sequence of calls -/

def reportedBy (c : Connection) : Operation → List Activity
  | .read => c.read.activity
  | .write entropy m? => (c.write entropy m?).activity
  | .take => c.takePacket.activity
  | .setDialect _ => []

def readsPacket (c : Connection) : Operation → Bool
  | .read => c.read.result.isReady
  | .write _ _ | .take | .setDialect _ => false

/-- Whether a call reads a packet that came as a frame. -/
def readsFrame (c : Connection) (op : Operation) : Bool := c.readsPacket op && !c.dialect.isRaw

/-- Whether a call writes a packet that can be encoded. -/
def queuesFrame (c : Connection) : Operation → Bool
  | .write entropy (some m) => c.socket?.isSome && (c.framer.encode entropy m).result.isOk
  | .write _ none | .read | .take | .setDialect _ => false

theorem moves_write (c : Connection) (entropy : Entropy) (m? : Option Model) :
    c.Moves (c.write entropy m?).state (.of (c.write entropy m?).activity) 0
      (c.queuesFrame (.write entropy m?)).toNat := by
  rw [activity_write]
  unfold queuesFrame
  cases hs : c.socket? with
  | none =>
    rw [(write_of_noSocket hs entropy m?).2]
    cases m? <;> exact moves_of_socket_eq (by rfl) 0 0 0
  | some socket =>
    cases m? with
    | none =>
      rw [write_of_none hs]
      exact moves_send hs
    | some m =>
      obtain ⟨established, rejected, hencode⟩ : ∃ established rejected,
          Tally.of (c.framer.encode entropy m).activity = .exchanges established rejected :=
        ⟨_, c.framer.exists_tally_encode entropy m⟩
      simp only
      rw [Tally.of_append, hencode]
      cases he : (c.framer.encode entropy m).result with
      | error e =>
        rw [(write_of_error hs he).2]
        exact moves_of_socket_eq (by rfl) established rejected 0
      | ok bs =>
        rw [(write_of_ok hs he).2]
        show c.Moves _ (_ + (_ + Tally.of _)) (0 + 0) (1 + 0)
        rw [← add_assoc]
        have hqueue : c.Moves (c.queue (c.framer.encode entropy m).state bs)
            (.exchanges established rejected + { framesOut := 1 }) 0 1 :=
          moves_of_socket_eq (by rfl) established rejected 1
        exact hqueue.trans (moves_send hs)

theorem moves_perform (c : Connection) (op : Operation) :
    c.Moves (c.perform op) (.of (c.reportedBy op)) (c.readsFrame op).toNat
      (c.queuesFrame op).toNat := by
  cases op with
  | read => exact c.moves_read
  | write entropy m? => exact c.moves_write entropy m?
  | take => exact moves_of_socket_eq (by rfl) 0 0 0
  | setDialect dialect => exact moves_of_socket_eq (by rfl) 0 0 0

theorem moves_run (c : Connection) (ops : List Operation) :
    c.Moves (c.run ops) (.of (reportAll perform reportedBy c ops))
      (countCalls perform readsFrame c ops) (countCalls perform queuesFrame c ops) := by
  induction ops generalizing c with
  | nil => exact moves_of_socket_eq (by rfl) 0 0 0
  | cons op ops ih =>
    show c.Moves ((c.perform op).run ops) (.of (c.reportedBy op ++ _)) _ _
    rw [Tally.of_append]
    exact (c.moves_perform op).trans (ih (c.perform op))

/-- The counters of bytes grow by what the socket has handed over and what it has accepted, and the
counters of frames by the packets that are read under a dialect with frames and by the packets that
are encoded. -/
theorem run_counts_traffic (c : Connection) (ops : List Operation) (m : Metrics) :
    let m' := m.recordAll (reportAll perform reportedBy c ops)
    ∃ received sent, c.payload = received ++ (c.run ops).payload ∧
      (c.run ops).accepted = c.accepted ++ sent ∧
      m'.bytesIn = m.bytesIn + UInt64.ofNat received.length ∧
      m'.bytesOut = m.bytesOut + UInt64.ofNat sent.length ∧
      m'.framesIn = m.framesIn + UInt64.ofNat (countCalls perform readsFrame c ops) ∧
      m'.framesOut = m.framesOut + UInt64.ofNat (countCalls perform queuesFrame c ops) := by
  intro m'
  have hmoves := c.moves_run ops
  have hgrows := m.grows_recordAll (reportAll perform reportedBy c ops)
  obtain ⟨received, hpayload, hin⟩ := hmoves.payload
  obtain ⟨sent, haccepted, hout⟩ := hmoves.accepted
  refine ⟨received, sent, hpayload, haccepted, ?_, ?_, ?_, ?_⟩
  · rw [← hin]
    exact hgrows.bytesIn
  · rw [← hout]
    exact hgrows.bytesOut
  · rw [← hmoves.framesIn]
    exact hgrows.framesIn
  · rw [← hmoves.framesOut]
    exact hgrows.framesOut

theorem run_counts_traffic_raw :
    let c := (ofSocket { reads := [.bytes [1, 2, 3]] } (.ofDialect .raw) {} 4096).state
    countCalls perform readsPacket c [.read] = 1 ∧
      (Metrics.recordAll {} (reportAll perform reportedBy c [.read])).framesIn = 0 := by
  intro c
  have hready : c.read.result = .ready := by
    unfold read c ofSocket pullFrame
    simp only
    rw [pull]
    rfl
  have hgrows := Metrics.grows_recordAll {} (reportAll perform reportedBy c [.read])
  constructor
  · show c.read.result.isReady.toNat + 0 = 1
    rw [hready]
    rfl
  · rw [hgrows.framesIn, (c.moves_run [.read]).framesIn]
    show (0 : UInt64) + UInt64.ofNat ((c.read.result.isReady && !c.dialect.isRaw).toNat + 0) = 0
    rw [hready]
    rfl

end Connection

end GameWire
