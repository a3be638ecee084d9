import GameWire.Proofs.Transport.Calls
import GameWire.Proofs.Transport.Framer

/-!
# Reading a fragmented stream

However a socket cuts a stream into pieces, and whatever it answers between them, polling a
connection comes to the same as draining the whole stream at once.
-/

namespace GameWire

/-! ## Streams in pieces -/

/-- The answers to reads that hand over a payload: pieces of it, between failures after which the
call can be made again.  In the end the socket has nothing more to say, or the stream has ended. -/
inductive Socket.Streams : List ReadAnswer → (payload : Bytes) → (ended : Bool) → Prop
  | silent : Streams [] [] false
  | ended (later : List ReadAnswer) : Streams (.bytes [] :: later) [] true
  | piece {bs payload : Bytes} {ended : Bool} {reads : List ReadAnswer} (hbs : bs ≠ [])
      (h : Streams reads payload ended) : Streams (.bytes bs :: reads) (bs ++ payload) ended
  | again {e : IoError} {payload : Bytes} {ended : Bool} {reads : List ReadAnswer}
      (he : e.kind ≠ .permanent) (h : Streams reads payload ended) :
      Streams (.failed e :: reads) payload ended

namespace Socket

/-- A read that hands over bytes leaves that much less to be read. -/
theorem readSize_read_bytes {s : Socket} {most : Nat} {bs : Bytes}
    (h : (s.read most).1 = .ok bs) : (s.read most).2.readSize + bs.length ≤ s.readSize := by
  unfold read readSize at *
  cases hr : s.reads with
  | nil => rw [hr] at h; cases h
  | cons answer reads =>
    cases answer with
    | failed e => rw [hr] at h; cases h
    | bytes all =>
      rw [hr] at h
      simp only [Except.ok.injEq] at h
      subst h
      by_cases hd : (all.drop most).isEmpty
      · simp only [hd, if_true, List.foldr_cons, ReadAnswer.size, List.length_take]
        omega
      · simp only [hd, Bool.false_eq_true, if_false, List.foldr_cons, ReadAnswer.size,
          List.length_drop, List.length_take]
        omega

/-- What a read of a stream comes to. -/
theorem Streams.read {s : Socket} {payload : Bytes} {ended : Bool} {most : Nat}
    (h : Streams s.reads payload ended) (hm : 0 < most) (hne : s.reads ≠ []) :
    (∃ e, (s.read most).1 = .error e ∧ e.kind ≠ .permanent ∧
        Streams (s.read most).2.reads payload ended) ∨
      ((s.read most).1 = .ok [] ∧ payload = [] ∧ ended = true) ∨
      ∃ bs left, (s.read most).1 = .ok bs ∧ bs ≠ [] ∧ payload = bs ++ left ∧
        Streams (s.read most).2.reads left ended := by
  unfold Socket.read
  generalize s.reads = reads at h hne ⊢
  cases h with
  | silent => exact absurd rfl hne
  | ended later =>
    refine .inr (.inl ⟨?_, rfl, rfl⟩)
    simp only [List.take_nil]
  | again he h => exact .inl ⟨_, rfl, he, h⟩
  | @piece bs payload _ reads hbs h =>
    have hfront : bs.take most ≠ [] := by
      intro hnil
      rcases List.take_eq_nil_iff.1 hnil with h0 | hb
      · omega
      · exact hbs hb
    refine .inr (.inr ⟨bs.take most, bs.drop most ++ payload, rfl, hfront, ?_, ?_⟩)
    · rw [← List.append_assoc, List.take_append_drop]
    -- What is not asked for of a piece is left for the next read.
    · by_cases hd : bs.drop most = []
      · simp only [hd, List.isEmpty_nil, if_true, List.nil_append]
        exact h
      · have he : (bs.drop most).isEmpty = false := by
          rw [List.isEmpty_eq_false_iff]
          exact hd
        simp only [he, Bool.false_eq_true, if_false]
        exact .piece hd h

end Socket

namespace Connection

/-! ## One read -/

/-- What a read comes to while the framer waits for more behind `inbound`.  Either some bytes were
taken, and the result is what the framer makes of the buffer with them, or the stream has ended. -/
inductive Pulled (f : Framer) (inbound payload : Bytes) (ended : Bool) (size : Nat)
    (p : Call (Framer × Bytes × Socket) (Except ProtocolError (Option Model))) : Prop
  | answered (taken left : Bytes) (hpayload : payload = taken ++ left)
      (hleft : Socket.Streams p.state.2.2.reads left ended)
      (hresult : p.result = (f.next (inbound ++ taken)).result)
      (hframer : p.state.1 = (f.next (inbound ++ taken)).state.1)
      (hbuffer : p.state.2.1 = (f.next (inbound ++ taken)).state.2)
      (hsize : p.state.2.2.readSize + taken.length ≤ size)
      -- Without an answer either nothing is left or the socket has said so.
      (hblocked : p.result = .ok none →
        p.state.2.2.reads = [] ∨ p.state.2.2.readSize + taken.length < size)
  | closed (hended : ended = true) (hresult : p.result = .error .connectionClosed)
      (hwaits : (f.next (inbound ++ payload)).result = .ok none)
      (hframer : p.state.1 = f) (hbuffer : p.state.2.1 = inbound ++ payload)

/-- What a read reports besides does not matter. -/
theorem Pulled.congr {f : Framer} {inbound payload : Bytes} {ended : Bool} {size : Nat}
    {p p' : Call (Framer × Bytes × Socket) (Except ProtocolError (Option Model))}
    (h : Pulled f inbound payload ended size p) (hresult : p'.result = p.result)
    (hstate : p'.state = p.state) : Pulled f inbound payload ended size p' := by
  obtain ⟨result, state, activity⟩ := p
  obtain ⟨result', state', activity'⟩ := p'
  cases hresult
  cases hstate
  cases h with
  | answered taken left hpayload hleft hr hframer hbuffer hsize hblocked =>
    exact .answered taken left hpayload hleft hr hframer hbuffer hsize hblocked
  | closed hended hr hwaits hframer hbuffer => exact .closed hended hr hwaits hframer hbuffer

/-- What was read before, while the framer waited, still counts. -/
theorem Pulled.append {f : Framer} {inbound bs payload : Bytes} {ended : Bool} {size size' : Nat}
    {p : Call (Framer × Bytes × Socket) (Except ProtocolError (Option Model))}
    (h : Pulled f (inbound ++ bs) payload ended size p) (hsize : size + bs.length ≤ size') :
    Pulled f inbound (bs ++ payload) ended size' p := by
  cases h with
  | answered taken left hpayload hleft hr hframer hbuffer hs hblocked =>
    rw [List.append_assoc] at hr hframer hbuffer
    refine .answered (bs ++ taken) left ?_ hleft hr hframer hbuffer ?_ ?_
    · rw [hpayload, List.append_assoc]
    · rw [List.length_append]
      omega
    · intro hnone
      rw [List.length_append]
      rcases hblocked hnone with hnil | hlt
      · exact .inl hnil
      · exact .inr (by omega)
  | closed hended hr hwaits hframer hbuffer =>
    rw [List.append_assoc] at hwaits hbuffer
    exact .closed hended hr hwaits hframer hbuffer

section Waiting

variable {f : Framer} {inbound payload : Bytes} {ended : Bool} {size : Nat} {socket : Socket}

-- With what was taken the framer has an answer.
theorem Pulled.of_answer {taken left whole : Bytes} (hwhole : whole = inbound ++ taken)
    {p : Call (Framer × Bytes × Socket) (Except ProtocolError (Option Model))}
    (hleft : Socket.Streams socket.reads left ended) (hresult : p.result = (f.next whole).result)
    (hstate : p.state = ((f.next whole).state.1, (f.next whole).state.2, socket))
    (hsome : p.result ≠ .ok none) (hsize : socket.readSize + taken.length ≤ size) :
    Pulled f inbound (taken ++ left) ended size p := by
  subst hwhole
  refine .answered taken left rfl ?_ hresult ?_ ?_ ?_ fun hnone => absurd hnone hsome
  · rw [hstate]
    exact hleft
  · rw [hstate]
  · rw [hstate]
  · rw [hstate]
    exact hsize

variable (hraw : f.dialect.isRaw = false)
include hraw

-- Nothing more can be read now.
theorem Pulled.of_waiting (hwaits : (f.next inbound).result = .ok none)
    (hleft : Socket.Streams socket.reads payload ended) (hsize : socket.readSize ≤ size)
    (hblocked : socket.reads = [] ∨ socket.readSize < size) :
    Pulled f inbound payload ended size
      { result := .ok none, state := (f, inbound, socket) } := by
  have hstate := (Framer.next_eq_none hraw hwaits).2
  refine .answered [] payload rfl hleft ?_ ?_ ?_ hsize fun _ => hblocked
  · rw [List.append_nil, hwaits]
  · rw [List.append_nil, hstate]
  · rw [List.append_nil, hstate]

/-- Pulling ends with an answer of the framer, with the socket blocked, or with the stream. -/
theorem pull_pulled {most : Nat} (hm : 0 < most) (hwaits : (f.next inbound).result = .ok none)
    (h : Socket.Streams socket.reads payload ended) :
    Pulled f inbound payload ended socket.readSize (pull most hm f inbound socket) := by
  -- An interrupted read and a piece of a frame go on with less to be read.
  induction hn : socket.readSize using Nat.strongRecOn generalizing socket inbound payload with
  | ind n ih =>
    rw [pull]
    by_cases hreads : socket.reads = []
    · rw [dif_pos hreads]
      exact .of_waiting hraw hwaits h (Nat.le_of_eq hn) (.inl hreads)
    · rw [dif_neg hreads]
      have hless : (socket.read most).2.readSize < n := hn ▸ Socket.readSize_read_lt hm hreads
      rcases h.read hm hreads with ⟨e, he, hkind, hrest⟩ | ⟨he, rfl, hended⟩ |
        ⟨bs, left, he, hne, rfl, hrest⟩
      · rw [he]
        cases hk : e.kind with
        | wouldBlock =>
          simp only [hk]
          exact .of_waiting hraw hwaits hrest (Nat.le_of_lt hless) (.inr hless)
        | interrupted =>
          simp only [hk]
          -- The framer still waits behind the same bytes, so nothing is appended.
          have hwaits' : (f.next (inbound ++ [])).result = .ok none := by rwa [List.append_nil]
          have hsize : (socket.read most).2.readSize + ([] : Bytes).length ≤ n := by
            rw [List.length_nil]
            omega
          have hagain := (ih _ hless hwaits' hrest rfl).append hsize
          rw [List.append_nil] at hagain
          exact hagain
        | permanent => exact absurd hk hkind
      · rw [he]
        exact .closed hended rfl (by rwa [List.append_nil]) rfl (List.append_nil _).symm
      · have hsize := Socket.readSize_read_bytes he
        rw [hn] at hsize
        obtain ⟨b, bs, rfl⟩ := List.exists_cons_of_ne_nil hne
        rw [he]
        cases hr : (f.next (inbound ++ b :: bs)).result with
        | error e =>
          simp only [hr]
          exact .of_answer rfl hrest hr.symm rfl (fun hnone => by cases hnone) hsize
        | ok m? =>
          cases m? with
          | none =>
            have hmore := ih _ hless hr hrest rfl
            simp only [hr, (Framer.next_eq_none hraw hr).2]
            exact (hmore.append hsize).congr rfl rfl
          | some m =>
            simp only [hr]
            exact .of_answer rfl hrest hr.symm rfl (fun hnone => by cases hnone) hsize

end Waiting

theorem pullFrame_pulled {c : Connection} (hraw : c.framer.dialect.isRaw = false) {socket : Socket}
    {payload : Bytes} {ended : Bool} (h : Socket.Streams socket.reads payload ended) :
    Pulled c.framer c.inbound payload ended socket.readSize (c.pullFrame socket) := by
  have hnil : c.inbound = c.inbound ++ [] := (List.append_nil _).symm
  have hsize : socket.readSize + ([] : Bytes).length ≤ socket.readSize := Nat.le_refl _
  unfold pullFrame
  cases hr : (c.framer.next c.inbound).result with
  | error e =>
    simp only [hr]
    exact .of_answer hnil h hr.symm rfl (fun hnone => by cases hnone) hsize
  | ok m? =>
    cases m? with
    | none =>
      have hpulled := pull_pulled hraw c.readChunk_pos hr h
      simp only [hr, (Framer.next_eq_none hraw hr).2]
      exact hpulled.congr rfl rfl
    | some m =>
      simp only [hr]
      exact .of_answer hnil h hr.symm rfl (fun hnone => by cases hnone) hsize

/-! ## Polling -/

/-- The answers that the socket of a connection has not given yet. -/
def unread (c : Connection) : List ReadAnswer := (c.socket?.map (·.reads)).getD []

/-- Reading, and taking the packet whenever there is one, until all answers are used up or a read
fails. -/
inductive Polls : Connection → List Model → Connection → Prop
  | packet {c last : Connection} {m : Model} {packets : List Model} (hr : c.read.result = .ready)
      (hm : c.read.state.takePacket.result = some m)
      (hrest : Polls c.read.state.takePacket.state packets last) : Polls c (m :: packets) last
  | blocked {c last : Connection} {packets : List Model} (hr : c.read.result = .blocked)
      (hu : c.read.state.unread ≠ []) (hrest : Polls c.read.state packets last) :
      Polls c packets last
  | exhausted {c : Connection} (hr : c.read.result = .blocked) (hu : c.read.state.unread = []) :
      Polls c [] c.read.state
  | failed {c : Connection} (hr : c.read.result = .failed) : Polls c [] c.read.state

/-- A connection that is going to read a stream, which together with its buffer is drained to a
certain delivery. -/
structure Reads (c : Connection) (payload : Bytes) (ended : Bool) (d : Framer.Delivery) : Prop where
  socket : ∃ socket, c.socket? = some socket ∧ Socket.Streams socket.reads payload ended
  state : c.state ≠ .errored
  isFramed : c.framer.dialect.isRaw = false
  lawful : c.framer.Lawful
  drains : c.framer.Drains (c.inbound ++ payload) d

/-- How much a connection still has to deal with: the bytes in its buffer and those to be read. -/
def backlog (c : Connection) : Nat := c.inbound.length + (c.socket?.map (·.readSize)).getD 0

/-- How polling a stream has ended, compared with draining it. -/
structure Agrees (packets : List Model) (last : Connection) (ended : Bool) (d : Framer.Delivery) :
    Prop where
  packets : packets = d.packets
  /-- The framer is the same, and with it the session. -/
  framer : last.framer = d.framer
  failed : ∀ e, d.error? = some e → last.state = .errored ∧ last.error = .ofError e
  rest : d.error? = none → last.inbound = d.rest
  /-- The end of the stream is noticed behind the last packet. -/
  closed : d.error? = none → ended = true →
    last.state = .errored ∧ last.error = .ofError .connectionClosed
  waits : d.error? = none → ended = false → last.state ≠ .errored ∧ last.error = .empty

/-- What one read comes to, compared with draining all of the stream. -/
inductive ReadStep (c : Connection) (ended : Bool) (d : Framer.Delivery) : Prop
  | packet (m : Model) (left : Bytes) (d' : Framer.Delivery) (hr : c.read.result = .ready)
      (hm : c.read.state.takePacket.result = some m)
      (hd : d = { d' with packets := m :: d'.packets })
      (hreads : c.read.state.takePacket.state.Reads left ended d')
      (hless : c.read.state.takePacket.state.backlog < c.backlog)
  | blocked (left : Bytes) (hr : c.read.result = .blocked) (hu : c.read.state.unread ≠ [])
      (hreads : c.read.state.Reads left ended d) (hless : c.read.state.backlog < c.backlog)
  | exhausted (hr : c.read.result = .blocked) (hu : c.read.state.unread = [])
      (hagrees : Agrees [] c.read.state ended d)
  | failed (hr : c.read.result = .failed) (hagrees : Agrees [] c.read.state ended d)

section Step

variable {c : Connection} {socket : Socket} {taken left : Bytes} {ended : Bool}
  {d : Framer.Delivery} (hs : c.socket? = some socket) (hstate : c.state ≠ .errored)
  (hraw : c.framer.dialect.isRaw = false)
include hs hstate hraw

-- The stream has ended and the framer still waits.
theorem readStep_of_closed (hd : c.framer.Drains (c.inbound ++ taken) d) (hended : ended = true)
    (hresult : (c.pullFrame socket).result = .error .connectionClosed)
    (hwaits : (c.framer.next (c.inbound ++ taken)).result = .ok none)
    (hframer : (c.pullFrame socket).state.1 = c.framer)
    (hbuffer : (c.pullFrame socket).state.2.1 = c.inbound ++ taken) : ReadStep c ended d := by
  obtain ⟨hr, hc⟩ := read_of_error hs hstate hresult
  obtain rfl := hd.unique (.waiting hwaits)
  rw [(Framer.next_eq_none hraw hwaits).2]
  refine .failed hr ?_
  rw [hc]
  constructor
  · rfl
  · exact hframer
  · intro e he
    cases he
  · exact fun _ => hbuffer
  · exact fun _ _ => ⟨rfl, rfl⟩
  · intro _ hopen
    rw [hended] at hopen
    cases hopen

-- A frame has come in that cannot be read.
theorem readStep_of_error (hlaw : c.framer.Lawful)
    (hd : c.framer.Drains (c.inbound ++ taken ++ left) d) {e : ProtocolError}
    (hn : (c.framer.next (c.inbound ++ taken)).result = .error e)
    (hresult : (c.pullFrame socket).result = .error e)
    (hframer : (c.pullFrame socket).state.1 = (c.framer.next (c.inbound ++ taken)).state.1) :
    ReadStep c ended d := by
  obtain ⟨hr, hc⟩ := read_of_error hs hstate hresult
  obtain ⟨hn', hstands⟩ := Framer.next_append hraw hlaw (by rw [hn]; intro h; cases h) left
  obtain rfl := hd.unique (.failed (hn'.trans hn))
  rw [hstands]
  refine .failed hr ?_
  rw [hc]
  constructor
  · rfl
  · exact hframer
  · intro e' he
    cases he
    exact ⟨rfl, rfl⟩
  · intro he
    cases he
  · intro he
    cases he
  · intro he
    cases he

-- All of the stream has been read, and the framer waits.
theorem readStep_of_exhausted (hd : c.framer.Drains (c.inbound ++ taken) d)
    (hended : ended = false) (hreads : (c.pullFrame socket).state.2.2.reads = [])
    (hwaits : (c.framer.next (c.inbound ++ taken)).result = .ok none)
    (hresult : (c.pullFrame socket).result = .ok none)
    (hframer : (c.pullFrame socket).state.1 = c.framer)
    (hbuffer : (c.pullFrame socket).state.2.1 = c.inbound ++ taken) : ReadStep c ended d := by
  obtain ⟨hr, hc⟩ := read_of_none hs hstate hresult
  obtain rfl := hd.unique (.waiting hwaits)
  rw [(Framer.next_eq_none hraw hwaits).2]
  refine .exhausted hr (by rw [hc]; exact hreads) ?_
  rw [hc]
  constructor
  · rfl
  · exact hframer
  · intro e he
    cases he
  · exact fun _ => hbuffer
  · intro _ hclosed
    rw [hended] at hclosed
    cases hclosed
  · exact fun _ _ => ⟨restingState_ne _ (.inr (.inr rfl)), rfl⟩

-- The socket has said that nothing more can be read now, and the framer waits.
theorem readStep_of_blocked (hlaw : c.framer.Lawful)
    (hd : c.framer.Drains (c.inbound ++ taken ++ left) d)
    (hleft : Socket.Streams (c.pullFrame socket).state.2.2.reads left ended)
    (hreads : (c.pullFrame socket).state.2.2.reads ≠ [])
    (hresult : (c.pullFrame socket).result = .ok none)
    (hframer : (c.pullFrame socket).state.1 = c.framer)
    (hbuffer : (c.pullFrame socket).state.2.1 = c.inbound ++ taken)
    (hless : (c.pullFrame socket).state.2.2.readSize + taken.length < socket.readSize) :
    ReadStep c ended d := by
  obtain ⟨hr, hc⟩ := read_of_none hs hstate hresult
  refine .blocked left hr (by rw [hc]; exact hreads) ?_ ?_
  · rw [hc]
    refine ⟨⟨_, rfl, hleft⟩, restingState_ne _ (.inr (.inr rfl)), ?_, ?_, ?_⟩
    · show (c.pullFrame socket).state.1.dialect.isRaw = false
      rw [hframer, hraw]
    · show (c.pullFrame socket).state.1.Lawful
      rw [hframer]
      exact hlaw
    · show (c.pullFrame socket).state.1.Drains ((c.pullFrame socket).state.2.1 ++ left) d
      rw [hframer, hbuffer]
      exact hd
  · rw [hc]
    show (c.pullFrame socket).state.2.1.length + (c.pullFrame socket).state.2.2.readSize <
      c.backlog
    unfold backlog
    rw [hs, hbuffer, List.length_append, Option.map_some, Option.getD_some]
    omega

-- A packet has come in.
theorem readStep_of_packet (hlaw : c.framer.Lawful)
    (hd : c.framer.Drains (c.inbound ++ taken ++ left) d) {m : Model}
    (hleft : Socket.Streams (c.pullFrame socket).state.2.2.reads left ended)
    (hn : (c.framer.next (c.inbound ++ taken)).result = .ok (some m))
    (hresult : (c.pullFrame socket).result = .ok (some m))
    (hframer : (c.pullFrame socket).state.1 = (c.framer.next (c.inbound ++ taken)).state.1)
    (hbuffer : (c.pullFrame socket).state.2.1 = (c.framer.next (c.inbound ++ taken)).state.2)
    (hsize : (c.pullFrame socket).state.2.2.readSize + taken.length ≤ socket.readSize) :
    ReadStep c ended d := by
  obtain ⟨hr, hc⟩ := read_of_packet hs hstate hresult
  obtain ⟨hn', hstands⟩ := Framer.next_append hraw hlaw (by rw [hn]; intro h; cases h) left
  obtain ⟨declared, -, hpos, hle, hrest⟩ := Framer.next_eq_packet hraw hlaw hn
  obtain ⟨d', hd', rfl⟩ := hd.of_packet (hn'.trans hn)
  have hfollows := Framer.next_follows hraw (c.inbound ++ taken)
  rw [hstands] at hd'
  refine .packet m left d' hr (by rw [hc]; rfl) rfl ?_ ?_
  · rw [hc]
    refine ⟨⟨_, rfl, hleft⟩, restingState_ne _ (.inr (.inr rfl)), ?_, ?_, ?_⟩
    · show (c.pullFrame socket).state.1.dialect.isRaw = false
      rw [hframer]
      exact hfollows.isRaw hraw
    · show (c.pullFrame socket).state.1.Lawful
      rw [hframer]
      exact hlaw.follows hfollows
    · show (c.pullFrame socket).state.1.Drains ((c.pullFrame socket).state.2.1 ++ left) d'
      rw [hframer, hbuffer]
      exact hd'
  · rw [hc]
    show (c.pullFrame socket).state.2.1.length + (c.pullFrame socket).state.2.2.readSize <
      c.backlog
    unfold backlog
    rw [hs, hbuffer, hrest, List.length_drop, Option.map_some, Option.getD_some]
    rw [List.length_append] at hle ⊢
    omega

end Step

theorem Reads.step {c : Connection} {payload : Bytes} {ended : Bool} {d : Framer.Delivery}
    (h : c.Reads payload ended d) : ReadStep c ended d := by
  obtain ⟨⟨socket, hs, hstreams⟩, hstate, hraw, hlaw, hd⟩ := h
  cases pullFrame_pulled hraw hstreams with
  | closed hended hresult hwaits hframer hbuffer =>
    exact readStep_of_closed hs hstate hraw hd hended hresult hwaits hframer hbuffer
  | answered taken left hpayload hleft hresult hframer hbuffer hsize hblocked =>
    rw [hpayload, ← List.append_assoc] at hd
    cases hn : (c.framer.next (c.inbound ++ taken)).result with
    | error e =>
      exact readStep_of_error hs hstate hraw hlaw hd hn (hresult.trans hn) hframer
    | ok m? =>
      cases m? with
      | none =>
        have hnone := hresult.trans hn
        rw [(Framer.next_eq_none hraw hn).2] at hframer hbuffer
        by_cases hreads : (c.pullFrame socket).state.2.2.reads = []
        · rw [hreads] at hleft
          cases hleft
          rw [List.append_nil] at hd
          exact readStep_of_exhausted hs hstate hraw hd rfl hreads hn hnone hframer hbuffer
        · have hless := (hblocked hnone).resolve_left hreads
          exact readStep_of_blocked hs hstate hraw hlaw hd hleft hreads hnone hframer hbuffer hless
      | some m =>
        exact readStep_of_packet hs hstate hraw hlaw hd hleft hn (hresult.trans hn) hframer hbuffer
          hsize

/-- However polling goes, it ends as draining the stream does. -/
theorem Reads.agrees {c last : Connection} {payload : Bytes} {ended : Bool} {d : Framer.Delivery}
    {packets : List Model} (h : c.Reads payload ended d) (hp : c.Polls packets last) :
    Agrees packets last ended d := by
  -- Each poll meets the one outcome of a read that has its result.
  induction hp generalizing payload d with
  | packet hr hm _ ih =>
    cases h.step with
    | packet m' left d' _ hm' hd hreads =>
      obtain rfl := Option.some.inj (hm.symm.trans hm')
      have hrest := ih hreads
      rw [hd]
      exact ⟨congrArg _ hrest.packets, hrest.framer, hrest.failed, hrest.rest, hrest.closed,
        hrest.waits⟩
    | blocked _ hr' => rw [hr] at hr'; cases hr'
    | exhausted hr' => rw [hr] at hr'; cases hr'
    | failed hr' => rw [hr] at hr'; cases hr'
  | blocked hr hu _ ih =>
    cases h.step with
    | packet _ _ _ hr' => rw [hr] at hr'; cases hr'
    | blocked left _ _ hreads => exact ih hreads
    | exhausted _ hu' => exact absurd hu' hu
    | failed hr' => rw [hr] at hr'; cases hr'
  | exhausted hr hu =>
    cases h.step with
    | packet _ _ _ hr' => rw [hr] at hr'; cases hr'
    | blocked _ _ hu' => exact absurd hu hu'
    | exhausted _ _ hagrees => exact hagrees
    | failed hr' => rw [hr] at hr'; cases hr'
  | failed hr =>
    cases h.step with
    | packet _ _ _ hr' => rw [hr] at hr'; cases hr'
    | blocked _ hr' => rw [hr] at hr'; cases hr'
    | exhausted hr' => rw [hr] at hr'; cases hr'
    | failed _ hagrees => exact hagrees

/-- Polling comes to an end, since every read that does not end it leaves less to deal with. -/
theorem Reads.exists_polls {c : Connection} {payload : Bytes} {ended : Bool} {d : Framer.Delivery}
    (h : c.Reads payload ended d) : ∃ packets last, c.Polls packets last := by
  induction hn : c.backlog using Nat.strongRecOn generalizing c payload d with
  | ind n ih =>
    cases h.step with
    | packet m left d' hr hm _ hreads hless =>
      obtain ⟨packets, last, hp⟩ := ih _ (hn ▸ hless) hreads rfl
      exact ⟨_, _, .packet hr hm hp⟩
    | blocked left hr hu hreads hless =>
      obtain ⟨packets, last, hp⟩ := ih _ (hn ▸ hless) hreads rfl
      exact ⟨_, _, .blocked hr hu hp⟩
    | exhausted hr hu => exact ⟨_, _, .exhausted hr hu⟩
    | failed hr => exact ⟨_, _, .failed hr⟩

/-! ## Independence of fragmentation -/

/-- Polling a connection over a fragmented stream delivers what draining the whole stream at once
does, ends in the same failure if there is one, and has the same session and leaves the same bytes
otherwise.  Without a failure the stream is cut into frames that are all delivered, and what is left
is no whole frame.  A call takes a whole frame or, while there is none, nothing. -/
theorem polls_agrees {c : Connection} {socket : Socket} (hs : c.socket? = some socket)
    (hstate : c.state ≠ .errored) (hraw : c.framer.dialect.isRaw = false) (hf : c.framer.BuiltIn)
    {payload : Bytes} {ended : Bool} (hstream : Socket.Streams socket.reads payload ended) :
    (∃ d, c.framer.Drains (c.inbound ++ payload) d ∧
      (d.error? = none →
        c.framer.Cuts (c.inbound ++ payload) d.packets d.framer d.rest) ∧
      (∃ packets last, c.Polls packets last) ∧
      ∀ packets last, c.Polls packets last → Agrees packets last ended d) ∧
    ∀ f : Framer, f.dialect.isRaw = false → f.BuiltIn → ∀ inbound, f.TakesWhole inbound := by
  constructor
  · obtain ⟨d, hd⟩ := Framer.exists_drains hraw hf.lawful (c.inbound ++ payload)
    have h : c.Reads payload ended d := ⟨⟨socket, hs, hstream⟩, hstate, hraw, hf.lawful, hd⟩
    exact ⟨d, hd, hd.cuts hraw hf, h.exists_polls, fun _ _ => h.agrees⟩
  · exact fun f hfraw hbuiltIn inbound => Framer.takesWhole hfraw hbuiltIn inbound

theorem polls_agrees_interrupted :
    let front : Bytes := [0x10, 0, 0]
    let back : Bytes := [0, 0x11, 0x0D, 0, 0, 7, 0, 0, 0, 0, 0, 0, 0]
    let socket : Socket :=
      { reads := [.failed ⟨.interrupted, "interrupted"⟩, .bytes front, .failed .wouldBlock,
          .bytes back, .bytes []] }
    let c := (ofSocket socket (.ofDialect .classic) {} 0).state
    Socket.Streams socket.reads (front ++ (back ++ [])) true ∧
      ∃ packets last, c.Polls packets last ∧
        packets = [{ dialect := .classic, packet := .clientPing { time := 7 } }] ∧
        last.error = .ofError .connectionClosed := by
  intro front back socket c
  have hstream : Socket.Streams socket.reads (front ++ (back ++ [])) true :=
    .again (by decide) (.piece (by decide) (.again (by decide) (.piece (by decide) (.ended []))))
  have hf : c.framer.BuiltIn := ⟨⟨default, rfl⟩, fun s hs => by cases hs⟩
  obtain ⟨⟨d, hd, -, ⟨packets, last, hp⟩, hagrees⟩, -⟩ :=
    polls_agrees (c := c) rfl (by decide) rfl hf hstream
  have hpacket : (c.framer.next (c.inbound ++ (front ++ (back ++ [])))).result =
      .ok (some { dialect := .classic, packet := .clientPing { time := 7 } }) := rfl
  obtain rfl := hd.unique (.packet hpacket (.waiting rfl))
  exact ⟨hstream, packets, last, hp, (hagrees packets last hp).packets,
    ((hagrees packets last hp).closed rfl rfl).2⟩

end Connection

end GameWire
