import GameWire.Proofs.Transport.Outbound
import GameWire.Proofs.Transport.Waiting

/-!
# States and buffers

What the state of a connection tells of its buffers: an `idle` one has nothing buffered, one that is
`reading` has bytes that came in and none that are to go out, and exactly a `closed` one has no
socket.  A closed connection holds nothing, and it refuses to read and to write for good.
-/

namespace GameWire.Connection

/-! ## Calls and closing -/

/-- A call on a connection, or its end. -/
inductive Event where
  | call (op : Operation)
  | close

def handle (c : Connection) : Event → Connection
  | .call op => c.perform op
  | .close => c.close.state

def handleAll (c : Connection) : List Event → Connection
  | [] => c
  | event :: events => (c.handle event).handleAll events

/-! ## What a state tells -/

/-- Nothing is buffered, and no packet waits. -/
structure IsEmpty (c : Connection) : Prop where
  inbound : c.inbound = []
  outbound : c.outbound = []
  pending : c.pending? = none

/-- What the state of a connection tells of its socket and its buffers. -/
structure Settled (c : Connection) : Prop where
  idle : c.state = .idle → c.inbound = [] ∧ c.outbound = []
  reading : c.state = .reading → c.inbound ≠ [] ∧ c.outbound = []
  closed_iff : c.state = .closed ↔ c.socket? = none
  closed : c.state = .closed → c.IsEmpty

section Settled

variable {c c' : Connection}

/-- Neither the last error nor the framer matters. -/
theorem Settled.same (h : c.Settled) (hstate : c'.state = c.state)
    (hsocket : c'.socket? = c.socket?) (hin : c'.inbound = c.inbound)
    (hout : c'.outbound = c.outbound) (hpending : c.pending? = none → c'.pending? = none) :
    c'.Settled where
  idle hi := by rw [hin, hout]; exact h.idle (hstate ▸ hi)
  reading hr := by rw [hin, hout]; exact h.reading (hstate ▸ hr)
  closed_iff := by rw [hstate, hsocket]; exact h.closed_iff
  closed hc := by
    obtain ⟨hi, ho, hp⟩ := h.closed (hstate ▸ hc)
    exact ⟨hin.trans hi, hout.trans ho, hpending hp⟩

/-- The state of rest is made for what is buffered. -/
theorem settled_of_resting (hstate : c.state = c.restingState) (hs : c.socket?.isSome = true) :
    c.Settled := by
  have hclosed : c.state ≠ .closed := by rw [hstate]; exact c.restingState_ne (.inr (.inl rfl))
  refine ⟨fun hi => ?_, fun hr => ?_, iff_of_false hclosed (Option.isSome_iff_ne_none.1 hs),
    fun hc => absurd hc hclosed⟩
  · rcases c.restingState_cases with ⟨h, -⟩ | ⟨-, hbuffers⟩ | ⟨h, -⟩
    · rw [hstate, h] at hi; cases hi
    · exact hbuffers
    · rw [hstate, h] at hi; cases hi
  · rcases c.restingState_cases with ⟨h, -⟩ | ⟨h, -⟩ | ⟨-, hbuffers⟩
    · rw [hstate, h] at hr; cases hr
    · rw [hstate, h] at hr; cases hr
    · exact hbuffers

/-- The other states of a connection with a socket tell nothing of what is buffered. -/
theorem settled_of_silent (hstate : c.state = .ready ∨ c.state = .blocked ∨ c.state = .errored)
    (hs : c.socket?.isSome = true) : c.Settled := by
  have hnone : c.socket? ≠ none := Option.isSome_iff_ne_none.1 hs
  have hsilent : c.state ≠ .idle ∧ c.state ≠ .reading ∧ c.state ≠ .closed := by
    rcases hstate with h | h | h <;> rw [h] <;> decide
  obtain ⟨hidle, hreading, hclosed⟩ := hsilent
  exact ⟨fun hi => absurd hi hidle, fun hr => absurd hr hreading, iff_of_false hclosed hnone,
    fun hc => absurd hc hclosed⟩

end Settled

/-! ## One call -/

section Settles

variable {c : Connection} (h : c.Settled)
include h

theorem Settled.read : c.read.state.Settled := by
  cases hs : c.socket? with
  | none =>
    rw [(read_of_noSocket hs).2]
    exact h.same rfl rfl rfl rfl id
  | some socket =>
    by_cases he : c.state = .errored
    · rw [(read_of_errored (by rw [hs]; rfl) he).2]
      exact h.same rfl rfl rfl rfl id
    · cases hp : (c.pullFrame socket).result with
      | error e =>
        rw [(read_of_error hs he hp).2]
        exact settled_of_silent (.inr (.inr rfl)) rfl
      | ok m? =>
        cases m? with
        | some m =>
          rw [(read_of_packet hs he hp).2]
          exact settled_of_silent (.inl rfl) rfl
        | none =>
          rw [(read_of_none hs he hp).2]
          exact settled_of_resting rfl rfl

/-- What is buffered may have grown since the state was right, as long as it is sent. -/
theorem Settled.send {socket : Socket} (hs : c.socket? = some socket) {d : Connection}
    (hstate : d.state = c.state) (hin : d.inbound = c.inbound) :
    (d.send socket).state.Settled := by
  cases hp : (pushAndFlush socket d.outbound).result with
  | error e =>
    rw [(send_of_error hp).2]
    exact settled_of_silent (.inr (.inr rfl)) rfl
  | ok done =>
    cases done with
    | false =>
      rw [(send_of_waiting hp).2]
      exact settled_of_silent (.inr (.inl rfl)) rfl
    | true =>
      rw [(send_of_done hp).2]
      by_cases hb : d.state = .blocked
      · rw [if_pos hb]
        exact settled_of_resting rfl rfl
      · rw [if_neg hb]
        -- Nothing is left to go out, and what came in is as it was.
        have hnil : (d.pushed socket).outbound = [] :=
          (pushAndFlush_conserves socket d.outbound).2 hp
        have hnone : c.socket? ≠ none := by rw [hs]; exact Option.some_ne_none socket
        have hclosed : d.state ≠ .closed := by
          rw [hstate]
          exact fun hc => hnone (h.closed_iff.1 hc)
        refine ⟨fun hi => ⟨?_, hnil⟩, fun hr => ⟨?_, hnil⟩,
          iff_of_false hclosed (Option.some_ne_none _), fun hc => absurd hc hclosed⟩
        · exact hin.trans (h.idle (hstate.symm.trans hi)).1
        · show d.inbound ≠ []
          rw [hin]
          exact (h.reading (hstate.symm.trans hr)).1

theorem Settled.write (entropy : Entropy) (m? : Option Model) :
    (c.write entropy m?).state.Settled := by
  cases hs : c.socket? with
  | none =>
    rw [(write_of_noSocket hs entropy m?).2]
    exact h.same rfl rfl rfl rfl id
  | some socket =>
    cases m? with
    | none =>
      rw [write_of_none hs]
      exact h.send hs rfl rfl
    | some m =>
      cases he : (c.framer.encode entropy m).result with
      | error e =>
        rw [(write_of_error hs he).2]
        exact h.same rfl rfl rfl rfl id
      | ok bs =>
        rw [(write_of_ok hs he).2]
        exact h.send hs rfl rfl

theorem Settled.takePacket : c.takePacket.state.Settled := by
  by_cases hready : c.pending?.isSome ∧ c.state = .ready
  · have hstate : c.takePacket.state.state = c.takePacket.state.restingState := if_pos hready
    refine settled_of_resting hstate (Option.isSome_iff_ne_none.2 fun hnone => ?_)
    -- Without a socket the connection would be closed, and not ready.
    have hc := h.closed_iff.2 hnone
    rw [hready.2] at hc
    cases hc
  · exact h.same (if_neg hready) rfl rfl rfl fun _ => rfl

theorem Settled.handle (event : Event) : (c.handle event).Settled := by
  cases event with
  | close =>
    refine ⟨fun hi => ?_, fun hr => ?_, iff_of_true rfl rfl, fun _ => ⟨rfl, rfl, rfl⟩⟩
    · cases hi
    · cases hr
  | call op =>
    cases op with
    | read => exact h.read
    | write entropy m? => exact h.write entropy m?
    | take => exact h.takePacket
    | setDialect dialect => exact h.same rfl rfl rfl rfl id

end Settles

/-! ## Any sequence of calls -/

theorem Settled.handleAll {c : Connection} (h : c.Settled) (events : List Event) :
    (c.handleAll events).Settled := by
  induction events generalizing c with
  | nil => exact h
  | cons event events ih => exact ih (h.handle event)

/-- Reading and writing tell that there is no socket, and change nothing but the error. -/
structure Refuses (c : Connection) : Prop where
  read : c.read.result = .noSocket ∧
    c.read.state = { c with error := .ofMessage noSocketMessage }
  write (entropy : Entropy) (m? : Option Model) : (c.write entropy m?).result = .noSocket ∧
    (c.write entropy m?).state = { c with error := .ofMessage noSocketMessage }

theorem refuses_of_noSocket {c : Connection} (hs : c.socket? = none) : c.Refuses :=
  ⟨read_of_noSocket hs, write_of_noSocket hs⟩

/-- A socket that was given up does not come back. -/
theorem noSocket_handleAll {c : Connection} (hs : c.socket? = none) (events : List Event) :
    (c.handleAll events).socket? = none := by
  induction events generalizing c with
  | nil => exact hs
  | cons event events ih =>
    apply ih
    cases event with
    | close => rfl
    | call op =>
      have hattached := attached_perform c op
      rw [hs] at hattached
      exact Option.not_isSome_iff_eq_none.1 (Bool.eq_false_iff.1 hattached)

/-- After any events on a new connection its state agrees with its buffers, and once it is closed it
stays so, empty, and refuses to read and to write. -/
theorem handleAll_ofSocket_settled (socket : Socket) (codec : Codec) (keys : ExchangeKeys)
    (readChunk : Nat) (events : List Event) :
    let c := (ofSocket socket codec keys readChunk).state.handleAll events
    c.Settled ∧
      (c.state = .closed → ∀ later,
        (c.handleAll later).state = .closed ∧ (c.handleAll later).IsEmpty ∧
          (c.handleAll later).Refuses) := by
  intro c
  have hnew : (ofSocket socket codec keys readChunk).state.Settled :=
    settled_of_resting rfl rfl
  have hc : c.Settled := hnew.handleAll events
  refine ⟨hc, fun hclosed later => ?_⟩
  have hlater : (c.handleAll later).Settled := hc.handleAll later
  have hnone : (c.handleAll later).socket? = none :=
    noSocket_handleAll (hc.closed_iff.1 hclosed) later
  have hstate := hlater.closed_iff.2 hnone
  exact ⟨hstate, hlater.closed hstate, refuses_of_noSocket hnone⟩

end GameWire.Connection
