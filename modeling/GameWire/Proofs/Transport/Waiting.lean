import GameWire.Proofs.Transport.Failure
import GameWire.Proofs.Transport.Outbound

/-!
# Packets that wait

A connection that is `ready` has a packet to be taken, whatever was called before.  The converse
holds exactly as long as no call hides a packet: a read that finds nothing, or a write that sends
the last of what was buffered, leaves a connection as if no packet waited, also when one does.
-/

namespace GameWire.Connection

/-! ## What a state tells -/

/-- A connection that is ready has a packet to be taken. -/
def ReadyHasPacket (c : Connection) : Prop :=
  c.state = .ready → c.pending?.isSome = true

/-- A packet that waits shows in the state, unless the connection has failed. -/
def ShowsPacket (c : Connection) : Prop :=
  c.state ≠ .errored → c.pending?.isSome = true → c.state = .ready ∨ c.state = .blocked

theorem restingState_eq_blocked_iff (c : Connection) :
    c.restingState = .blocked ↔ c.outbound ≠ [] := by
  rcases c.restingState_cases with ⟨h, hout⟩ | ⟨h, -, hout⟩ | ⟨h, -, hout⟩
  · exact iff_of_true h hout
  · exact iff_of_false (by rw [h]; decide) (absurd hout)
  · exact iff_of_false (by rw [h]; decide) (absurd hout)

/-- What a call may do to what a state tells: a packet that showed still does, unless the call hides
it. -/
structure Keeps (c c' : Connection) (hides : Prop) : Prop where
  ready : c.ReadyHasPacket → c'.ReadyHasPacket
  shows : c.ShowsPacket → (c'.ShowsPacket ↔ ¬ hides)

section Keeps

variable {c c' : Connection} {hides : Prop}

/-- Only its state and the packet decide what a connection tells. -/
theorem keeps_of_same (hstate : c'.state = c.state) (hpending : c'.pending? = c.pending?)
    (hno : ¬ hides) : c.Keeps c' hides where
  ready h := by
    unfold ReadyHasPacket
    rw [hstate, hpending]
    exact h
  shows h := by
    apply iff_of_true _ hno
    unfold ShowsPacket
    rw [hstate, hpending]
    exact h

theorem keeps_of_errored (hstate : c'.state = .errored) (hno : ¬ hides) : c.Keeps c' hides where
  ready _ hr := by rw [hstate] at hr; cases hr
  shows _ := iff_of_true (fun hne => absurd hstate hne) hno

/-- At rest a connection tells of a packet only if something is to go out. -/
theorem keeps_of_resting (hstate : c'.state = c'.restingState) (hpending : c'.pending? = c.pending?)
    (hides_iff : hides ↔ c.pending?.isSome = true ∧ c'.outbound = []) : c.Keeps c' hides where
  ready _ hr := absurd (hstate.symm.trans hr) (c'.restingState_ne (.inl rfl))
  shows _ := by
    rw [hides_iff, ← hpending]
    constructor
    · rintro h ⟨hsome, hnil⟩
      have hworks : c'.state ≠ .errored := by
        rw [hstate]
        exact c'.restingState_ne (.inr (.inr rfl))
      rcases h hworks hsome with hready | hblocked
      · exact c'.restingState_ne (.inl rfl) (hstate.symm.trans hready)
      · exact c'.restingState_eq_blocked_iff.1 (hstate.symm.trans hblocked) hnil
    · intro h _ hsome
      right
      rw [hstate]
      apply c'.restingState_eq_blocked_iff.2
      exact fun hnil => h ⟨hsome, hnil⟩

end Keeps

/-! ## One call -/

/-- Whether a call hides a packet that waits: it leaves the connection in the state that it has
while none waits, and nothing is to go out. -/
def hidesOn (c : Connection) : Operation → Prop
  | .read => c.read.result = .blocked ∧ c.pending?.isSome = true ∧ c.outbound = []
  | .write entropy m? =>
    (c.write entropy m?).result = .ready ∧ c.pending?.isSome = true ∧ c.state = .blocked
  | .take | .setDialect _ => False

theorem read_keeps (c : Connection) : c.Keeps c.read.state (c.hidesOn .read) := by
  -- A read that does not end by waiting hides nothing.
  have hno (hr : c.read.result ≠ .blocked) : ¬ c.hidesOn .read := fun hhides => hr hhides.1
  cases hs : c.socket? with
  | none =>
    have hread := read_of_noSocket hs
    exact keeps_of_same (by rw [hread.2]) (by rw [hread.2]) (hno (by rw [hread.1]; decide))
  | some socket =>
    by_cases he : c.state = .errored
    · have hread := read_of_errored (by rw [hs]; rfl) he
      exact keeps_of_same (by rw [hread.2]) (by rw [hread.2]) (hno (by rw [hread.1]; decide))
    · cases hp : (c.pullFrame socket).result with
      | error e =>
        have hread := read_of_error hs he hp
        exact keeps_of_errored (by rw [hread.2]) (hno (by rw [hread.1]; decide))
      | ok m? =>
        cases m? with
        | some m =>
          have hread := read_of_packet hs he hp
          rw [hread.2]
          exact ⟨fun _ _ => rfl, fun _ =>
            iff_of_true (fun _ _ => .inl rfl) (hno (by rw [hread.1]; decide))⟩
        | none =>
          have hread := read_of_none hs he hp
          rw [hread.2]
          refine keeps_of_resting rfl rfl ?_
          show c.read.result = .blocked ∧ _ ↔ _
          rw [hread.1]
          exact and_iff_right rfl

theorem send_keeps (c : Connection) (socket : Socket) :
    c.Keeps (c.send socket).state
      ((c.send socket).result = .ready ∧ c.pending?.isSome = true ∧ c.state = .blocked) := by
  cases hp : (pushAndFlush socket c.outbound).result with
  | error e =>
    have hsend := send_of_error hp
    rw [hsend.1, hsend.2]
    exact keeps_of_errored rfl fun hhides => by cases hhides.1
  | ok done =>
    cases done with
    | false =>
      have hsend := send_of_waiting hp
      rw [hsend.1, hsend.2]
      constructor
      · exact fun _ hr => by cases hr
      · exact fun _ => iff_of_true (fun _ _ => .inr rfl) fun hhides => by cases hhides.1
    | true =>
      have hsend := send_of_done hp
      rw [hsend.1, hsend.2]
      by_cases hb : c.state = .blocked
      · -- Everything is sent, so nothing is left that could keep the connection blocked.
        have hnil : (c.pushed socket).outbound = [] :=
          (pushAndFlush_conserves socket c.outbound).2 hp
        rw [if_pos hb]
        refine keeps_of_resting rfl rfl ?_
        simp only [hnil, hb, true_and]
      · rw [if_neg hb]
        exact keeps_of_same rfl rfl fun hhides => hb hhides.2.2

theorem write_keeps (c : Connection) (entropy : Entropy) (m? : Option Model) :
    c.Keeps (c.write entropy m?).state (c.hidesOn (.write entropy m?)) := by
  show c.Keeps _ ((c.write entropy m?).result = .ready ∧ _)
  cases hs : c.socket? with
  | none =>
    have hwrite := write_of_noSocket hs entropy m?
    rw [hwrite.1, hwrite.2]
    exact keeps_of_same rfl rfl fun hhides => by cases hhides.1
  | some socket =>
    cases m? with
    | none =>
      rw [write_of_none hs]
      exact c.send_keeps socket
    | some m =>
      cases he : (c.framer.encode entropy m).result with
      | error e =>
        have hwrite := write_of_error hs he
        rw [hwrite.1, hwrite.2]
        exact keeps_of_same rfl rfl fun hhides => by cases hhides.1
      | ok bs =>
        have hwrite := write_of_ok hs he
        rw [hwrite.1, hwrite.2]
        -- Queueing changes neither the state nor the packet.
        have hsend := (c.queue (c.framer.encode entropy m).state bs).send_keeps socket
        exact ⟨hsend.ready, hsend.shows⟩

theorem takePacket_keeps (c : Connection) : c.Keeps c.takePacket.state False where
  ready h hready := by
    change (if c.pending?.isSome ∧ c.state = .ready then c.restingState else c.state) = .ready
      at hready
    split at hready
    · exact absurd hready (c.restingState_ne (.inl rfl))
    · rename_i hn
      exact absurd ⟨h hready, hready⟩ hn
  shows _ := iff_of_true (fun _ hsome => by cases hsome) id

theorem perform_keeps (c : Connection) (op : Operation) :
    c.Keeps (c.perform op) (c.hidesOn op) := by
  cases op with
  | read => exact c.read_keeps
  | write entropy m? => exact c.write_keeps entropy m?
  | take => exact c.takePacket_keeps
  | setDialect dialect => exact keeps_of_same rfl rfl id

/-! ## Any sequence of calls -/

/-- Whether none of a list of calls hides a packet when it is made. -/
def NeverHides (c : Connection) : List Operation → Prop
  | [] => True
  | op :: ops => ¬ c.hidesOn op ∧ (c.perform op).NeverHides ops

theorem run_readyHasPacket {c : Connection} (h : c.ReadyHasPacket) (ops : List Operation) :
    (c.run ops).ReadyHasPacket := by
  induction ops generalizing c with
  | nil => exact h
  | cons op ops ih => exact ih ((c.perform_keeps op).ready h)

theorem run_showsPacket_iff {c : Connection} (h : c.ShowsPacket) (ops : List Operation) :
    (∀ before, before <+: ops → (c.run before).ShowsPacket) ↔ c.NeverHides ops := by
  induction ops generalizing c with
  | nil =>
    refine ⟨fun _ => trivial, fun _ before hbefore => ?_⟩
    rw [List.prefix_nil.1 hbefore]
    exact h
  | cons op ops ih =>
    have hkeeps := (c.perform_keeps op).shows h
    constructor
    · intro hall
      have hop : (c.perform op).ShowsPacket :=
        hall [op] (List.cons_prefix_cons.2 ⟨rfl, List.nil_prefix⟩)
      refine ⟨hkeeps.1 hop, (ih hop).1 fun before hbefore => ?_⟩
      exact hall (op :: before) (List.cons_prefix_cons.2 ⟨rfl, hbefore⟩)
    · intro ⟨hfirst, hrest⟩ before hbefore
      cases before with
      | nil => exact h
      | cons op' before =>
        obtain ⟨rfl, hback⟩ := List.cons_prefix_cons.1 hbefore
        exact (ih (hkeeps.2 hfirst)).2 hrest before hback

/-- After any calls on a new connection, one that is ready has a packet, and in all its states a
packet that waits has shown exactly if no call has hidden one. -/
theorem run_ofSocket_showsPacket_iff (socket : Socket) (codec : Codec) (keys : ExchangeKeys)
    (readChunk : Nat) (ops : List Operation) :
    let c := (ofSocket socket codec keys readChunk).state
    (c.run ops).ReadyHasPacket ∧
      ((∀ before, before <+: ops → (c.run before).ShowsPacket) ↔ c.NeverHides ops) := by
  intro c
  have hready : c.ReadyHasPacket := fun h => by cases h
  have hshows : c.ShowsPacket := fun _ h => by cases h
  exact ⟨run_readyHasPacket hready ops, run_showsPacket_iff hshows ops⟩

/-- A connection that finds one frame, and then nothing. -/
def oneFrame : Connection :=
  (ofSocket { reads := [.bytes [0x0C, 0, 0, 0, 0x19, 0x0F, 0, 0, 5, 0, 0, 0]] } {} {} 4096).state

/-- A second read hides the packet of the first one: the connection is idle, and yet a packet waits
to be taken. -/
theorem state_oneFrame_of_read_read :
    (oneFrame.run [.read]).state = .ready ∧
      (oneFrame.run [.read, .read]).socket?.isSome = true ∧
      (oneFrame.run [.read, .read]).state = .idle ∧
      (oneFrame.run [.read, .read]).takePacket.result =
        some { dialect := .classic, packet := .lobbyMonitor { videoId := 5 } } := by
  have hfirst : oneFrame.run [.read] =
      { oneFrame with
        socket? := some {}
        pending? := some { dialect := .classic, packet := .lobbyMonitor { videoId := 5 } }
        state := .ready } := by
    show oneFrame.read.state = _
    unfold read oneFrame ofSocket pullFrame
    simp only
    rw [pull]
    rfl
  have hsecond : oneFrame.run [.read, .read] =
      { oneFrame with
        socket? := some {}
        pending? := some { dialect := .classic, packet := .lobbyMonitor { videoId := 5 } }
        state := .idle } := by
    show (oneFrame.run [.read]).read.state = _
    rw [hfirst]
    unfold read oneFrame ofSocket pullFrame
    simp only
    rw [pull]
    rfl
  rw [hfirst, hsecond]
  exact ⟨rfl, rfl, rfl, rfl⟩

end GameWire.Connection
