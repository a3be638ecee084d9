import GameWire.Proofs.Transport.Buffers
import GameWire.Proofs.Transport.Traffic

/-!
# Open connections

A fleet is any number of connections that are created, called, closed, detached and dropped in any
order.  Only what gives a socket to a connection or takes one away is reported to the gauge of open
connections, so that it counts the connections that hold a socket and never has to stop at zero.
-/

namespace GameWire

/-! ## What the gauge looks at -/

/-- Whether an activity leaves alone how many connections there are. -/
def Activity.isQuiet : Activity → Bool
  | .connectionEstablished | .connectionClosed => false
  | _ => true

/-- Whether all of some activities do. -/
def isQuiet (log : List Activity) : Bool := log.all Activity.isQuiet

theorem isQuiet_append (log more : List Activity) :
    isQuiet (log ++ more) = (isQuiet log && isQuiet more) :=
  List.all_append

namespace Metrics

theorem toNat_decrement {n : UInt64} (h : n ≠ 0) : (decrement n).toNat = n.toNat - 1 := by
  have hpos : 1 ≤ n.toNat := by
    rcases Nat.eq_zero_or_pos n.toNat with hzero | hpos
    · exact absurd (UInt64.toNat_inj.1 hzero) h
    · exact hpos
  unfold decrement
  rw [if_neg h]
  exact UInt64.toNat_sub_of_le n 1 hpos

/-- Whether no connection that is closed finds the gauge at zero. -/
def NeverStops (m : Metrics) : List Activity → Prop
  | [] => True
  | a :: log => (a = .connectionClosed → m.connectionsOpen ≠ 0) ∧ (m.record a).NeverStops log

theorem neverStops_append {m : Metrics} {log more : List Activity} (h : m.NeverStops log)
    (hmore : (m.recordAll log).NeverStops more) : m.NeverStops (log ++ more) := by
  induction log generalizing m with
  | nil => exact hmore
  | cons a log ih => exact ⟨h.1, ih h.2 hmore⟩

/-- Quiet activities change neither counter of connections. -/
theorem recordAll_quiet {log : List Activity} (h : isQuiet log = true) (m : Metrics) :
    (m.recordAll log).connectionsOpened = m.connectionsOpened ∧
      (m.recordAll log).connectionsOpen = m.connectionsOpen ∧ m.NeverStops log := by
  induction log generalizing m with
  | nil => exact ⟨rfl, rfl, trivial⟩
  | cons a log ih =>
    obtain ⟨ha, hlog⟩ := Bool.and_eq_true_iff.1 h
    obtain ⟨hopened, hopen, hstops⟩ := ih hlog (m.record a)
    have hrecord : (m.record a).connectionsOpened = m.connectionsOpened ∧
        (m.record a).connectionsOpen = m.connectionsOpen := by
      cases a <;> first | exact ⟨rfl, rfl⟩ | cases ha
    refine ⟨hopened.trans hrecord.1, hopen.trans hrecord.2, fun hclosed => ?_, hstops⟩
    rw [hclosed] at ha
    cases ha

end Metrics

/-! ## What is quiet -/

theorem Codec.isQuiet_onFailure {α : Type} (result : Except ProtocolError α) {a : Activity}
    (h : a.isQuiet = true) : isQuiet (onFailure result a) = true := by
  cases result with
  | ok _ => rfl
  | error e => exact Bool.and_eq_true_iff.2 ⟨h, rfl⟩

namespace ExchangeKeys

theorem isQuiet_report {α : Type} (result : Except ProtocolError α) :
    isQuiet (report result) = true := by
  cases result <;> rfl

theorem isQuiet_acceptRequest (k : ExchangeKeys) (request : EncryptionRequest) :
    isQuiet (k.acceptRequest request).2 = true := by
  unfold acceptRequest
  split
  · rfl
  · exact isQuiet_report _

theorem isQuiet_sealRequest (k : ExchangeKeys) (entropy : Entropy) (request : EncryptionRequest) :
    isQuiet (k.sealRequest entropy request).2 = true := by
  unfold sealRequest
  split
  · rfl
  · exact isQuiet_report _

end ExchangeKeys

namespace Framer

theorem isQuiet_openEnvelope (f : Framer) (cut : Bytes) :
    isQuiet (f.openEnvelope cut).2 = true := by
  unfold openEnvelope
  split
  · rfl
  · split <;> rfl

theorem isQuiet_join (f : Framer) (m : Model) : isQuiet (f.join m).activity = true := by
  unfold join
  split
  · rename_i request _ _
    have haccept := f.keys.isQuiet_acceptRequest request
    split <;> rename_i heq <;> rw [heq] at haccept <;> exact haccept
  · rfl

theorem isQuiet_receive (f : Framer) (cut : Bytes) : isQuiet (f.receive cut).activity = true := by
  have hopen := f.isQuiet_openEnvelope cut
  unfold receive
  split
  · rename_i heq
    rw [heq] at hopen
    exact hopen
  · rename_i frame log heq
    rw [heq] at hopen
    have hdecode : isQuiet (log ++ (f.codec.decodeRaw frame).activity) = true := by
      rw [isQuiet_append]
      exact Bool.and_eq_true_iff.2 ⟨hopen, Codec.isQuiet_onFailure _ rfl⟩
    simp only
    split
    · exact hdecode
    · rw [isQuiet_append, isQuiet_append, hdecode, isQuiet_join]
      split <;> rfl

theorem isQuiet_next (f : Framer) (inbound : Bytes) :
    isQuiet (f.next inbound).activity = true := by
  cases hraw : f.dialect.isRaw with
  | true =>
    unfold next
    rw [hraw]
    split
    · rfl
    · exact Codec.isQuiet_onFailure _ rfl
  | false =>
    rw [next_eq_judge hraw]
    split
    · rfl
    · rfl
    · exact f.isQuiet_receive _

theorem isQuiet_encodeSealed (f : Framer) (entropy : Entropy) (m : Model) :
    isQuiet (f.encodeSealed entropy m).activity = true := by
  have hencode : isQuiet (f.codec.encodeRaw m).activity = true := Codec.isQuiet_onFailure _ rfl
  unfold encodeSealed
  simp only
  split
  · split
    · exact hencode
    · rw [isQuiet_append, hencode]
      rfl
  · exact hencode

theorem isQuiet_encode (f : Framer) (entropy : Entropy) (m : Model) :
    isQuiet (f.encode entropy m).activity = true := by
  unfold encode
  split
  · rename_i request _ _
    have hseal := f.keys.isQuiet_sealRequest entropy request
    split <;> rename_i heq <;> rw [heq] at hseal
    · exact hseal
    · exact f.isQuiet_encodeSealed entropy m
    · rw [isQuiet_append]
      exact Bool.and_eq_true_iff.2 ⟨hseal, Codec.isQuiet_onFailure _ rfl⟩
  · exact f.isQuiet_encodeSealed entropy m

end Framer

namespace Connection

theorem isQuiet_push (socket : Socket) (outbound : Bytes) :
    isQuiet (push socket outbound).activity = true := by
  fun_induction push socket outbound with
  | case1 | case2 | case4 | case5 => rfl
  | case3 _ _ _ _ _ _ _ ih => exact ih
  | case6 _ _ _ _ _ _ _ ih => exact ih

theorem isQuiet_send (c : Connection) (socket : Socket) :
    isQuiet (c.send socket).activity = true := by
  have hpush : isQuiet (pushAndFlush socket c.outbound).activity = true := by
    unfold pushAndFlush
    simp only
    split <;> exact isQuiet_push socket c.outbound
  rw [activity_send, isQuiet_append, hpush]
  exact Codec.isQuiet_onFailure _ rfl

theorem isQuiet_read (c : Connection) : isQuiet c.read.activity = true := by
  rw [activity_read]
  split
  · rfl
  · rename_i socket _
    split
    · rfl
    · obtain ⟨pieces, hintake⟩ := c.exists_intake socket
      have hpieces : isQuiet (pieces.map (.bytesRead ·.length)) = true :=
        List.all_map.trans (List.all_eq_true.2 fun _ _ => rfl)
      rw [hintake.activity, isQuiet_append, isQuiet_append, hpieces, Framer.isQuiet_next]
      exact Codec.isQuiet_onFailure _ rfl

theorem isQuiet_write (c : Connection) (entropy : Entropy) (m? : Option Model) :
    isQuiet (c.write entropy m?).activity = true := by
  rw [activity_write]
  split
  · rfl
  · exact isQuiet_send _ _
  · rw [isQuiet_append, Framer.isQuiet_encode]
    split
    · rfl
    · exact isQuiet_send _ _

/-- No call but the one that closes a connection is about its socket. -/
theorem isQuiet_reportedBy (c : Connection) (op : Operation) :
    isQuiet (c.reportedBy op) = true := by
  cases op with
  | read => exact c.isQuiet_read
  | write entropy m? => exact c.isQuiet_write entropy m?
  | take => rfl
  | setDialect dialect => rfl

def holdsSocket (c : Connection) : Bool := c.socket?.isSome

def reportedOn (c : Connection) : Event → List Activity
  | .call op => c.reportedBy op
  | .close => c.close.activity

/-- What is left of a connection that has given its socket away. -/
def hollow (c : Connection) : Connection := { c with socket? := none }

end Connection

/-! ## Fleets -/

/-- Connections in the order in which they were created. -/
structure Fleet where
  /-- The connections; one that was given up leaves a gap. -/
  members : List (Option Connection) := []

namespace Fleet

inductive Event where
  | create (socket : Socket) (codec : Codec) (keys : ExchangeKeys) (readChunk : Nat)
  /-- A call on a connection, or its closing. -/
  | on (i : Nat) (event : Connection.Event)
  /-- A connection gives its socket away, and is given up itself. -/
  | detach (i : Nat)
  | drop (i : Nat)

def Event.creates : Event → Bool
  | .create .. => true
  | .on .. | .detach _ | .drop _ => false

def holding (fleet : Fleet) : Nat :=
  fleet.members.countP fun member => member.any Connection.holdsSocket

/-- The connection with a number, unless it was given up. -/
def at? (fleet : Fleet) (i : Nat) : Option Connection := fleet.members[i]?.join

/-- The fleet with another connection, or a gap, at a number. -/
def put (fleet : Fleet) (i : Nat) (member : Option Connection) : Fleet :=
  { members := fleet.members.set i member }

/-- A fleet after an event.  What happens to a connection that there is not changes nothing. -/
def handle (fleet : Fleet) : Event → Fleet
  | .create socket codec keys readChunk =>
    { members :=
        fleet.members ++ [some (Connection.ofSocket socket codec keys readChunk).state] }
  | .on i event => ((fleet.at? i).map fun c => fleet.put i (some (c.handle event))).getD fleet
  | .detach i | .drop i => ((fleet.at? i).map fun _ => fleet.put i none).getD fleet

/-- What an event reports.  What is left of a connection that was detached is dropped like any
other. -/
def reportedBy (fleet : Fleet) : Event → List Activity
  | .create socket codec keys readChunk =>
    (Connection.ofSocket socket codec keys readChunk).activity
  | .on i event => ((fleet.at? i).map fun c => c.reportedOn event).getD []
  | .detach i => ((fleet.at? i).map fun c => c.detach.2 ++ c.hollow.farewell).getD []
  | .drop i => ((fleet.at? i).map fun c => c.farewell).getD []

def handleAll (fleet : Fleet) : List Event → Fleet
  | [] => fleet
  | event :: events => (fleet.handle event).handleAll events

/-! ## One event -/

/-- Whether the counters tell how many connections there were and how many hold a socket. -/
structure Counted (fleet : Fleet) (m : Metrics) : Prop where
  opened : m.connectionsOpened.toNat = fleet.members.length
  holding : m.connectionsOpen.toNat = fleet.holding

section Counted

variable {fleet : Fleet} {m : Metrics} {i : Nat} {c : Connection}

theorem holding_le (fleet : Fleet) : fleet.holding ≤ fleet.members.length :=
  List.countP_le_length

/-- Putting something in the place of a connection changes the count by what both of them hold. -/
theorem holding_put (hi : fleet.at? i = some c) (member : Option Connection) :
    (fleet.put i member).holding + c.holdsSocket.toNat =
      fleet.holding + (member.any Connection.holdsSocket).toNat := by
  have hget : fleet.members[i]? = some (some c) := Option.join_eq_some_iff.1 hi
  obtain ⟨hlt, hc⟩ := List.getElem?_eq_some_iff.1 hget
  have hheld : c.holdsSocket.toNat ≤ fleet.holding := by
    cases hholds : c.holdsSocket with
    | false => exact Nat.zero_le _
    | true =>
      refine List.countP_pos_iff.2 ⟨some c, ?_, hholds⟩
      exact hc ▸ List.getElem_mem hlt
  have hput : (fleet.put i member).holding =
      fleet.holding - c.holdsSocket.toNat + (member.any Connection.holdsSocket).toNat := by
    unfold holding put
    rw [List.countP_set hlt, hc, Option.any_some]
    cases c.holdsSocket <;> cases member.any Connection.holdsSocket <;> rfl
  omega

theorem length_put (fleet : Fleet) (i : Nat) (member : Option Connection) :
    (fleet.put i member).members.length = fleet.members.length :=
  List.length_set

-- A connection that does something else than give up its socket.
theorem Counted.stay (h : fleet.Counted m) (hi : fleet.at? i = some c) {c' : Connection}
    (hsame : c'.holdsSocket = c.holdsSocket) {log : List Activity} (hlog : isQuiet log = true) :
    (fleet.put i (some c')).Counted (m.recordAll log) ∧ m.NeverStops log := by
  obtain ⟨hopened, hopen, hstops⟩ := Metrics.recordAll_quiet hlog m
  have hput := holding_put hi (some c')
  rw [Option.any_some, hsame] at hput
  refine ⟨⟨?_, ?_⟩, hstops⟩
  · rw [hopened, length_put]
    exact h.opened
  · rw [hopen, h.holding]
    omega

-- A connection that gives up its socket if it has one.  There is one connection at least then, so
-- that the gauge is not at zero.
theorem Counted.leave (h : fleet.Counted m) (hi : fleet.at? i = some c) (member : Option Connection)
    (hnone : member.any Connection.holdsSocket = false) :
    (fleet.put i member).Counted (m.recordAll c.farewell) ∧ m.NeverStops c.farewell := by
  have hput := holding_put hi member
  rw [hnone] at hput
  unfold Connection.farewell
  cases hs : c.socket?.isSome with
  | false =>
    have hc : c.holdsSocket = false := hs
    rw [hc] at hput
    exact ⟨⟨h.opened.trans (length_put fleet i member).symm, h.holding.trans hput.symm⟩, trivial⟩
  | true =>
    have hc : c.holdsSocket = true := hs
    rw [hc] at hput
    change _ + 1 = fleet.holding + 0 at hput
    have hne : m.connectionsOpen ≠ 0 := by
      intro hzero
      have hholding := h.holding
      rw [hzero] at hholding
      change 0 = _ at hholding
      omega
    refine ⟨⟨h.opened.trans (length_put fleet i member).symm, ?_⟩, fun _ => hne, trivial⟩
    show (Metrics.decrement m.connectionsOpen).toNat = _
    rw [Metrics.toNat_decrement hne, h.holding]
    omega

theorem Counted.create (h : fleet.Counted m) (hlt : fleet.members.length + 1 < 2 ^ 64)
    (c : Connection) (hc : c.holdsSocket = true) :
    ({ members := fleet.members ++ [some c] } : Fleet).Counted
      (m.recordAll [.connectionEstablished]) := by
  have hle := fleet.holding_le
  have hadd (n : UInt64) (hn : n.toNat ≤ fleet.members.length) : (n + 1).toNat = n.toNat + 1 := by
    rw [UInt64.toNat_add]
    exact Nat.mod_eq_of_lt (by change n.toNat + 1 < 2 ^ 64; omega)
  refine ⟨?_, ?_⟩
  · show (m.connectionsOpened + 1).toNat = _
    rw [hadd _ (by rw [h.opened]), h.opened, List.length_append]
    rfl
  · show (m.connectionsOpen + 1).toNat = (fleet.members ++ [some c]).countP _
    rw [hadd _ (by rw [h.holding]; exact hle), h.holding, List.countP_append,
      List.countP_singleton, Option.any_some, hc]
    rfl

/-- An event keeps the counters right, and closes no connection while the gauge is at zero. -/
theorem Counted.handle (h : fleet.Counted m) (event : Event)
    (hlt : (fleet.handle event).members.length < 2 ^ 64) :
    (fleet.handle event).Counted (m.recordAll (fleet.reportedBy event)) ∧
      m.NeverStops (fleet.reportedBy event) := by
  cases event with
  | create socket codec keys readChunk =>
    have hlength : (fleet.handle (.create socket codec keys readChunk)).members.length =
        fleet.members.length + 1 := List.length_append
    rw [hlength] at hlt
    refine ⟨h.create hlt _ rfl, ?_, trivial⟩
    intro hclosed
    cases hclosed
  | on i event =>
    simp only [Fleet.handle, reportedBy]
    cases hi : fleet.at? i with
    | none => exact ⟨h, trivial⟩
    | some c =>
      cases event with
      | call op => exact h.stay hi (Connection.attached_perform c op) (c.isQuiet_reportedBy op)
      | close => exact h.leave hi (some c.close.state) rfl
  | detach i =>
    simp only [Fleet.handle, reportedBy]
    cases hi : fleet.at? i with
    | none => exact ⟨h, trivial⟩
    | some c =>
      -- What is left has nothing to report.
      have hreport : c.detach.2 ++ c.hollow.farewell = c.farewell := List.append_nil _
      simp only [Option.map_some, Option.getD_some, hreport]
      exact h.leave hi none rfl
  | drop i =>
    simp only [Fleet.handle, reportedBy]
    cases hi : fleet.at? i with
    | none => exact ⟨h, trivial⟩
    | some c => exact h.leave hi none rfl

/-! ## Any number of events -/

theorem length_handle (fleet : Fleet) (event : Event) :
    (fleet.handle event).members.length = fleet.members.length + event.creates.toNat := by
  have hput (i : Nat) (member : Connection → Option Connection) :
      (((fleet.at? i).map fun c => fleet.put i (member c)).getD fleet).members.length =
        fleet.members.length := by
    cases fleet.at? i with
    | none => rfl
    | some c => exact length_put fleet i (member c)
  cases event with
  | create socket codec keys readChunk => exact List.length_append
  | on i event => exact hput i fun c => some (c.handle event)
  | detach i => exact hput i fun _ => none
  | drop i => exact hput i fun _ => none

theorem Counted.handleAll (h : fleet.Counted m) (events : List Event)
    (hlt : fleet.members.length + events.countP Event.creates < 2 ^ 64) :
    (fleet.handleAll events).Counted
        (m.recordAll (reportAll Fleet.handle reportedBy fleet events)) ∧
      (fleet.handleAll events).members.length =
        fleet.members.length + events.countP Event.creates ∧
      m.NeverStops (reportAll Fleet.handle reportedBy fleet events) := by
  induction events generalizing fleet m with
  | nil => exact ⟨h, rfl, trivial⟩
  | cons event events ih =>
    have hlength := fleet.length_handle event
    have hcount : (event :: events).countP Event.creates =
        events.countP Event.creates + event.creates.toNat := by
      rw [List.countP_cons]
      cases event.creates <;> rfl
    rw [hcount] at hlt ⊢
    obtain ⟨hfirst, hstops⟩ := h.handle event (by omega)
    obtain ⟨hrest, hall, hstopsRest⟩ := ih hfirst (by omega)
    unfold reportAll
    rw [Metrics.recordAll_append]
    exact ⟨hrest, hall.trans (by omega), Metrics.neverStops_append hstops hstopsRest⟩

end Counted

/-- After any events the gauge is the number of connections that hold a socket, the other counter is
the number of connections that were created, and the gauge has never been made to stop at zero. -/
theorem handleAll_connectionsOpen (events : List Event)
    (hlt : events.countP Event.creates < 2 ^ 64) :
    let log := reportAll handle reportedBy {} events
    let m := Metrics.recordAll {} log
    m.connectionsOpen.toNat = (handleAll {} events).holding ∧
      m.connectionsOpened.toNat = events.countP Event.creates ∧ Metrics.NeverStops {} log := by
  intro log m
  have hnew : ({} : Fleet).Counted {} := ⟨rfl, rfl⟩
  have hlength : ({} : Fleet).members.length = 0 := rfl
  obtain ⟨hcounted, hall, hstops⟩ := hnew.handleAll events (by rwa [hlength, Nat.zero_add])
  rw [hlength, Nat.zero_add] at hall
  exact ⟨hcounted.holding, hcounted.opened.trans hall, hstops⟩

-- Closed twice, detached and dropped, a connection gives up its socket once.
theorem handleAll_connectionsOpen_closedTwice :
    let events : List Event :=
      [.create {} {} {} 1, .create {} {} {} 1, .on 0 .close, .on 0 .close, .detach 0, .drop 0,
        .create {} {} {} 1, .drop 2]
    let log := reportAll handle reportedBy {} events
    let m := Metrics.recordAll {} log
    events.countP Event.creates < 2 ^ 64 ∧ m.connectionsOpen.toNat = 1 ∧
      m.connectionsOpened.toNat = 3 ∧ Metrics.NeverStops {} log := by
  intro events log m
  have hlt : events.countP Event.creates < 2 ^ 64 := by decide
  obtain ⟨hopen, hopened, hstops⟩ := handleAll_connectionsOpen events hlt
  exact ⟨hlt, hopen, hopened, hstops⟩

end Fleet

end GameWire
