import GameWire.Proofs.Transport.Calls

/-!
# Connections after a failure

A failure leaves a connection `errored`, and from then on reads fail without touching the socket.
Of all calls only a write that blocks ends this: it leaves the connection `blocked`, and the next
read reads again.
-/

namespace GameWire.Connection

/-! ## One call -/

/-- Whether a call is a write that cannot be finished now. -/
def blocksOn (c : Connection) : Operation → Prop
  | .write entropy m? => (c.write entropy m?).result = .blocked
  | .read | .take | .setDialect _ => False

theorem read_of_errored {c : Connection} (hs : c.socket?.isSome = true) (he : c.state = .errored) :
    c.read.result = .failed ∧ c.read.state = { c with error := .ofMessage erroredMessage } := by
  obtain ⟨socket, hs⟩ := Option.isSome_iff_exists.1 hs
  unfold read
  simp only [hs, if_pos he, and_self]

theorem send_of_errored {c : Connection} (he : c.state = .errored) (socket : Socket) :
    (c.send socket).state.state =
      if (c.send socket).result = .blocked then .blocked else .errored := by
  have hne : ¬ c.state = .blocked := by rw [he]; decide
  unfold send
  simp only
  split
  · -- Only a blocked connection changes its state when everything is sent.
    simp only [if_neg hne, reduceCtorEq, if_false]
    exact he
  · rfl
  · rfl

/-- A write that cannot be encoded changes nothing, and any other one ends with sending. -/
theorem write_of_errored {c : Connection} (he : c.state = .errored) (entropy : Entropy)
    (m? : Option Model) :
    (c.write entropy m?).state.state =
      if (c.write entropy m?).result = .blocked then .blocked else .errored := by
  cases hs : c.socket? with
  | none =>
    obtain ⟨hr, hc⟩ := write_of_noSocket hs entropy m?
    rw [hr, hc]
    exact he
  | some socket =>
    cases m? with
    | none =>
      rw [write_of_none hs]
      exact send_of_errored he socket
    | some m =>
      cases hm : (c.framer.encode entropy m).result with
      | error e =>
        obtain ⟨hr, hc⟩ := write_of_error hs hm
        rw [hr, hc]
        exact he
      | ok bs =>
        obtain ⟨hr, hc⟩ := write_of_ok hs hm
        rw [hr, hc]
        exact send_of_errored (c := c.queue (c.framer.encode entropy m).state bs) he socket

/-- A call on an errored connection leaves it so, unless it is a write that blocks. -/
theorem perform_of_errored {c : Connection} (hs : c.socket?.isSome = true)
    (he : c.state = .errored) (op : Operation) :
    (c.perform op).state = .errored ↔ ¬ c.blocksOn op := by
  cases op with
  | read =>
    have hr : c.read.state.state = .errored := by rw [(read_of_errored hs he).2]; exact he
    exact ⟨fun _ h => h, fun _ => hr⟩
  | write entropy m? =>
    show (c.write entropy m?).state.state = _ ↔ ¬ (c.write entropy m?).result = .blocked
    rw [write_of_errored he]
    by_cases hb : (c.write entropy m?).result = .blocked
    · simp [hb]
    · simp [hb]
  | take =>
    have ht : c.takePacket.state.state = .errored := by
      unfold takePacket
      simp [he]
    exact ⟨fun _ h => h, fun _ => ht⟩
  | setDialect dialect => exact ⟨fun _ h => h, fun _ => he⟩

/-- No call but closing gives up the socket. -/
theorem attached_send (c : Connection) (socket : Socket) :
    (c.send socket).state.socket?.isSome = true := by
  unfold send fail
  simp only
  split <;> rfl

theorem attached_perform (c : Connection) (op : Operation) :
    (c.perform op).socket?.isSome = c.socket?.isSome := by
  cases op with
  | read =>
    show c.read.state.socket?.isSome = _
    unfold read fail
    split
    · rfl
    · rename_i socket hs
      rw [hs]
      split
      · simp
      · simp only
        split <;> rfl
  | write entropy m? =>
    show (c.write entropy m?).state.socket?.isSome = _
    cases hs : c.socket? with
    | none => rw [(write_of_noSocket hs entropy m?).2, hs]
    | some socket =>
      cases m? with
      | none => rw [write_of_none hs, attached_send]; rfl
      | some m =>
        cases hm : (c.framer.encode entropy m).result with
        | error e => rw [(write_of_error hs hm).2, hs]
        | ok bs => rw [(write_of_ok hs hm).2, attached_send]; rfl
  | take => rfl
  | setDialect dialect => rfl

/-! ## Any sequence of calls -/

/-- Whether none of a list of calls is a write that cannot be finished when it is made. -/
def NeverBlocks (c : Connection) : List Operation → Prop
  | [] => True
  | op :: ops => ¬ c.blocksOn op ∧ (c.perform op).NeverBlocks ops

/-- An errored connection stays errored, and every read of it fails without touching the socket or
yielding a packet, exactly as long as no write blocks. -/
theorem run_errored_iff {c : Connection} (hs : c.socket?.isSome = true) (he : c.state = .errored)
    (ops : List Operation) :
    (∀ before, before <+: ops →
        (c.run before).state = .errored ∧ (c.run before).read.result = .failed ∧
          (c.run before).read.state =
            { c.run before with error := .ofMessage erroredMessage }) ↔
      c.NeverBlocks ops := by
  induction ops generalizing c with
  | nil =>
    refine ⟨fun _ => trivial, fun _ before hbefore => ?_⟩
    rw [List.prefix_nil.1 hbefore]
    exact ⟨he, read_of_errored hs he⟩
  | cons op ops ih =>
    have hattached : (c.perform op).socket?.isSome = true := (attached_perform c op).trans hs
    constructor
    · intro h
      have hop : (c.perform op).state = .errored :=
        (h [op] (List.cons_prefix_cons.2 ⟨rfl, List.nil_prefix⟩)).1
      refine ⟨(perform_of_errored hs he op).1 hop, (ih hattached hop).1 fun before hbefore => ?_⟩
      exact h (op :: before) (List.cons_prefix_cons.2 ⟨rfl, hbefore⟩)
    · intro ⟨hfirst, hrest⟩ before hbefore
      have hop : (c.perform op).state = .errored := (perform_of_errored hs he op).2 hfirst
      cases before with
      | nil => exact ⟨he, read_of_errored hs he⟩
      | cons op' before =>
        obtain ⟨rfl, hback⟩ := List.cons_prefix_cons.1 hbefore
        exact (ih hattached hop).2 hrest before hback

/-- A connection that is reset at its first read and finds a frame at its second one, and whose
first flush blocks. -/
def resetOnce : Connection :=
  (ofSocket
    { reads :=
        [.failed ⟨.permanent, "connection reset"⟩,
          .bytes [0x0C, 0, 0, 0, 0x19, 0x0F, 0, 0, 5, 0, 0, 0]]
      flushes := [some .wouldBlock] }
    {} {} 4096).state

theorem run_errored_iff_resetOnce :
    let c : Connection := { resetOnce with socket? := some {}, state := .errored }
    let ops : List Operation := [.write (fun _ => 0) none, .take, .setDialect .ngs]
    c.socket?.isSome = true ∧ c.state = .errored ∧ c.NeverBlocks ops ∧
      (c.run ops).state = .errored ∧ (c.run ops).read.result = .failed := by
  intro c ops
  have hwrite : (c.write (fun _ => 0) none).result = .ready := by
    unfold write send pushAndFlush
    simp only [c]
    rw [push]
    rfl
  have hblocks : c.NeverBlocks ops := by
    refine ⟨?_, id, id, trivial⟩
    show ¬ (c.write _ none).result = .blocked
    rw [hwrite]
    decide
  have h := (run_errored_iff (c := c) rfl rfl ops).2 hblocks ops (List.prefix_refl ops)
  exact ⟨rfl, rfl, hblocks, h.1, h.2.1⟩

/-- An error is not final: a write that blocks ends it, and then a read takes a packet off the
socket. -/
theorem read_resetOnce_of_blocked :
    let failed := resetOnce.run [.read]
    let blocked := resetOnce.run [.read, .write (fun _ => 0) none]
    failed.state = .errored ∧ blocked.state = .blocked ∧ blocked.read.result = .ready ∧
      blocked.read.state.pending? =
        some { dialect := .classic, packet := .lobbyMonitor { videoId := 5 } } := by
  intro failed blocked
  let rest : Socket :=
    { reads := [.bytes [0x0C, 0, 0, 0, 0x19, 0x0F, 0, 0, 5, 0, 0, 0]]
      flushes := [some .wouldBlock] }
  have hfailed : failed =
      { resetOnce with
        socket? := some rest
        state := .errored
        error := .ofError (.io ⟨.permanent, "connection reset"⟩) } := by
    show resetOnce.read.state = _
    unfold read resetOnce ofSocket pullFrame
    simp only
    rw [pull]
    rfl
  have hblocked : blocked =
      { resetOnce with
        socket? := some { rest with flushes := [] }
        state := .blocked
        error := .empty } := by
    show (failed.write _ none).state = _
    rw [hfailed]
    unfold write send pushAndFlush
    simp only
    rw [push]
    rfl
  have hread : blocked.read.result = .ready ∧ blocked.read.state.pending? =
      some { dialect := .classic, packet := .lobbyMonitor { videoId := 5 } } := by
    rw [hblocked]
    unfold read pullFrame
    simp only
    rw [pull]
    exact ⟨rfl, rfl⟩
  exact ⟨by rw [hfailed], by rw [hblocked], hread⟩

end GameWire.Connection
