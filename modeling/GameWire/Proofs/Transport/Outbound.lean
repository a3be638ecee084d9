import GameWire.Proofs.Transport.Calls

/-!
# Bytes on their way out

Whatever a socket answers, a byte that was queued is either accepted by the socket or still
buffered: the two together only grow, by what each write encodes.
-/

namespace GameWire.Connection

/-! ## Accepted and buffered bytes -/

def accepted (c : Connection) : Bytes := (c.socket?.map (·.accepted)).getD []

/-- The bytes that a call queues: what a write encodes, if it does. -/
def queuedBy (c : Connection) : Operation → Bytes
  | .write entropy (some m) =>
    match c.socket?, (c.framer.encode entropy m).result with
    | some _, .ok bs => bs
    | _, _ => []
  | _ => []

def queuedByAll (c : Connection) : List Operation → Bytes
  | [] => []
  | op :: ops => c.queuedBy op ++ (c.perform op).queuedByAll ops

/-! ## Writing -/

/-- What a socket accepts is taken from the front of what it is offered. -/
theorem accepted_write_ok {socket : Socket} {offered : Bytes} {n : Nat}
    (h : (socket.write offered).1 = .ok n) :
    (socket.write offered).2.accepted = socket.accepted ++ offered.take n ∧
      n ≤ offered.length := by
  unfold Socket.write at h ⊢
  cases hw : socket.writes with
  | nil =>
    simp only [hw] at h ⊢
    cases h
    exact ⟨by rw [List.take_length], Nat.le_refl _⟩
  | cons answer writes =>
    cases answer with
    | failed e =>
      simp only [hw] at h
      cases h
    | accept most =>
      simp only [hw] at h ⊢
      cases h
      exact ⟨by rw [List.take_eq_take_min], Nat.min_le_right _ _⟩

theorem accepted_write_error {socket : Socket} {offered : Bytes} {e : IoError}
    (h : (socket.write offered).1 = .error e) :
    (socket.write offered).2.accepted = socket.accepted := by
  unfold Socket.write at h ⊢
  cases hw : socket.writes with
  | nil =>
    simp only [hw] at h
    cases h
  | cons answer writes =>
    cases answer with
    | failed e => rfl
    | accept most =>
      simp only [hw] at h
      cases h

/-- Pushing loses nothing, and when it says so everything was accepted. -/
theorem push_conserves (socket : Socket) (outbound : Bytes) :
    (push socket outbound).state.1.accepted ++ (push socket outbound).state.2 =
        socket.accepted ++ outbound ∧
      ((push socket outbound).result = .ok true → (push socket outbound).state.2 = []) := by
  -- Whether a write succeeds or fails, what it leaves behind is still offered.
  fun_induction push socket outbound with
  | case1 socket => exact ⟨rfl, fun _ => rfl⟩
  | case2 socket outbound _ e hw _ =>
    exact ⟨congrArg (· ++ outbound) (accepted_write_error hw), fun h => by cases h⟩
  | case3 socket outbound _ e hw _ _ ih =>
    rw [accepted_write_error hw] at ih
    exact ih
  | case4 socket outbound _ e hw _ =>
    exact ⟨congrArg (· ++ outbound) (accepted_write_error hw), fun h => by cases h⟩
  | case5 socket outbound _ hw =>
    refine ⟨?_, fun h => by cases h⟩
    rw [(accepted_write_ok hw).1, List.take_zero, List.append_nil]
  | case6 socket outbound _ n hw _ pushed ih =>
    rw [(accepted_write_ok hw).1, List.append_assoc, List.take_append_drop] at ih
    exact ih

theorem accepted_flush (socket : Socket) : socket.flush.2.accepted = socket.accepted := by
  unfold Socket.flush
  split <;> rfl

theorem pushAndFlush_conserves (socket : Socket) (outbound : Bytes) :
    (pushAndFlush socket outbound).state.1.accepted ++ (pushAndFlush socket outbound).state.2 =
        socket.accepted ++ outbound ∧
      ((pushAndFlush socket outbound).result = .ok true →
        (pushAndFlush socket outbound).state.2 = []) := by
  obtain ⟨hall, hdone⟩ := push_conserves socket outbound
  unfold pushAndFlush
  simp only
  split
  · rename_i hr
    refine ⟨?_, fun _ => hdone hr⟩
    show (push socket outbound).state.1.flush.2.accepted ++ (push socket outbound).state.2 = _
    rw [accepted_flush, hall]
  · exact ⟨hall, hdone⟩

/-- Sending loses nothing, and it is complete only when nothing is buffered any more. -/
theorem send_conserves (c : Connection) {socket : Socket} (hs : c.socket? = some socket) :
    (c.send socket).state.accepted ++ (c.send socket).state.outbound = c.accepted ++ c.outbound ∧
      ((c.send socket).result = .ready → (c.send socket).state.outbound = []) := by
  obtain ⟨hall, hdone⟩ := pushAndFlush_conserves socket c.outbound
  have haccepted : c.accepted = socket.accepted := by
    unfold accepted
    rw [hs]
    rfl
  rw [haccepted]
  unfold send
  simp only
  split
  · rename_i hr
    exact ⟨hall, fun _ => hdone hr⟩
  · exact ⟨hall, fun h => by cases h⟩
  · exact ⟨hall, fun h => by cases h⟩

/-- Writing adds what it encodes to what was accepted or buffered before. -/
theorem write_conserves (c : Connection) (entropy : Entropy) (m? : Option Model) :
    (c.write entropy m?).state.accepted ++ (c.write entropy m?).state.outbound =
      c.accepted ++ c.outbound ++ c.queuedBy (.write entropy m?) ∧
    ((c.write entropy m?).result = .ready → (c.write entropy m?).state.outbound = []) := by
  -- Nothing is queued without a socket, without a model, or if the model cannot be encoded.
  cases hs : c.socket? with
  | none =>
    obtain ⟨hr, hc⟩ := write_of_noSocket hs entropy m?
    have hqueued : c.queuedBy (.write entropy m?) = [] := by
      cases m? with
      | none => rfl
      | some m => simp only [queuedBy, hs]
    rw [hr, hc, hqueued, List.append_nil]
    exact ⟨rfl, fun h => by cases h⟩
  | some socket =>
    cases m? with
    | none =>
      obtain ⟨hall, hdone⟩ := c.send_conserves hs
      rw [write_of_none hs]
      exact ⟨hall.trans (List.append_nil _).symm, hdone⟩
    | some m =>
      cases he : (c.framer.encode entropy m).result with
      | error e =>
        obtain ⟨hr, hc⟩ := write_of_error hs he
        have hqueued : c.queuedBy (.write entropy (some m)) = [] := by
          simp only [queuedBy, hs, he]
        rw [hr, hc, hqueued, List.append_nil]
        exact ⟨rfl, fun h => by cases h⟩
      | ok bs =>
        obtain ⟨hr, hc⟩ := write_of_ok hs he
        obtain ⟨hall, hdone⟩ := (c.queue (c.framer.encode entropy m).state bs).send_conserves hs
        have hqueued : c.queuedBy (.write entropy (some m)) = bs := by
          simp only [queuedBy, hs, he]
        rw [hr, hc, hqueued]
        exact ⟨hall.trans (List.append_assoc _ _ _).symm, hdone⟩

/-! ## Reading -/

theorem accepted_socketRead (socket : Socket) (most : Nat) :
    (socket.read most).2.accepted = socket.accepted := by
  unfold Socket.read
  split <;> rfl

theorem accepted_pull (most : Nat) (hm : 0 < most) (f : Framer) (inbound : Bytes)
    (socket : Socket) : (pull most hm f inbound socket).state.2.2.accepted = socket.accepted := by
  fun_induction pull most hm f inbound socket with
  | case1 => rfl
  | case2 => exact accepted_socketRead _ _
  | case3 _ _ _ _ _ _ _ _ ih => exact ih.trans (accepted_socketRead _ _)
  | case4 => exact accepted_socketRead _ _
  | case5 => exact accepted_socketRead _ _
  | case6 _ _ _ _ _ _ _ _ _ _ _ _ ih => exact ih.trans (accepted_socketRead _ _)
  | case7 => exact accepted_socketRead _ _

theorem accepted_pullFrame (c : Connection) (socket : Socket) :
    (c.pullFrame socket).state.2.2.accepted = socket.accepted := by
  unfold pullFrame
  simp only
  split
  · exact accepted_pull _ _ _ _ _
  · rfl

/-- Reading leaves alone what goes out. -/
theorem read_conserves (c : Connection) :
    c.read.state.accepted = c.accepted ∧ c.read.state.outbound = c.outbound := by
  unfold read
  split
  · exact ⟨rfl, rfl⟩
  · rename_i socket hs
    split
    · exact ⟨rfl, rfl⟩
    · have haccepted : (c.pullFrame socket).state.2.2.accepted = c.accepted := by
        rw [accepted_pullFrame, accepted, hs]
        rfl
      simp only
      split
      · exact ⟨haccepted, rfl⟩
      · exact ⟨haccepted, rfl⟩
      · exact ⟨haccepted, rfl⟩

/-! ## Any sequence of calls -/

/-- Each call adds what it queues to what was accepted or buffered before. -/
theorem perform_conserves (c : Connection) (op : Operation) :
    (c.perform op).accepted ++ (c.perform op).outbound =
      c.accepted ++ c.outbound ++ c.queuedBy op := by
  cases op with
  | read =>
    obtain ⟨haccepted, houtbound⟩ := c.read_conserves
    show c.read.state.accepted ++ c.read.state.outbound = _
    rw [haccepted, houtbound]
    exact (List.append_nil _).symm
  | write entropy m? => exact (c.write_conserves entropy m?).1
  | take => exact (List.append_nil _).symm
  | setDialect dialect => exact (List.append_nil _).symm

theorem run_conserves_all (c : Connection) (ops : List Operation) :
    (c.run ops).accepted ++ (c.run ops).outbound =
      c.accepted ++ c.outbound ++ c.queuedByAll ops := by
  induction ops generalizing c with
  | nil => exact (List.append_nil _).symm
  | cons op ops ih =>
    show ((c.perform op).run ops).accepted ++ ((c.perform op).run ops).outbound = _
    rw [ih, c.perform_conserves op, List.append_assoc]
    rfl

/-- No byte on its way out is lost, duplicated or put in another place: what the socket has
accepted, followed by what is buffered, is what was there before, followed by what the calls have
encoded.  So the number of bytes that are pending is exact, and a write is ready only when none
are. -/
theorem run_conserves (c : Connection) (ops : List Operation) :
    (c.run ops).accepted ++ (c.run ops).outbound =
        c.accepted ++ c.outbound ++ c.queuedByAll ops ∧
      (c.run ops).accepted.length + (c.run ops).pendingOutput =
        (c.accepted ++ c.outbound ++ c.queuedByAll ops).length ∧
      ∀ entropy m?, ((c.run ops).write entropy m?).result = .ready →
        ((c.run ops).write entropy m?).state.pendingOutput = 0 := by
  have hall := c.run_conserves_all ops
  refine ⟨hall, ?_, fun entropy m? hr => ?_⟩
  · rw [← hall, List.length_append]
    rfl
  · unfold pendingOutput
    rw [((c.run ops).write_conserves entropy m?).2 hr]
    rfl

end GameWire.Connection
