import GameWire.Proofs.Capture.Selection
import GameWire.Proofs.Capture.Writing
import GameWire.Proofs.Transport.Buffers

/-!
# Error slots

Every component has a slot for the message of its most recent call.  After any calls the slot is
empty if the last of them succeeded, and tells its failure otherwise: no message is left over from
an earlier call, or is missing.
-/

namespace GameWire

/-! ## Failures -/

def Call.failure? {σ α : Type} (call : Call σ (Except ProtocolError α)) : Option ProtocolError :=
  match call.result with
  | .ok _ => none
  | .error e => some e

/-- Whether a slot holds the text of a failure, and nothing without one. -/
def ErrorSlot.Describes (slot : ErrorSlot) (failure? : Option ProtocolError) : Prop :=
  slot.message? = failure?.map ProtocolError.message

theorem ErrorSlot.describes_ofResult {σ α : Type} (call : Call σ (Except ProtocolError α)) :
    (ErrorSlot.ofResult call.result).Describes call.failure? := by
  unfold Describes Call.failure?
  cases call.result with
  | ok a => rfl
  | error e => rfl

/-! ## Codecs -/

namespace Codec

inductive Operation where
  | decodeRaw (frame : Bytes)
  | encodeRaw (m : Model)
  | decodeSerialized (bs : Bytes)
  | encodeSerialized (m : Model)
  | rawToSerialized (frame : Bytes)
  | serializedToRaw (bs : Bytes)
  | setFormat (format : SerialFormat)
  | setDialect (dialect : Dialect)

def perform (c : Codec) : Operation → Option ProtocolError × Codec
  | .decodeRaw frame => ((c.decodeRaw frame).failure?, (c.decodeRaw frame).state)
  | .encodeRaw m => ((c.encodeRaw m).failure?, (c.encodeRaw m).state)
  | .decodeSerialized bs => ((c.decodeSerialized bs).failure?, (c.decodeSerialized bs).state)
  | .encodeSerialized m => ((c.encodeSerialized m).failure?, (c.encodeSerialized m).state)
  | .rawToSerialized frame => ((c.rawToSerialized frame).failure?, (c.rawToSerialized frame).state)
  | .serializedToRaw bs => ((c.serializedToRaw bs).failure?, (c.serializedToRaw bs).state)
  | .setFormat format => ((c.setFormat format).failure?, (c.setFormat format).state)
  | .setDialect dialect => (none, c.setDialect dialect)

/-- Whether a codec tells what came of a call, and is as before the call if that failed. -/
structure Tells (c : Codec) (op : Operation) : Prop where
  describes : (c.perform op).2.error.Describes (c.perform op).1
  unchanged : (c.perform op).1.isSome →
    (c.perform op).2.dialect = c.dialect ∧ (c.perform op).2.format = c.format

/-- Only a format that may be selected is, and that is no failure. -/
theorem tells_setFormat (c : Codec) (format : SerialFormat) : c.Tells (.setFormat format) := by
  have hslot : (c.setFormat format).state.error = .ofResult (c.setFormat format).result := by
    unfold setFormat
    split <;> rfl
  refine ⟨hslot ▸ ErrorSlot.describes_ofResult (c.setFormat format), fun hfailed => ?_⟩
  change (c.setFormat format).failure?.isSome at hfailed
  show (c.setFormat format).state.dialect = c.dialect ∧
    (c.setFormat format).state.format = c.format
  unfold setFormat at hfailed ⊢
  by_cases hf : c.supportsFormat format = true
  · rw [if_pos hf] at hfailed
    cases hfailed
  · rw [if_neg hf]
    exact ⟨rfl, rfl⟩

/-- Every call but one leaves its result in the slot and touches nothing else. -/
theorem tells (c : Codec) (op : Operation) : c.Tells op := by
  cases op with
  | decodeRaw frame => exact ⟨ErrorSlot.describes_ofResult (c.decodeRaw frame), fun _ => ⟨rfl, rfl⟩⟩
  | encodeRaw m => exact ⟨ErrorSlot.describes_ofResult (c.encodeRaw m), fun _ => ⟨rfl, rfl⟩⟩
  | decodeSerialized bs =>
    exact ⟨ErrorSlot.describes_ofResult (c.decodeSerialized bs), fun _ => ⟨rfl, rfl⟩⟩
  | encodeSerialized m =>
    exact ⟨ErrorSlot.describes_ofResult (c.encodeSerialized m), fun _ => ⟨rfl, rfl⟩⟩
  | rawToSerialized frame =>
    exact ⟨ErrorSlot.describes_ofResult (c.rawToSerialized frame), fun _ => ⟨rfl, rfl⟩⟩
  | serializedToRaw bs =>
    exact ⟨ErrorSlot.describes_ofResult (c.serializedToRaw bs), fun _ => ⟨rfl, rfl⟩⟩
  | setFormat format => exact tells_setFormat c format
  | setDialect dialect => exact ⟨rfl, fun hfailed => nomatch hfailed⟩

end Codec

/-! ## Connections -/

namespace Connection

def poll? (c : Connection) : Event → Option Poll
  | .call .read => some c.read.result
  | .call (.write entropy m?) => some (c.write entropy m?).result
  | _ => none

/-- Whether there is a message after a read or a write exactly if that failed or had no socket. -/
def Tells (c : Connection) (event : Event) : Prop :=
  ∀ poll, c.poll? event = some poll →
    ((c.handle event).error.message?.isSome ↔ poll = .failed ∨ poll = .noSocket)

theorem tells_read (c : Connection) : c.read.state.error.message?.isSome ↔
    c.read.result = .failed ∨ c.read.result = .noSocket := by
  cases hs : c.socket? with
  | none =>
    rw [(read_of_noSocket hs).1, (read_of_noSocket hs).2]
    exact iff_of_true rfl (.inr rfl)
  | some socket =>
    by_cases he : c.state = .errored
    · have hread := read_of_errored (by rw [hs]; rfl) he
      rw [hread.1, hread.2]
      exact iff_of_true rfl (.inl rfl)
    · cases hp : (c.pullFrame socket).result with
      | error e =>
        rw [(read_of_error hs he hp).1, (read_of_error hs he hp).2]
        exact iff_of_true rfl (.inl rfl)
      | ok m? =>
        cases m? with
        | some m =>
          rw [(read_of_packet hs he hp).1, (read_of_packet hs he hp).2]
          exact iff_of_false Bool.false_ne_true (by decide)
        | none =>
          rw [(read_of_none hs he hp).1, (read_of_none hs he hp).2]
          exact iff_of_false Bool.false_ne_true (by decide)

theorem tells_send (c : Connection) (socket : Socket) :
    (c.send socket).state.error.message?.isSome ↔
      (c.send socket).result = .failed ∨ (c.send socket).result = .noSocket := by
  cases hp : (pushAndFlush socket c.outbound).result with
  | error e =>
    rw [(send_of_error hp).1, (send_of_error hp).2]
    exact iff_of_true rfl (.inl rfl)
  | ok done =>
    cases done with
    | true =>
      rw [(send_of_done hp).1, (send_of_done hp).2]
      exact iff_of_false Bool.false_ne_true (by decide)
    | false =>
      rw [(send_of_waiting hp).1, (send_of_waiting hp).2]
      exact iff_of_false Bool.false_ne_true (by decide)

theorem tells_write (c : Connection) (entropy : Entropy) (m? : Option Model) :
    (c.write entropy m?).state.error.message?.isSome ↔
      (c.write entropy m?).result = .failed ∨ (c.write entropy m?).result = .noSocket := by
  cases hs : c.socket? with
  | none =>
    rw [(write_of_noSocket hs entropy m?).1, (write_of_noSocket hs entropy m?).2]
    exact iff_of_true rfl (.inr rfl)
  | some socket =>
    cases m? with
    | none =>
      rw [write_of_none hs]
      exact tells_send c socket
    | some m =>
      cases he : (c.framer.encode entropy m).result with
      | error e =>
        rw [(write_of_error hs he).1, (write_of_error hs he).2]
        exact iff_of_true rfl (.inl rfl)
      | ok bs =>
        rw [(write_of_ok hs he).1, (write_of_ok hs he).2]
        exact tells_send _ socket

theorem tells (c : Connection) (event : Event) : c.Tells event := by
  intro poll hpoll
  cases event with
  | close => cases hpoll
  | call op =>
    cases op with
    | read =>
      cases hpoll
      exact c.tells_read
    | write entropy m? =>
      cases hpoll
      exact c.tells_write entropy m?
    | take => cases hpoll
    | setDialect dialect => cases hpoll

end Connection

/-! ## Capture readers -/

namespace CaptureReader

def perform (r : CaptureReader) : Operation → CaptureReader
  | .next => r.next.state
  | .setOutput output => r.setOutput output
  | .takeRecord => r.takeRecord.2

/-- Whether there is a message after a step exactly if that found the capture damaged. -/
def Tells (r : CaptureReader) : Operation → Prop
  | .next => r.next.state.error.message?.isSome ↔ r.next.result = .formatError
  | _ => True

theorem tells (r : CaptureReader) (op : Operation) : r.Tells op := by
  cases op with
  | setOutput output => trivial
  | takeRecord => trivial
  | next =>
    show r.next.state.error.message?.isSome ↔ r.next.result = .formatError
    obtain ⟨frame, -, hresult, hstate⟩ | ⟨status, error, -, hresult, hstate, herror⟩ := r.next_cases
    · -- A frame that does not decode is yielded like any other.
      obtain ⟨record?, error, hemit⟩ :=
        exists_state_emit (r.movedTo (r.place.turn r.header.version).2) frame
      rw [hresult, hstate, hemit]
      exact iff_of_false Bool.false_ne_true (result_emit_ne _ frame)
    · rw [hresult, hstate]
      exact herror

end CaptureReader

/-! ## Capture writers -/

namespace CaptureWriter

/-- A call on a writer, or its end. -/
inductive Event where
  | call (op : Operation)
  | finish

/-- The outcome of an event, where a writer finishes with the given compression. -/
def handle (compress : Bytes → Bytes) (w : CaptureWriter) :
    Event → Call CaptureWriter (Except ProtocolError Unit)
  | .call op => w.perform op
  | .finish => w.finishBy compress

def Tells (compress : Bytes → Bytes) (w : CaptureWriter) (event : Event) : Prop :=
  (w.handle compress event).state.error.Describes (w.handle compress event).failure?

/-- Every way out of a call leaves its result in the slot. -/
theorem error_perform (w : CaptureWriter) (op : Operation) :
    (w.perform op).state.error = .ofResult (w.perform op).result := by
  cases op with
  | packet timestamp direction m =>
    unfold perform writePacket
    simp only
    split <;> rfl
  | data timestamp direction bs => rfl
  | unchecked timestamp direction bs => rfl
  | changeDialect dialect =>
    unfold perform changeDialect
    simp only
    split
    · rfl
    · split
      · rfl
      · split <;> rfl

theorem error_finishBy (compress : Bytes → Bytes) (w : CaptureWriter) :
    (w.finishBy compress).state.error = .ofResult (w.finishBy compress).result := by
  unfold finishBy
  split
  · rfl
  · simp only
    split
    · split <;> rfl
    · rfl

theorem tells (compress : Bytes → Bytes) (w : CaptureWriter) (event : Event) :
    w.Tells compress event := by
  have herror : (w.handle compress event).state.error =
      .ofResult (w.handle compress event).result := by
    cases event with
    | call op => exact w.error_perform op
    | finish => exact w.error_finishBy compress
  unfold Tells
  rw [herror]
  exact ErrorSlot.describes_ofResult (w.handle compress event)

end CaptureWriter

/-- After every call of any sequence, the error slot of a component tells what came of that call. -/
theorem ErrorSlot.tells_lastCall (c : Codec) (codecOps : List Codec.Operation)
    (connection : Connection) (events : List Connection.Event) (r : CaptureReader)
    (readerOps : List CaptureReader.Operation) (compress : Bytes → Bytes) (w : CaptureWriter)
    (writerEvents : List CaptureWriter.Event) :
    Throughout (fun c op => (Codec.perform c op).2) Codec.Tells c codecOps ∧
      Throughout Connection.handle Connection.Tells connection events ∧
      Throughout CaptureReader.perform CaptureReader.Tells r readerOps ∧
      Throughout (fun w event => (CaptureWriter.handle compress w event).state)
        (CaptureWriter.Tells compress) w writerEvents :=
  ⟨throughout_of_forall Codec.tells c codecOps,
    throughout_of_forall Connection.tells connection events,
    throughout_of_forall CaptureReader.tells r readerOps,
    throughout_of_forall (CaptureWriter.tells compress) w writerEvents⟩

end GameWire
