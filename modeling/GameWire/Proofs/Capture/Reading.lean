import GameWire.Capture.Reader
import GameWire.Proofs.Capture.Records

/-!
# Runs of a capture reader

What a reader yields, step by step.  The lemmas on single steps say what becomes of the records at
the front of the source; `CaptureReader.Yields` puts steps together.
-/

namespace GameWire

def CaptureOutput.resultOf (output : CaptureOutput) (codec : Codec) (timestamp : Timestamp)
    (direction : Direction) (frame : Bytes) : ReadStatus × Option CaptureRecord :=
  let record : CaptureRecord := { timestamp, direction, dialect := codec.dialect }
  match output, codec.decodeFrame frame with
  | .raw, _ => (.rawOnly, some { record with data := some frame })
  | .packet, .ok m => (.parsed, some { record with packet := some m })
  | .both, .ok m => (.parsed, some { record with packet := some m, data := some frame })
  | .packet, .error e | .both, .error e =>
    (.rawOnly, some { record with data := some frame, parseError := some e.message })

def CaptureOutput.resultsOf (output : CaptureOutput) (codec : Codec) (r : StoredRecord) :
    List (ReadStatus × Option CaptureRecord) :=
  (StoredRecord.framesIn r.data).map (output.resultOf codec r.timestamp r.direction)

namespace CaptureReader

/-! ## Steps and runs -/

def yielded (r : CaptureReader) : ReadStatus × Option CaptureRecord :=
  (r.next.result, r.next.state.record?)

def after : (steps : Nat) → CaptureReader → CaptureReader
  | 0, r => r
  | steps + 1, r => after steps r.next.state

/-- Whether a reader yields certain results and then always the same last one. -/
def Yields (r : CaptureReader) (results : List (ReadStatus × Option CaptureRecord))
    (last : ReadStatus × Option CaptureRecord) : Prop :=
  ∀ i, (r.after i).yielded = (results[i]?).getD last

/-- Whether a reader yields certain results at first, whatever it yields then. -/
def YieldsFirst (r : CaptureReader) (results : List (ReadStatus × Option CaptureRecord)) : Prop :=
  ∀ i result, results[i]? = some result → (r.after i).yielded = result

/-- Whether a reader yields certain results, and is another reader then. -/
inductive Leads :
    CaptureReader → List (ReadStatus × Option CaptureRecord) → CaptureReader → Prop where
  | refl (r : CaptureReader) : Leads r [] r
  | step {r r' : CaptureReader} {results : List (ReadStatus × Option CaptureRecord)}
    (rest : Leads r.next.state results r') : Leads r (r.yielded :: results) r'

theorem after_add (steps more : Nat) (r : CaptureReader) :
    r.after (steps + more) = (r.after steps).after more := by
  induction steps generalizing r with
  | zero => rw [Nat.zero_add]; rfl
  | succ steps ih =>
    rw [Nat.add_right_comm]
    exact ih r.next.state

section Yields

variable {r r' r'' : CaptureReader} {result last : ReadStatus × Option CaptureRecord}
  {results more : List (ReadStatus × Option CaptureRecord)}

theorem Yields.cons (h : r.yielded = result) (hs : r.next.state.Yields results last) :
    r.Yields (result :: results) last := by
  intro i
  cases i with
  | zero => exact h
  | succ i => exact hs i

theorem Leads.cons (h : r.yielded = result) (hrest : r.next.state.Leads results r') :
    r.Leads (result :: results) r' :=
  h ▸ .step hrest

theorem Leads.append (h : r.Leads results r') (hmore : r'.Leads more r'') :
    r.Leads (results ++ more) r'' := by
  induction h with
  | refl r => exact hmore
  | step rest ih => exact .step (ih hmore)

theorem Leads.yields (h : r.Leads results r') (hmore : r'.Yields more last) :
    r.Yields (results ++ more) last := by
  induction h with
  | refl r => exact hmore
  | step rest ih => exact Yields.cons rfl (ih hmore)

theorem Leads.yieldsFirst (h : r.Leads results r') : r.YieldsFirst results := by
  induction h with
  | refl r => exact fun i result hresult => nomatch hresult
  | step rest ih =>
    intro i result hresult
    cases i with
    | zero => exact Option.some.inj hresult
    | succ i => exact ih i result hresult

/-- A reader yields the same forever if every step keeps what made it yield that. -/
theorem yields_nil {P : CaptureReader → Prop}
    (hstep : ∀ r, P r → r.yielded = last ∧ P r.next.state) (h : P r) : r.Yields [] last := by
  intro i
  induction i generalizing r with
  | zero => exact (hstep r h).1
  | succ i ih => exact ih (hstep r h).2

end Yields

/-! ## Where a reader stands -/

/-- What a reader knows and does not change. -/
structure Knows (r : CaptureReader) (version : UInt8) (output : CaptureOutput) (codec : Codec) :
    Prop where
  version : r.header.version = version
  dialect : r.header.dialect = codec.dialect
  output : r.output = output
  codec : r.codec.dialect = codec.dialect ∧ r.codec.settings = codec.settings

/-- What a reader has not come to yet, and the record it is within. -/
structure Position where
  bytes : Bytes
  queued : List Bytes
  timestamp : Timestamp
  direction : Direction

structure StandsAt (r : CaptureReader) (p : Position) : Prop where
  source : r.source = { bytes := p.bytes }
  queued : r.queued = p.queued
  timestamp : r.timestamp = p.timestamp
  direction : r.direction = p.direction
  failed : r.failed = false

section Steps

variable {r : CaptureReader} {version : UInt8} {output : CaptureOutput} {codec : Codec}
  {p : Position}

/-- Yielding a frame changes nothing but what is yielded and the codec's error slot. -/
theorem exists_state_emit (r : CaptureReader) (frame : Bytes) :
    ∃ record? error, (r.emit frame).state =
      { r with record?, codec := { r.codec with error } } := by
  unfold emit
  by_cases ho : r.output = .raw
  · rw [if_pos ho]
    exact ⟨_, r.codec.error, rfl⟩
  · rw [if_neg ho]
    simp only [Codec.decodeRaw, Codec.answer]
    cases r.codec.decodeFrame frame with
    | ok m => exact ⟨_, _, rfl⟩
    | error e => exact ⟨_, _, rfl⟩

theorem Knows.emit (hk : r.Knows version output codec) (frame : Bytes) :
    (r.emit frame).state.Knows version output codec := by
  obtain ⟨record?, error, he⟩ := exists_state_emit r frame
  rw [he]
  exact ⟨hk.version, hk.dialect, hk.output, hk.codec⟩

theorem StandsAt.emit (hp : r.StandsAt p) (frame : Bytes) : (r.emit frame).state.StandsAt p := by
  obtain ⟨record?, error, he⟩ := exists_state_emit r frame
  rw [he]
  exact ⟨hp.source, hp.queued, hp.timestamp, hp.direction, hp.failed⟩

theorem emit_eq (hk : r.Knows version output codec) (frame : Bytes) :
    ((r.emit frame).result, (r.emit frame).state.record?) =
      output.resultOf codec r.timestamp r.direction frame := by
  have hdecode := (Codec.conversions_congr hk.codec.1 hk.codec.2).2
  unfold CaptureReader.emit CaptureOutput.resultOf Codec.decodeRaw Codec.answer
  simp only [hk.output, hk.dialect, hdecode]
  cases output with
  | raw => rfl
  | packet => cases codec.decodeFrame frame <;> rfl
  | both => cases codec.decodeFrame frame <;> rfl

theorem emit_yields (hk : r.Knows version output codec) (hp : r.StandsAt p) (frame : Bytes) :
    ((r.emit frame).result, (r.emit frame).state.record?) =
      output.resultOf codec p.timestamp p.direction frame := by
  rw [emit_eq hk, hp.timestamp, hp.direction]

theorem result_emit_ne (r : CaptureReader) (frame : Bytes) :
    (r.emit frame).result ≠ .formatError := by
  unfold CaptureReader.emit
  by_cases ho : r.output = .raw
  · simp [ho]
  · simp only [ho, if_false, Codec.decodeRaw, Codec.answer]
    cases r.codec.decodeFrame frame <;> simp

/-! ## Single steps -/

/-- A frame that waits is yielded before anything is read. -/
theorem next_of_queued {frame : Bytes} {queued : List Bytes} {bytes : Bytes} {timestamp : Timestamp}
    {direction : Direction} (hk : r.Knows version output codec)
    (hp : r.StandsAt ⟨bytes, frame :: queued, timestamp, direction⟩) :
    r.yielded = output.resultOf codec timestamp direction frame ∧
      r.next.state.Knows version output codec ∧
      r.next.state.StandsAt ⟨bytes, queued, timestamp, direction⟩ := by
  let r' : CaptureReader := { r with error := .empty, record? := none, queued, failed := false }
  have hnext : r.next = r'.emit frame := by
    unfold next
    simp only [hp.failed, hp.queued]
    rfl
  have hk' : r'.Knows version output codec := ⟨hk.version, hk.dialect, hk.output, hk.codec⟩
  have hp' : r'.StandsAt ⟨bytes, queued, timestamp, direction⟩ :=
    ⟨hp.source, rfl, hp.timestamp, hp.direction, rfl⟩
  unfold yielded
  rw [hnext]
  exact ⟨emit_yields hk' hp' frame, hk'.emit frame, hp'.emit frame⟩

/-- A record at the front is read, and its first frame is yielded. -/
theorem next_of_record {laid : LaidRecord} (hf : laid.Fits version) {rest : Bytes}
    {timestamp : Timestamp} {direction : Direction} (hk : r.Knows version output codec)
    (hp : r.StandsAt ⟨laid.bytes version ++ rest, [], timestamp, direction⟩) {frame : Bytes}
    {queued : List Bytes} (hframes : (laid.stored version).frames = frame :: queued) :
    r.yielded = output.resultOf codec (laid.stored version).timestamp
        (laid.stored version).direction frame ∧
      r.next.state.Knows version output codec ∧
      r.next.state.StandsAt
        ⟨rest, queued, (laid.stored version).timestamp, (laid.stored version).direction⟩ := by
  have hread := StoredRecord.read?_laid hf rest
  let r' : CaptureReader :=
    { r with
      error := .empty, record? := none, source := { bytes := rest }, queued, failed := false
      timestamp := (laid.stored version).timestamp
      direction := (laid.stored version).direction }
  have hnext : r.next.result = (r'.emit frame).result ∧ r.next.state = (r'.emit frame).state := by
    unfold next
    simp only [hp.failed, hp.queued, hp.source, hk.version, hread, hframes]
    exact ⟨rfl, rfl⟩
  have hk' : r'.Knows version output codec := ⟨hk.version, hk.dialect, hk.output, hk.codec⟩
  have hp' : r'.StandsAt
      ⟨rest, queued, (laid.stored version).timestamp, (laid.stored version).direction⟩ :=
    ⟨rfl, rfl, rfl, rfl, rfl⟩
  unfold yielded
  rw [hnext.1, hnext.2]
  exact ⟨emit_yields hk' hp' frame, hk'.emit frame, hp'.emit frame⟩

theorem next_of_end {timestamp : Timestamp} {direction : Direction}
    (hk : r.Knows version output codec) (hp : r.StandsAt ⟨[], [], timestamp, direction⟩) :
    r.yielded = (.endOfFile, none) ∧
      r.next.state.Knows version output codec ∧
      r.next.state.StandsAt ⟨[], [], timestamp, direction⟩ := by
  have hread := StoredRecord.read?_nil version
  unfold yielded next
  simp only [hp.failed, hp.queued, hp.source, hk.version, hread]
  exact ⟨rfl, ⟨hk.version, hk.dialect, hk.output, hk.codec⟩,
    ⟨rfl, rfl, hp.timestamp, hp.direction, rfl⟩⟩

theorem next_of_cut {laid : LaidRecord} (hf : laid.Fits version) {kept : Nat} (hpos : 0 < kept)
    (hkept : kept < (laid.bytes version).length) {timestamp : Timestamp} {direction : Direction}
    (hk : r.Knows version output codec)
    (hp : r.StandsAt ⟨(laid.bytes version).take kept, [], timestamp, direction⟩) :
    r.yielded = (.formatError, none) ∧ r.next.state.failed = true := by
  obtain ⟨e, he⟩ := StoredRecord.exists_read?_eq_error hf hpos hkept
  unfold yielded next
  simp only [hp.failed, hp.queued, hp.source, hk.version, he]
  exact ⟨rfl, rfl⟩

theorem next_of_failed (h : r.failed = true) :
    r.yielded = (.formatError, none) ∧ r.next.state.failed = true ∧
      r.next.state.source = r.source := by
  unfold yielded next
  simp only [h, if_true, and_self]

/-- Only a step that fails yields a failure. -/
theorem failed_of_next_eq_formatError (h : r.next.result = .formatError) :
    r.next.state.failed = true := by
  have hfirst : ∀ (r : CaptureReader) frames, (r.emitFirst frames).result ≠ .formatError := by
    intro r frames
    cases frames with
    | nil => simp [emitFirst]
    | cons frame queued => exact result_emit_ne _ frame
  unfold next at h ⊢
  by_cases hfailed : r.failed = true
  · simp [hfailed]
  · by_cases hqueued : r.queued = []
    · simp only [hfailed, hqueued, Bool.false_eq_true, if_false, ne_eq, not_true_eq_false] at h ⊢
      cases hread : StoredRecord.read? r.header.version r.source with
      | error e => rfl
      | ok found =>
        rw [hread] at h
        cases found with
        | none => cases h
        | some found => exact absurd h (hfirst _ _)
    · simp only [hfailed, hqueued, Bool.false_eq_true, if_false, ne_eq, not_false_eq_true,
        if_true] at h
      exact absurd h (hfirst _ _)

end Steps

/-- Once a step has failed, every later one fails too and reads nothing. -/
theorem after_failure {r : CaptureReader} {i j : Nat} (hij : i < j)
    (h : (r.after i).next.result = .formatError) :
    (r.after j).yielded = (.formatError, none) ∧ (r.after j).source = (r.after (i + 1)).source := by
  obtain ⟨more, rfl⟩ := Nat.exists_eq_add_of_le hij
  have hfailed : (r.after (i + 1)).failed = true := by
    rw [after_add i 1]
    exact failed_of_next_eq_formatError h
  have hrun : ∀ more, ((r.after (i + 1)).after more).failed = true ∧
      ((r.after (i + 1)).after more).source = (r.after (i + 1)).source := by
    intro more
    induction more with
    | zero => exact ⟨hfailed, rfl⟩
    | succ more ih =>
      have hstep := next_of_failed ih.1
      rw [after_add more 1]
      exact ⟨hstep.2.1, hstep.2.2.trans ih.2⟩
  rw [after_add (i + 1) more]
  exact ⟨(next_of_failed (hrun more).1).1, (hrun more).2⟩

/-! ## Runs -/

section Runs

variable {r : CaptureReader} {version : UInt8} {output : CaptureOutput} {codec : Codec}
  {bytes : Bytes} {timestamp : Timestamp} {direction : Direction}
  {results : List (ReadStatus × Option CaptureRecord)} {last : ReadStatus × Option CaptureRecord}

/-- The frames that wait are yielded, and then what is behind them comes. -/
theorem leads_of_queued {queued : List Bytes} (hk : r.Knows version output codec)
    (hp : r.StandsAt ⟨bytes, queued, timestamp, direction⟩) :
    ∃ r', r.Leads (queued.map (output.resultOf codec timestamp direction)) r' ∧
      r'.Knows version output codec ∧ r'.StandsAt ⟨bytes, [], timestamp, direction⟩ := by
  induction queued generalizing r with
  | nil => exact ⟨r, .refl r, hk, hp⟩
  | cons frame queued ih =>
    obtain ⟨hyielded, hk', hp'⟩ := next_of_queued hk hp
    obtain ⟨r', hleads, hknows, hstands⟩ := ih hk' hp'
    exact ⟨r', .cons hyielded hleads, hknows, hstands⟩

/-- The records at the front are yielded, and then what is behind them comes. -/
theorem leads_of_records {records : List LaidRecord} (hf : ∀ laid ∈ records, laid.Fits version)
    {rest : Bytes} (hk : r.Knows version output codec)
    (hp : r.StandsAt
      ⟨records.flatMap (LaidRecord.bytes version) ++ rest, [], timestamp, direction⟩) :
    ∃ r' timestamp direction,
      r.Leads (records.flatMap fun laid => output.resultsOf codec (laid.stored version)) r' ∧
        r'.Knows version output codec ∧ r'.StandsAt ⟨rest, [], timestamp, direction⟩ := by
  induction records generalizing r timestamp direction with
  | nil => exact ⟨r, timestamp, direction, .refl r, hk, hp⟩
  | cons laid records ih =>
    have hlaid := hf laid List.mem_cons_self
    have hrecords : ∀ laid ∈ records, laid.Fits version :=
      fun laid h => hf laid (List.mem_cons_of_mem _ h)
    rw [List.flatMap_cons, List.append_assoc] at hp
    cases hframes : (laid.stored version).frames with
    | nil => exact absurd hframes (laid.stored version).frames_ne_nil
    | cons frame queued =>
      obtain ⟨hyielded, hk', hp'⟩ := next_of_record hlaid hk hp hframes
      obtain ⟨r', hqueued, hk', hp'⟩ := leads_of_queued hk' hp'
      obtain ⟨r'', timestamp, direction, hleads, hknows, hstands⟩ := ih hrecords hk' hp'
      refine ⟨r'', timestamp, direction, ?_, hknows, hstands⟩
      rw [List.flatMap_cons, CaptureOutput.resultsOf, ← StoredRecord.frames_eq, hframes]
      exact .append (.cons hyielded hqueued) hleads

theorem yields_of_records {records : List LaidRecord} (hf : ∀ laid ∈ records, laid.Fits version)
    {rest : Bytes} (hk : r.Knows version output codec)
    (hp : r.StandsAt ⟨records.flatMap (LaidRecord.bytes version) ++ rest, [], timestamp, direction⟩)
    (hrest : ∀ (r : CaptureReader) (timestamp : Timestamp) (direction : Direction),
      r.Knows version output codec → r.StandsAt ⟨rest, [], timestamp, direction⟩ →
        r.Yields results last) :
    r.Yields (records.flatMap (fun laid => output.resultsOf codec (laid.stored version)) ++ results)
      last := by
  obtain ⟨r', timestamp', direction', hleads, hk', hp'⟩ := leads_of_records hf hk hp
  exact hleads.yields (hrest r' timestamp' direction' hk' hp')

/-- At the end of its source a reader finds the end, however often it looks. -/
theorem yields_of_end (hk : r.Knows version output codec)
    (hp : r.StandsAt ⟨[], [], timestamp, direction⟩) : r.Yields [] (.endOfFile, none) := by
  refine yields_nil (P := fun r => r.Knows version output codec ∧
    r.StandsAt ⟨[], [], timestamp, direction⟩) ?_ ⟨hk, hp⟩
  intro r h
  exact next_of_end h.1 h.2

theorem yields_of_failed (h : r.failed = true) : r.Yields [] (.formatError, none) := by
  refine yields_nil (P := fun r => r.failed = true) ?_ h
  intro r h
  exact ⟨(next_of_failed h).1, (next_of_failed h).2.1⟩

/-- Within a cut record a reader fails, however often it is asked. -/
theorem yields_of_cut {laid : LaidRecord} (hf : laid.Fits version) {kept : Nat} (hpos : 0 < kept)
    (hkept : kept < (laid.bytes version).length) (hk : r.Knows version output codec)
    (hp : r.StandsAt ⟨(laid.bytes version).take kept, [], timestamp, direction⟩) :
    r.Yields [] (.formatError, none) := by
  have hstep := next_of_cut hf hpos hkept hk hp
  intro i
  cases i with
  | zero => exact hstep.1
  | succ i => exact yields_of_failed hstep.2 i

end Runs

end CaptureReader

end GameWire
