import GameWire.Capture.Writer
import GameWire.Proofs.Capture.Reading

/-!
# Runs of a capture writer

`CaptureWriter.Operation` are the calls on a writer that is not finished.  What each of them comes
to, appends, and leaves to be found is said apart from the writer; `CaptureWriter.Holds` is what
every call keeps.
-/

namespace GameWire

/-! ## Files that never fail -/

namespace ScriptedFile

/-- A file that never fails and is written at its end. -/
def ofContent (content : Bytes) : ScriptedFile :=
  { content, position := content.length }

theorem write_ofContent (content bs : Bytes) :
    (ofContent content).write bs = (.ok (), ofContent (content ++ bs)) := by
  unfold write
  by_cases hb : bs.isEmpty
  · rw [if_pos hb, List.isEmpty_iff.1 hb, List.append_nil]
  · rw [if_neg hb]
    simp [ofContent, answer, refusal?, store, Bytes.zeros]

theorem writeAll_ofContent (content : Bytes) (parts : List Bytes) :
    (ofContent content).writeAll parts = (.ok (), ofContent (content ++ parts.flatten)) := by
  induction parts generalizing content with
  | nil => rw [List.flatten_nil, List.append_nil]; rfl
  | cons part parts ih =>
    unfold writeAll
    rw [write_ofContent]
    simp only [ih, List.flatten_cons, List.append_assoc]

/-- As many bytes are put in the place of others, and the file is written at its end again. -/
theorem writeAt_ofContent (front old back : Bytes) {new : Bytes} (h : new.length = old.length) :
    (ofContent (front ++ (old ++ back))).writeAt front.length new =
      (.ok (), ofContent (front ++ (new ++ back))) := by
  have hwrite : ({ content := front ++ (old ++ back), position := front.length } :
      ScriptedFile).write new = (.ok (),
        { content := front ++ (new ++ back), position := front.length + new.length }) := by
    unfold write
    by_cases hn : new.isEmpty
    · have hold : old = [] := by
        rw [List.isEmpty_iff.1 hn] at h
        exact List.eq_nil_of_length_eq_zero h.symm
      rw [if_pos hn, List.isEmpty_iff.1 hn, hold]
      rfl
    · rw [if_neg hn]
      simp [answer, refusal?, store, Bytes.zeros, h]
  unfold writeAt tell seek answer ofContent
  simp only [hwrite]
  simp [h]

end ScriptedFile

/-! ## Calls and what they record -/

namespace CaptureWriter

inductive Operation where
  | packet (timestamp : Timestamp) (direction : Direction) (m : Model)
  | data (timestamp : Timestamp) (direction : Direction) (data : Bytes)
  | unchecked (timestamp : Timestamp) (direction : Direction) (data : Bytes)
  | changeDialect (dialect : Dialect)

namespace Operation

/-- Whether the length of the data of a call can be written down. -/
def Fits : Operation → Prop
  | data _ _ bs | unchecked _ _ bs => bs.length < 2 ^ 64
  | _ => True

def dialectAfter (dialect : Dialect) : Operation → Dialect
  | changeDialect new => if new.isRaw then dialect else new
  | _ => dialect

def result (dialect : Dialect) : Operation → Except ProtocolError Unit
  | packet _ _ m => ((Codec.ofDialect dialect).encodeFrame m).map fun _ => ()
  | data _ _ bs => if 4 < (splitFrames bs).2.length then .error .corruptedPacket else .ok ()
  | unchecked _ _ _ => .ok ()
  | changeDialect new => if new.isRaw then .error (.format .rawNotStorable) else .ok ()

def appended (dialect : Dialect) : Operation → List StoredRecord
  | packet timestamp direction m =>
    match (Codec.ofDialect dialect).encodeFrame m with
    | .ok frame => [⟨timestamp, direction, frame⟩]
    | .error _ => []
  | data timestamp direction bs => (splitFrames bs).1.map fun frame => ⟨timestamp, direction, frame⟩
  | unchecked timestamp direction bs => [⟨timestamp, direction, bs⟩]
  | changeDialect _ => []

/-- What is found again of a call: every frame by itself. -/
def found (dialect : Dialect) : Operation → List StoredRecord
  | unchecked timestamp direction bs =>
    (StoredRecord.framesIn bs).map fun frame => ⟨timestamp, direction, frame⟩
  | op => op.appended dialect

/-- What there is of each of some calls, under the dialect that it meets. -/
def collect {α : Type} (f : Dialect → Operation → List α) (dialect : Dialect) :
    List Operation → List α
  | [] => []
  | op :: ops => f dialect op ++ collect f (op.dialectAfter dialect) ops

def lastDialect (dialect : Dialect) (ops : List Operation) : Dialect :=
  ops.foldl dialectAfter dialect

end Operation

def perform (w : CaptureWriter) : Operation → Call CaptureWriter (Except ProtocolError Unit)
  | .packet timestamp direction m => w.writePacket timestamp direction m
  | .data timestamp direction bs => w.writeData timestamp direction bs
  | .unchecked timestamp direction bs => w.writeUnchecked timestamp direction bs
  | .changeDialect dialect => w.changeDialect dialect

def run (w : CaptureWriter) : List Operation → List (Except ProtocolError Unit) × CaptureWriter
  | [] => ([], w)
  | op :: ops =>
    let others := (w.perform op).state.run ops
    ((w.perform op).result :: others.1, others.2)

/-! ## What a writer holds -/

/-- Whether a writer has written the header for a dialect and some records, and is able to go on.
The records of a compressed capture are kept. -/
structure Holds (w : CaptureWriter) (dialect : Dialect) (compressed : Bool)
    (records : List StoredRecord) : Prop where
  file : ∃ id, dialect.captureId? = some id ∧ w.file = .ofContent
    ((CaptureHeader.fields id compressed).flatten ++
      if compressed then [] else records.flatMap StoredRecord.bytes)
  kept : w.kept = if compressed then records.flatMap StoredRecord.bytes else []
  compressed : w.compressed = compressed
  finished : w.finished = false
  codec : w.codec.dialect = dialect ∧ w.codec.settings = {}

section Steps

variable {w : CaptureWriter} {dialect : Dialect} {compressed : Bool} {records : List StoredRecord}

theorem create_spec (hraw : dialect.isRaw = false) (compressed : Bool) :
    ∃ w, create {} dialect compressed = .ok w ∧ w.Holds dialect compressed [] := by
  obtain ⟨id, hid⟩ : ∃ id, dialect.captureId? = some id := by
    cases dialect <;> first | exact ⟨_, rfl⟩ | cases hraw
  have hwrite := ScriptedFile.writeAll_ofContent [] (CaptureHeader.fields id compressed)
  have hcreate : create {} dialect compressed = .ok
      { file := .ofContent (CaptureHeader.fields id compressed).flatten, compressed
        codec := Codec.ofDialect dialect } := by
    unfold create idOf
    rw [hid]
    simp only [bind, Except.bind]
    rw [show ({} : ScriptedFile) = .ofContent [] from rfl, hwrite]
    rfl
  refine ⟨_, hcreate, ⟨id, hid, ?_⟩, ?_, rfl, rfl, rfl, rfl⟩
  · simp
  · simp

-- The error slot has no part in it.
theorem Holds.answer (h : w.Holds dialect compressed records) (result : Except ProtocolError Unit)
    (activity : List Activity) :
    (w.answer result activity).state.Holds dialect compressed records :=
  ⟨h.file, h.kept, h.compressed, h.finished, h.codec⟩

theorem append_spec (h : w.Holds dialect compressed records) (record : StoredRecord) :
    (w.append record).result = .ok () ∧
      (w.append record).state.Holds dialect compressed (records ++ [record]) := by
  obtain ⟨id, hid, hfile⟩ := h.file
  unfold append
  rw [h.finished, h.compressed]
  cases compressed with
  | true =>
    refine ⟨rfl, ⟨id, hid, hfile⟩, ?_, rfl, rfl, h.codec⟩
    show w.kept ++ record.bytes = (records ++ [record]).flatMap StoredRecord.bytes
    rw [h.kept, List.flatMap_append, List.flatMap_singleton]
    rfl
  | false =>
    have hwrite := ScriptedFile.writeAll_ofContent
      ((CaptureHeader.fields id false).flatten ++ records.flatMap StoredRecord.bytes) record.fields
    simp only [Bool.false_eq_true, if_false] at hfile ⊢
    rw [hfile, hwrite]
    refine ⟨rfl, ⟨id, hid, ?_⟩, h.kept, rfl, rfl, h.codec⟩
    show ScriptedFile.ofContent _ = _
    rw [List.append_assoc, if_neg Bool.false_ne_true, List.flatMap_append, List.flatMap_singleton]
    rfl

theorem appendAll_spec (h : w.Holds dialect compressed records) (more : List StoredRecord) :
    (w.appendAll more).result = .ok () ∧
      (w.appendAll more).state.Holds dialect compressed (records ++ more) := by
  induction more generalizing w records with
  | nil =>
    rw [List.append_nil]
    exact ⟨rfl, h⟩
  | cons record more ih =>
    have hfirst := append_spec h record
    have hrest := ih hfirst.2
    unfold appendAll
    simp only [hfirst.1]
    rw [List.append_assoc] at hrest
    exact hrest

theorem changeDialect_spec (h : w.Holds dialect compressed records) (new : Dialect) :
    (w.changeDialect new).result = (Operation.changeDialect new).result dialect ∧
      (w.changeDialect new).state.Holds ((Operation.changeDialect new).dialectAfter dialect)
        compressed records := by
  obtain ⟨id, hid, hfile⟩ := h.file
  cases hnew : new.captureId? with
  | none =>
    have hraw : new.isRaw = true := by cases new <;> first | rfl | cases hnew
    have hresult : (Operation.changeDialect new).result dialect =
      .error (.format .rawNotStorable) := if_pos hraw
    have hdialect : (Operation.changeDialect new).dialectAfter dialect = dialect := if_pos hraw
    rw [hresult, hdialect]
    unfold changeDialect idOf
    rw [hnew]
    exact ⟨rfl, h.answer _ _⟩
  | some newId =>
    have hraw : ¬ new.isRaw = true := by
      intro hraw
      cases new <;> first | (cases hnew; done) | cases hraw
    have hresult : (Operation.changeDialect new).result dialect = .ok () := if_neg hraw
    have hdialect : (Operation.changeDialect new).dialectAfter dialect = new := if_neg hraw
    have hwrite := ScriptedFile.writeAt_ofContent
      (CaptureHeader.magic ++ [CaptureHeader.currentVersion]) [id]
      (compressed.toUInt8 :: if compressed then [] else records.flatMap StoredRecord.bytes)
      (show [newId].length = [id].length from rfl)
    have hchange : w.file.writeAt CaptureHeader.dialectOffset [newId] =
        (.ok (), .ofContent ((CaptureHeader.fields newId compressed).flatten ++
          if compressed then [] else records.flatMap StoredRecord.bytes)) := by
      rw [hfile]
      exact hwrite
    rw [hresult, hdialect]
    unfold changeDialect idOf
    rw [hnew]
    simp only [h.finished, Bool.false_eq_true, if_false, hchange]
    exact ⟨rfl, ⟨⟨newId, hnew, rfl⟩, h.kept, h.compressed, rfl, rfl, h.codec.2⟩⟩

theorem writePacket_spec (h : w.Holds dialect compressed records) (timestamp : Timestamp)
    (direction : Direction) (m : Model) :
    (w.writePacket timestamp direction m).result =
        (Operation.packet timestamp direction m).result dialect ∧
      (w.writePacket timestamp direction m).state.Holds dialect compressed
        (records ++ (Operation.packet timestamp direction m).appended dialect) := by
  have hencode := (Codec.conversions_congr (c := Codec.ofDialect dialect) h.codec.1 h.codec.2).1
  have hcodec : Holds { w with codec := (w.codec.encodeRaw m).state } dialect compressed records :=
    ⟨h.file, h.kept, h.compressed, h.finished, h.codec⟩
  cases hframe : w.codec.encodeFrame m with
  | error e =>
    have hcall : (w.codec.encodeRaw m).result = .error e := hframe
    have hresult : (Operation.packet timestamp direction m).result dialect = .error e := by
      rw [Operation.result, ← hencode, hframe]
      rfl
    have happended : (Operation.packet timestamp direction m).appended dialect = [] := by
      rw [Operation.appended, ← hencode, hframe]
    rw [hresult, happended, List.append_nil]
    unfold writePacket
    simp only [hcall]
    exact ⟨rfl, hcodec.answer _ _⟩
  | ok frame =>
    have hcall : (w.codec.encodeRaw m).result = .ok frame := hframe
    have hresult : (Operation.packet timestamp direction m).result dialect = .ok () := by
      rw [Operation.result, ← hencode, hframe]
      rfl
    have happended : (Operation.packet timestamp direction m).appended dialect =
        [⟨timestamp, direction, frame⟩] := by
      rw [Operation.appended, ← hencode, hframe]
    have happend := append_spec hcodec ⟨timestamp, direction, frame⟩
    rw [hresult, happended]
    unfold writePacket
    simp only [hcall]
    exact ⟨happend.1, happend.2.answer _ _⟩

theorem perform_spec (h : w.Holds dialect compressed records) (op : Operation) :
    (w.perform op).result = op.result dialect ∧
      (w.perform op).state.Holds (op.dialectAfter dialect) compressed
        (records ++ op.appended dialect) := by
  cases op with
  | packet timestamp direction m => exact writePacket_spec h timestamp direction m
  | data timestamp direction bs =>
    have happend := appendAll_spec h
      ((splitFrames bs).1.map fun frame => ⟨timestamp, direction, frame⟩)
    unfold perform writeData Operation.result
    simp only [happend.1]
    exact ⟨rfl, happend.2.answer _ _⟩
  | unchecked timestamp direction bs =>
    have happend := append_spec h ⟨timestamp, direction, bs⟩
    exact ⟨happend.1, happend.2.answer _ _⟩
  | changeDialect new =>
    rw [show (Operation.changeDialect new).appended dialect = [] from rfl, List.append_nil]
    exact changeDialect_spec h new

theorem run_spec (h : w.Holds dialect compressed records) (ops : List Operation) :
    (w.run ops).1 = Operation.collect (fun dialect op => [op.result dialect]) dialect ops ∧
      (w.run ops).2.Holds (Operation.lastDialect dialect ops) compressed
        (records ++ Operation.collect Operation.appended dialect ops) := by
  induction ops generalizing w dialect records with
  | nil =>
    unfold Operation.collect
    rw [List.append_nil]
    exact ⟨rfl, h⟩
  | cons op ops ih =>
    have hstep := perform_spec h op
    have hrest := ih hstep.2
    rw [List.append_assoc] at hrest
    refine ⟨?_, hrest.2⟩
    show (w.perform op).result :: ((w.perform op).state.run ops).1 = op.result dialect :: _
    rw [hstep.1, hrest.1]
    rfl

end Steps

end CaptureWriter

end GameWire
