import GameWire.Proofs.Capture.Writing

/-!
# Captures read back

A reader of a finished capture yields the frames of every call on its writer, in order.
-/

namespace GameWire

namespace StoredRecord

/-! ## Records of the current version -/

variable {r : StoredRecord}

def laid (r : StoredRecord) : LaidRecord :=
  ⟨r.timestamp.toNanos, r.direction.toByte, r.data⟩

theorem bytes_laid (r : StoredRecord) : r.laid.bytes CaptureHeader.currentVersion = r.bytes := by
  unfold bytes fields LaidRecord.bytes LaidRecord.body
  simp only [List.flatten_cons, List.flatten_nil, List.append_nil]
  rfl

theorem stored_laid (r : StoredRecord) : r.laid.stored CaptureHeader.currentVersion = r := by
  have htimestamp : Timestamp.ofNanos r.timestamp.toNanos = r.timestamp :=
    Timestamp.ofNanos_toNanos r.timestamp
  have hdirection : (if r.direction.toByte = 0 then Direction.toServer else .toClient) =
      r.direction := Direction.ofByte_toByte r.direction
  show StoredRecord.mk (Timestamp.ofNanos r.timestamp.toNanos)
    (if r.direction.toByte = 0 then Direction.toServer else .toClient) r.data = r
  rw [htimestamp, hdirection]

theorem flatMap_bytes_laid (records : List StoredRecord) :
    (records.map laid).flatMap (LaidRecord.bytes CaptureHeader.currentVersion) =
      records.flatMap bytes := by
  rw [List.flatMap_map]
  simp only [bytes_laid]

theorem fits_laid (h : r.data.length < 2 ^ 64) : r.laid.Fits CaptureHeader.currentVersion :=
  ⟨toNanos_lt r.timestamp, h⟩

/-! ## Records of single frames -/

/-- A record for each frame in the data of a record. -/
def singles (r : StoredRecord) : List StoredRecord :=
  r.frames.map fun frame => { r with data := frame }

theorem singles_of_isFrame (h : IsFrame r.data) : r.singles = [r] := by
  unfold singles frames
  rw [h.splitFrames_eq]
  rfl

theorem singles_of_nil (h : r.data = []) : r.singles = [r] := by
  unfold singles frames
  rw [h, splitFrames_nil]
  show [{ r with data := [] }] = [r]
  rw [← h]

theorem flatMap_singles {records : List StoredRecord} (h : ∀ r ∈ records, r.singles = [r]) :
    records.flatMap singles = records := by
  induction records with
  | nil => rfl
  | cons r records ih =>
    rw [List.flatMap_cons, h r List.mem_cons_self,
      ih fun r hr => h r (List.mem_cons_of_mem _ hr)]
    rfl

end StoredRecord

/-- What a reader of bytes only makes of a record of one frame. -/
def StoredRecord.rawResult (dialect : Dialect) (r : StoredRecord) :
    ReadStatus × Option CaptureRecord :=
  (.rawOnly, some
    { timestamp := r.timestamp, direction := r.direction, dialect, data := some r.data })

theorem CaptureOutput.resultsOf_raw (codec : Codec) (r : StoredRecord) :
    CaptureOutput.raw.resultsOf codec r = r.singles.map (StoredRecord.rawResult codec.dialect) := by
  unfold resultsOf StoredRecord.singles
  rw [List.map_map, StoredRecord.frames_eq]
  rfl

/-- A reader of bytes yields the frames of the records that it stands in front of, and then finds
the end. -/
theorem CaptureReader.yields_stored {r : CaptureReader} {codec : Codec} {timestamp : Timestamp}
    {direction : Direction} {records : List StoredRecord}
    (hf : ∀ r ∈ records, r.data.length < 2 ^ 64)
    (hk : r.Knows CaptureHeader.currentVersion .raw codec)
    (hp : r.StandsAt ⟨records.flatMap StoredRecord.bytes, [], timestamp, direction⟩) :
    r.Yields ((records.flatMap StoredRecord.singles).map (StoredRecord.rawResult codec.dialect))
      (.endOfFile, none) := by
  have hfits : ∀ laid ∈ records.map StoredRecord.laid, laid.Fits CaptureHeader.currentVersion := by
    intro laid hlaid
    obtain ⟨r, hr, rfl⟩ := List.mem_map.1 hlaid
    exact StoredRecord.fits_laid (hf r hr)
  have hbytes : (records.map StoredRecord.laid).flatMap
      (LaidRecord.bytes CaptureHeader.currentVersion) ++ [] =
        records.flatMap StoredRecord.bytes := by
    rw [List.append_nil, StoredRecord.flatMap_bytes_laid]
  have hresults : (records.map StoredRecord.laid).flatMap (fun laid =>
      CaptureOutput.raw.resultsOf codec (laid.stored CaptureHeader.currentVersion)) ++ [] =
        (records.flatMap StoredRecord.singles).map (StoredRecord.rawResult codec.dialect) := by
    rw [List.append_nil, List.flatMap_map, List.map_flatMap]
    simp only [StoredRecord.stored_laid, CaptureOutput.resultsOf_raw]
  rw [← hbytes] at hp
  rw [← hresults]
  exact yields_of_records hfits hk hp fun r timestamp direction hk hp => yields_of_end hk hp

namespace CaptureWriter

/-! ## What is found of a call -/

namespace Operation

variable {dialect : Dialect}

theorem isRaw_dialectAfter (h : dialect.isRaw = false) (op : Operation) :
    (op.dialectAfter dialect).isRaw = false := by
  cases op with
  | changeDialect new =>
    show (if new.isRaw then dialect else new).isRaw = false
    by_cases hnew : new.isRaw = true
    · rw [if_pos hnew]
      exact h
    · rw [if_neg hnew]
      exact Bool.not_eq_true _ ▸ hnew
  | _ => exact h

theorem exists_isFrame_of_appended (h : dialect.isRaw = false) {timestamp : Timestamp}
    {direction : Direction} {m : Model} {r : StoredRecord}
    (hr : r ∈ (packet timestamp direction m).appended dialect) : r.data = [] ∨ IsFrame r.data := by
  unfold appended at hr
  cases hframe : (Codec.ofDialect dialect).encodeFrame m with
  | error e =>
    simp [hframe] at hr
  | ok frame =>
    simp only [hframe, List.mem_singleton] at hr
    rw [hr]
    exact Codec.isFrame_of_encodeFrame h hframe

theorem isFrame_of_appended {timestamp : Timestamp} {direction : Direction} {bs : Bytes}
    {r : StoredRecord} (hr : r ∈ (data timestamp direction bs).appended dialect) :
    IsFrame r.data := by
  obtain ⟨frame, hframe, rfl⟩ := List.mem_map.1 hr
  exact isFrame_of_mem_splitFrames hframe

/-- What is found of a call are the frames of the records that it appends. -/
theorem flatMap_singles_appended (h : dialect.isRaw = false) (op : Operation) :
    (op.appended dialect).flatMap StoredRecord.singles = op.found dialect := by
  cases op with
  | packet timestamp direction m =>
    apply StoredRecord.flatMap_singles
    intro r hr
    cases exists_isFrame_of_appended h hr with
    | inl hnil => exact StoredRecord.singles_of_nil hnil
    | inr hframe => exact StoredRecord.singles_of_isFrame hframe
  | data timestamp direction bs =>
    apply StoredRecord.flatMap_singles
    intro r hr
    exact StoredRecord.singles_of_isFrame (isFrame_of_appended hr)
  | unchecked timestamp direction bs =>
    show [StoredRecord.mk timestamp direction bs].flatMap StoredRecord.singles = _
    rw [List.flatMap_singleton, StoredRecord.singles, StoredRecord.frames_eq]
    rfl
  | changeDialect new => rfl

theorem length_lt_of_mem_appended (h : dialect.isRaw = false) {op : Operation} (hop : op.Fits)
    {r : StoredRecord} (hr : r ∈ op.appended dialect) : r.data.length < 2 ^ 64 := by
  cases op with
  | packet timestamp direction m =>
    cases exists_isFrame_of_appended h hr with
    | inl hnil => rw [hnil]; decide
    | inr hframe => exact Nat.lt_trans hframe.length_lt (by decide)
  | data timestamp direction bs =>
    exact Nat.lt_trans (isFrame_of_appended hr).length_lt (by decide)
  | unchecked timestamp direction bs =>
    rw [List.mem_singleton.1 hr]
    exact hop
  | changeDialect new => cases hr

theorem flatMap_singles_collect (h : dialect.isRaw = false) (ops : List Operation) :
    (collect appended dialect ops).flatMap StoredRecord.singles = collect found dialect ops := by
  induction ops generalizing dialect with
  | nil => rfl
  | cons op ops ih =>
    unfold collect
    rw [List.flatMap_append, flatMap_singles_appended h, ih (isRaw_dialectAfter h op)]

theorem length_lt_of_mem_collect (h : dialect.isRaw = false) {ops : List Operation}
    (hops : ∀ op ∈ ops, op.Fits) {r : StoredRecord} (hr : r ∈ collect appended dialect ops) :
    r.data.length < 2 ^ 64 := by
  induction ops generalizing dialect with
  | nil => cases hr
  | cons op ops ih =>
    cases List.mem_append.1 hr with
    | inl hr => exact length_lt_of_mem_appended h (hops op List.mem_cons_self) hr
    | inr hr =>
      exact ih (isRaw_dialectAfter h op) (fun op hop => hops op (List.mem_cons_of_mem _ hop)) hr

end Operation

/-! ## Finished captures -/

section Finished

variable {w : CaptureWriter} {dialect : Dialect} {compressed : Bool} {records : List StoredRecord}

/-- What lies in the file of a finished capture. -/
theorem finishBy_spec (h : w.Holds dialect compressed records) (compress : Bytes → Bytes) :
    (w.finishBy compress).result = .ok () ∧ ∃ id, dialect.captureId? = some id ∧
      (w.finishBy compress).state.file.content = (CaptureHeader.fields id compressed).flatten ++
        if compressed then compress (records.flatMap StoredRecord.bytes)
        else records.flatMap StoredRecord.bytes := by
  obtain ⟨id, hid, hfile⟩ := h.file
  have hkept := h.kept
  unfold finishBy
  rw [h.finished, h.compressed]
  cases compressed with
  | true =>
    have hwrite := ScriptedFile.write_ofContent (CaptureHeader.fields id true).flatten
      (compress w.kept)
    simp only [if_true, List.append_nil] at hfile hkept ⊢
    rw [hfile, hwrite, ← hkept]
    exact ⟨rfl, id, hid, rfl⟩
  | false =>
    refine ⟨rfl, id, hid, ?_⟩
    show w.file.content = _
    rw [hfile]
    rfl

/-- A reader of that file stands in front of the first record. -/
theorem ofSource_finished {id : UInt8} (hid : dialect.captureId? = some id) (compressed : Bool)
    {compress : Bytes → Bytes}
    (hcompress : ∀ content, Zstandard.decode (compress content) = { content }) (content : Bytes)
    (output : CaptureOutput) (settings : CodecSettings) :
    ∃ r, CaptureReader.ofSource { bytes := (CaptureHeader.fields id compressed).flatten ++
        if compressed then compress content else content } output settings = .ok r ∧
      r.header.dialect = dialect ∧
      r.Knows CaptureHeader.currentVersion output ((Codec.ofSettings settings).setDialect dialect) ∧
      r.StandsAt ⟨content, [], .ofSeconds 0, default⟩ := by
  have hopen := CaptureHeader.read_fields hid compressed
    (if compressed then compress content else content) none
  have hsource : (if compressed then
      ({ bytes := if compressed then compress content else content } : ByteSource).decompress
      else { bytes := if compressed then compress content else content }) =
        { bytes := content } := by
    cases compressed with
    | true =>
      simp only [if_true, ByteSource.decompress, hcompress]
    | false => rfl
  let r : CaptureReader :=
    { header := { version := CaptureHeader.currentVersion, dialect, compressed }
      source := { bytes := content }, output
      codec := (Codec.ofSettings settings).setDialect dialect }
  refine ⟨r, ?_, rfl, ⟨rfl, rfl, rfl, rfl, rfl⟩, ⟨rfl, rfl, rfl, rfl, rfl⟩⟩
  unfold CaptureReader.ofSource
  rw [hopen]
  simp only [bind, Except.bind, hsource]
  rfl

end Finished

/-! ## The round trip -/

/-- Every call on a writer comes to what it says, and from the capture that is finished after any
calls, a reader of bytes yields what was recorded by each of them, in order, and then finds the end.
The header tells the dialect that the calls left behind. -/
theorem ofSource_finishBy {compress : Bytes → Bytes}
    (hcompress : ∀ content, Zstandard.decode (compress content) = { content }) {dialect : Dialect}
    (hraw : dialect.isRaw = false) (compressed : Bool) {ops : List Operation}
    (hops : ∀ op ∈ ops, op.Fits) (settings : CodecSettings) :
    ∃ w r, create {} dialect compressed = .ok w ∧
      (w.run ops).1 = Operation.collect (fun dialect op => [op.result dialect]) dialect ops ∧
      ((w.run ops).2.finishBy compress).result = .ok () ∧
      CaptureReader.ofSource { bytes := ((w.run ops).2.finishBy compress).state.file.content } .raw
        settings = .ok r ∧
      r.header.dialect = Operation.lastDialect dialect ops ∧
      r.Yields ((Operation.collect Operation.found dialect ops).map
        (StoredRecord.rawResult (Operation.lastDialect dialect ops))) (.endOfFile, none) := by
  obtain ⟨w, hcreate, hholds⟩ := create_spec hraw compressed
  obtain ⟨hresults, hheld⟩ := run_spec hholds ops
  obtain ⟨hfinish, id, hid, hcontent⟩ := finishBy_spec hheld compress
  obtain ⟨r, hopen, hdialect, hknows, hstands⟩ :=
    ofSource_finished hid compressed hcompress _ .raw settings
  rw [← hcontent] at hopen
  refine ⟨w, r, hcreate, hresults, hfinish, hopen, hdialect, ?_⟩
  rw [List.nil_append] at hstands
  rw [← Operation.flatMap_singles_collect hraw]
  exact CaptureReader.yields_stored (fun _ => Operation.length_lt_of_mem_collect hraw hops) hknows
    hstands

theorem ofSource_finishBy_corruptTail :
    let sent : Timestamp := { seconds := 7, nanos := 1 }
    let frame : Bytes := [0x0C, 0, 0, 0, 0x19, 0x0F, 0, 0, 5, 0, 0, 0]
    let ops : List Operation :=
      [.packet sent .toClient { dialect := .classic, packet := .lobbyMonitor { videoId := 5 } },
        .changeDialect .raw, .changeDialect .jp,
        .data sent .toServer (frame ++ [9, 0, 0, 0, 1]), .unchecked sent .toServer []]
    let record (direction : Direction) (data : Bytes) : ReadStatus × Option CaptureRecord :=
      (.rawOnly, some { timestamp := sent, direction, dialect := .jp, data := some data })
    ∃ w r, create {} .classic true = .ok w ∧
      (w.run ops).1 =
        [.ok (), .error (.format .rawNotStorable), .ok (), .error .corruptedPacket, .ok ()] ∧
      (w.run ops).2.finish.result = .ok () ∧
      CaptureReader.ofSource { bytes := (w.run ops).2.finish.state.file.content } .raw {} = .ok r ∧
      r.header.dialect = .jp ∧
      r.Yields [record .toClient frame, record .toServer frame, record .toServer []]
        (.endOfFile, none) := by
  intro sent frame ops record
  have hops : ∀ op ∈ ops, op.Fits := by
    intro op hop
    simp only [ops, List.mem_cons, List.not_mem_nil, or_false] at hop
    rcases hop with rfl | rfl | rfl | rfl | rfl <;> simp [Operation.Fits, frame]
  have hsplit : splitFrames (frame ++ [9, 0, 0, 0, 1]) = ([frame], [9, 0, 0, 0, 1]) := by
    simp [frame, splitFrames, frameLength?, Bytes.u32At?, Bytes.cut?, Bytes.ofLE, headerLength]
  obtain ⟨w, r, hcreate, hresults, hfinish, hopen, hdialect, hyields⟩ :=
    ofSource_finishBy Zstandard.decode_encode (show Dialect.classic.isRaw = false from rfl) true
      hops {}
  have hencode : (Codec.ofDialect .classic).encodeFrame
      { dialect := .classic, packet := .lobbyMonitor { videoId := 5 } } = .ok frame := rfl
  refine ⟨w, r, hcreate, ?_, hfinish, hopen, hdialect, ?_⟩
  · rw [hresults]
    simp [ops, Operation.collect, Operation.result, Dialect.isRaw, hsplit, hencode, Except.map]
  · have hfound : Operation.collect Operation.found .classic ops =
        [⟨sent, .toClient, frame⟩, ⟨sent, .toServer, frame⟩, ⟨sent, .toServer, []⟩] := by
      simp [ops, Operation.collect, Operation.found, Operation.appended, StoredRecord.framesIn,
        hsplit, hencode]
    rw [hfound] at hyields
    exact hyields

end CaptureWriter

end GameWire
