import GameWire.Proofs.Capture.Cut
import GameWire.Proofs.Capture.FailingFile
import GameWire.Proofs.Capture.RoundTrip

/-!
# Captures on files that fail

A call that fails costs no record that is whole in the file: up to the first record of which only a
part was stored, a reader finds every record, whatever failed.  Behind such a part nothing is found,
as the reader takes what follows it for the rest of the record.  A call strays if it changes the
dialect, and fails when it has moved to the dialect's place already: the next record is then stored
over the header.
-/

namespace GameWire

namespace CaptureWriter

/-! ## What a call stores -/

/-- Whether changing the dialect fails behind the move to the place where it stands. -/
def Strays (w : CaptureWriter) : Operation → Prop
  | .changeDialect new =>
    ∃ id, new.captureId? = some id ∧ w.file.StraysAt CaptureHeader.dialectOffset [id]
  | _ => False

/-- Whether a change of the dialect that fails leaves the file, its position and the dialect. -/
def Withdraws (w : CaptureWriter) : Operation → Prop
  | .changeDialect new => ∀ e, (w.changeDialect new).result = .error e →
    (w.changeDialect new).state.file.content = w.file.content ∧
      (w.changeDialect new).state.file.position = w.file.position ∧
      (w.changeDialect new).state.dialect = w.dialect
  | _ => True

def AtEach (w : CaptureWriter) (P : CaptureWriter → Operation → Prop) (ops : List Operation) :
    Prop :=
  Throughout (fun (w : CaptureWriter) op => (w.perform op).state) P w ops

/-- Whether a writer that does not compress stands behind the header for its dialect and certain
bytes, and is able to go on. -/
structure StandsBehind (w : CaptureWriter) (body : Bytes) : Prop where
  file : ∃ id back, w.dialect.captureId? = some id ∧
    w.file.StandsBetween ((CaptureHeader.fields id false).flatten ++ body) back
  compressed : w.compressed = false
  finished : w.finished = false
  settings : w.codec.settings = {}

/-- Whether a call leaves a writer behind `body` and the first of some bytes, and behind all of them
if it succeeds. -/
def Stores (body : Bytes) (call : Call CaptureWriter (Except ProtocolError Unit)) (bs : Bytes) :
    Prop :=
  ∃ part, part <+: bs ∧ call.state.StandsBehind (body ++ part) ∧
    (call.result = .ok () → part = bs)

section Steps

variable {w : CaptureWriter} {body bs : Bytes} {op : Operation}
  {call : Call CaptureWriter (Except ProtocolError Unit)}

theorem StandsBehind.isRaw (h : w.StandsBehind body) : w.dialect.isRaw = false := by
  obtain ⟨id, back, hid, -⟩ := h.file
  cases hdialect : w.dialect with
  | raw => rw [hdialect] at hid; cases hid
  | _ => rfl

theorem stores_nil (h : call.state.StandsBehind body) : Stores body call [] :=
  ⟨[], List.nil_prefix, by rw [List.append_nil]; exact h, fun _ => rfl⟩

-- The error slot has no part in it.
theorem Stores.answer (h : Stores body call bs) {result : Except ProtocolError Unit}
    (hok : result = .ok () → call.result = .ok ()) (activity : List Activity) :
    Stores body (call.state.answer result activity) bs := by
  obtain ⟨part, hprefix, hstands, hwhole⟩ := h
  exact ⟨part, hprefix, ⟨hstands.file, hstands.compressed, hstands.finished, hstands.settings⟩,
    fun hresult => hwhole (hok hresult)⟩

theorem StandsBehind.append (h : w.StandsBehind body) (record : StoredRecord) :
    Stores body (w.append record) record.bytes := by
  obtain ⟨id, back, hid, hfile⟩ := h.file
  obtain ⟨part, hprefix, hstands, hwhole⟩ := hfile.writeAll record.fields
  refine ⟨part, hprefix, ?_⟩
  unfold CaptureWriter.append
  rw [h.finished, h.compressed]
  rw [List.append_assoc] at hstands
  simp only [Bool.false_eq_true, if_false]
  cases hwrite : w.file.writeAll record.fields with
  | mk result file =>
    rw [hwrite] at hstands hwhole
    cases result with
    | error e => exact ⟨⟨⟨id, _, hid, hstands⟩, rfl, rfl, h.settings⟩, fun hok => nomatch hok⟩
    | ok u => exact ⟨⟨⟨id, _, hid, hstands⟩, rfl, rfl, h.settings⟩, fun _ => hwhole rfl⟩

theorem StandsBehind.appendAll (h : w.StandsBehind body) (records : List StoredRecord) :
    Stores body (w.appendAll records) (records.flatMap StoredRecord.bytes) := by
  induction records generalizing w body with
  | nil => exact stores_nil h
  | cons record records ih =>
    obtain ⟨part, hprefix, hstands, hwhole⟩ := h.append record
    unfold CaptureWriter.appendAll
    rw [List.flatMap_cons]
    cases hresult : (w.append record).result with
    | error e =>
      simp only [hresult]
      refine ⟨part, hprefix.trans (List.prefix_append _ _), hstands, fun hok => ?_⟩
      rw [hresult] at hok
      cases hok
    | ok u =>
      obtain ⟨more, hmore, hstands', hwhole'⟩ := ih hstands
      rw [hwhole hresult] at hstands'
      simp only [hresult]
      refine ⟨record.bytes ++ more, (List.prefix_append_right_inj _).2 hmore, ?_, ?_⟩
      · rw [← List.append_assoc]
        exact hstands'
      · intro hok
        rw [hwhole' hok]

theorem StandsBehind.writePacket (h : w.StandsBehind body) (timestamp : Timestamp)
    (direction : Direction) (m : Model) :
    Stores body (w.writePacket timestamp direction m)
      (((Operation.packet timestamp direction m).appended w.dialect).flatMap
        StoredRecord.bytes) := by
  have hcodec : StandsBehind { w with codec := (w.codec.encodeRaw m).state } body :=
    ⟨h.file, h.compressed, h.finished, h.settings⟩
  have hdialect : w.codec.dialect = (Codec.ofDialect w.dialect).dialect := rfl
  have hencode := (Codec.conversions_congr hdialect h.settings).1
  unfold Operation.appended CaptureWriter.writePacket
  cases hframe : w.codec.encodeFrame m with
  | error e =>
    have hcall : (w.codec.encodeRaw m).result = .error e := hframe
    simp only [hcall, ← hencode, hframe]
    exact stores_nil ⟨h.file, h.compressed, h.finished, h.settings⟩
  | ok frame =>
    have hcall : (w.codec.encodeRaw m).result = .ok frame := hframe
    simp only [hcall, ← hencode, hframe, List.flatMap_singleton]
    exact (hcodec.append ⟨timestamp, direction, frame⟩).answer id _

theorem StandsBehind.writeData (h : w.StandsBehind body) (timestamp : Timestamp)
    (direction : Direction) (bs : Bytes) :
    Stores body (w.writeData timestamp direction bs)
      (((Operation.data timestamp direction bs).appended w.dialect).flatMap
        StoredRecord.bytes) := by
  refine (h.appendAll _).answer (fun hok => ?_) _
  -- A call in which a record fails does not succeed.
  generalize (w.appendAll _).result = result at hok ⊢
  cases result with
  | ok u => rfl
  | error e => cases hok

/-- A change of the dialect comes to nothing, or to what writing the identifier comes to. -/
theorem changeDialect_cases (w : CaptureWriter) (new : Dialect) :
    (∃ error, (w.changeDialect new).state = { w with error }) ∨
      ∃ id error, new.captureId? = some id ∧
        let written := w.file.writeAt CaptureHeader.dialectOffset [id]
        ((∃ e, written.1 = .error e ∧
            (w.changeDialect new).state = { w with file := written.2, error }) ∨
          (written.1 = .ok () ∧ (w.changeDialect new).result = .ok () ∧
            (w.changeDialect new).state =
              { w with file := written.2, codec := w.codec.setDialect new, error })) := by
  unfold changeDialect idOf
  cases hnew : new.captureId? with
  | none => exact .inl ⟨_, rfl⟩
  | some id =>
    by_cases hfinished : w.finished = true
    · simp only [if_pos hfinished]
      exact .inl ⟨_, rfl⟩
    · simp only [if_neg hfinished]
      cases hwrite : w.file.writeAt CaptureHeader.dialectOffset [id] with
      | mk result file =>
        refine .inr ⟨id, .ofResult (result.mapError .io), rfl, ?_⟩
        rw [hwrite]
        cases result with
        | error e => exact .inl ⟨e, rfl, rfl⟩
        | ok u => exact .inr ⟨rfl, rfl, rfl⟩

theorem withdraws (hs : ¬ w.Strays op) : w.Withdraws op := by
  cases op with
  | changeDialect new =>
    intro e he
    obtain ⟨error, hstate⟩ | ⟨id, error, hnew, ⟨e', hwrite, hstate⟩ | ⟨-, hresult, -⟩⟩ :=
      w.changeDialect_cases new
    · rw [hstate]
      exact ⟨rfl, rfl, rfl⟩
    · have hkept := ScriptedFile.writeAt_of_error (fun h => hs ⟨id, hnew, h⟩) hwrite
      rw [hstate]
      exact ⟨hkept.1, hkept.2, rfl⟩
    · rw [hresult] at he
      cases he
  | _ => trivial

theorem StandsBehind.changeDialect (h : w.StandsBehind body) {new : Dialect}
    (hs : ¬ w.Strays (.changeDialect new)) : (w.changeDialect new).state.StandsBehind body := by
  obtain ⟨id, back, hid, hfile⟩ := h.file
  obtain ⟨error, hstate⟩ | ⟨newId, error, hnew, ⟨e, hwrite, hstate⟩ | ⟨hwrite, -, hstate⟩⟩ :=
    w.changeDialect_cases new
  · rw [hstate]
    exact ⟨⟨id, back, hid, hfile⟩, h.compressed, h.finished, h.settings⟩
  · have hkept := ScriptedFile.writeAt_of_error (fun h => hs ⟨newId, hnew, h⟩) hwrite
    rw [hstate]
    exact ⟨⟨id, back, hid, hkept.1.trans hfile.content, hkept.2.trans hfile.position⟩, h.compressed,
      h.finished, h.settings⟩
  · have hthere : w.file.StandsBetween ((CaptureHeader.magic ++ [CaptureHeader.currentVersion]) ++
        ([id] ++ (false.toUInt8 :: body))) back := hfile
    have hstands := hthere.writeAt (show [newId].length = [id].length from rfl) hwrite
    rw [hstate]
    exact ⟨⟨newId, back, hnew, hstands⟩, h.compressed, h.finished, h.settings⟩

/-- What a call stores are the first bytes of what it is to append, and all of them if it
succeeds. -/
theorem StandsBehind.perform (h : w.StandsBehind body) (hs : ¬ w.Strays op) :
    Stores body (w.perform op) ((op.appended w.dialect).flatMap StoredRecord.bytes) := by
  cases op with
  | packet timestamp direction m => exact h.writePacket timestamp direction m
  | data timestamp direction bs => exact h.writeData timestamp direction bs
  | unchecked timestamp direction bs =>
    unfold Operation.appended
    rw [List.flatMap_singleton]
    exact (h.append ⟨timestamp, direction, bs⟩).answer id _
  | changeDialect new => exact stores_nil (h.changeDialect hs)

end Steps

/-! ## What is whole in the file -/

/-- How far a call moves the place where the file is written. -/
def movedBy (w : CaptureWriter) (op : Operation) : Nat :=
  (w.perform op).state.file.position - w.file.position

/-- The records of a call that it stores whole, whatever it comes to. -/
def wholeBy (w : CaptureWriter) (op : Operation) : List LaidRecord :=
  LaidRecord.wholeWithin CaptureHeader.currentVersion (w.movedBy op)
    ((op.appended w.dialect).map StoredRecord.laid)

/-- Whether a call leaves a part of a record behind the whole ones. -/
def Tears (w : CaptureWriter) (op : Operation) : Prop :=
  w.movedBy op ≠ ((w.wholeBy op).flatMap (LaidRecord.bytes CaptureHeader.currentVersion)).length

instance (w : CaptureWriter) (op : Operation) : Decidable (w.Tears op) :=
  inferInstanceAs (Decidable (_ ≠ _))

/-- What is found again of a call: everything if it succeeds, and else the frames of the records
that it stores whole. -/
def keptBy (w : CaptureWriter) (op : Operation) : List StoredRecord :=
  match (w.perform op).result with
  | .ok () => op.found w.dialect
  | .error _ =>
    (w.wholeBy op).flatMap fun laid => (laid.stored CaptureHeader.currentVersion).singles

/-- What there is of each of some calls, up to the first that tears a record. -/
def untilTorn {α : Type} (f : CaptureWriter → Operation → List α) (w : CaptureWriter) :
    List Operation → List α
  | [] => []
  | op :: ops => f w op ++ if w.Tears op then [] else untilTorn f (w.perform op).state ops

section Runs

variable {w : CaptureWriter} {body : Bytes} {op : Operation}

theorem StandsBehind.movedBy_eq (h : w.StandsBehind body) {part : Bytes}
    (hstands : (w.perform op).state.StandsBehind (body ++ part)) : w.movedBy op = part.length := by
  obtain ⟨id, back, -, hfile⟩ := h.file
  obtain ⟨id', back', -, hfile'⟩ := hstands.file
  have hheader (id : UInt8) : (CaptureHeader.fields id false).flatten.length = 7 := rfl
  unfold movedBy
  rw [hfile.position, hfile'.position]
  simp only [List.length_append, hheader]
  omega

theorem StandsBehind.step (h : w.StandsBehind body) (hs : ¬ w.Strays op) :
    ∃ rest, (w.perform op).state.StandsBehind (body ++
        ((w.wholeBy op).flatMap (LaidRecord.bytes CaptureHeader.currentVersion) ++ rest)) ∧
      (¬ w.Tears op → rest = []) := by
  obtain ⟨part, hprefix, hstands, -⟩ := h.perform hs
  rw [← StoredRecord.flatMap_bytes_laid] at hprefix
  obtain ⟨rest, htake, -⟩ := LaidRecord.exists_take_eq CaptureHeader.currentVersion part.length
    ((op.appended w.dialect).map StoredRecord.laid)
  rw [← List.prefix_iff_eq_take.1 hprefix] at htake
  unfold Tears wholeBy
  rw [h.movedBy_eq hstands]
  refine ⟨rest, htake ▸ hstands, fun htears => ?_⟩
  have hlength := congrArg List.length htake
  rw [List.length_append, ← Decidable.not_not.1 htears] at hlength
  exact List.eq_nil_of_length_eq_zero (by omega)

/-- A call that succeeds stores everything whole. -/
theorem StandsBehind.wholeBy_of_ok (h : w.StandsBehind body) (hs : ¬ w.Strays op)
    (hok : (w.perform op).result = .ok ()) :
    w.wholeBy op = (op.appended w.dialect).map StoredRecord.laid ∧ ¬ w.Tears op := by
  obtain ⟨part, -, hstands, hwhole⟩ := h.perform hs
  have hpart := hwhole hok
  rw [← StoredRecord.flatMap_bytes_laid] at hpart
  have hall : w.wholeBy op = (op.appended w.dialect).map StoredRecord.laid := by
    unfold wholeBy
    rw [h.movedBy_eq hstands, hpart]
    exact LaidRecord.wholeWithin_length _ _
  refine ⟨hall, fun htears => htears ?_⟩
  rw [hall, h.movedBy_eq hstands, hpart]

theorem StandsBehind.fits_of_mem_wholeBy (h : w.StandsBehind body) (hop : op.Fits)
    {laid : LaidRecord} (hlaid : laid ∈ w.wholeBy op) :
    laid.Fits CaptureHeader.currentVersion := by
  obtain ⟨record, hrecord, rfl⟩ := List.mem_map.1 (LaidRecord.mem_of_mem_wholeWithin hlaid)
  exact StoredRecord.fits_laid (Operation.length_lt_of_mem_appended h.isRaw hop hrecord)

/-- What is found again of a call are the frames of the records that it stores whole. -/
theorem StandsBehind.frames_wholeBy (h : w.StandsBehind body) (hs : ¬ w.Strays op) :
    (w.wholeBy op).flatMap (fun laid => (laid.stored CaptureHeader.currentVersion).singles) =
      w.keptBy op := by
  unfold keptBy
  cases hresult : (w.perform op).result with
  | error e => rfl
  | ok u =>
    rw [(h.wholeBy_of_ok hs hresult).1, List.flatMap_map,
      ← Operation.flatMap_singles_appended h.isRaw]
    simp only [StoredRecord.stored_laid]

/-- What some calls on a writer behind certain bytes leave: everything that they stored whole, up to
the first record that was torn, lies in the file. -/
structure Leaves (w : CaptureWriter) (body : Bytes) (ops : List Operation) : Prop where
  file : ∃ rest, (w.run ops).2.StandsBehind (body ++
    ((w.untilTorn wholeBy ops).flatMap (LaidRecord.bytes CaptureHeader.currentVersion) ++ rest))
  fits : ∀ laid ∈ w.untilTorn wholeBy ops, laid.Fits CaptureHeader.currentVersion
  frames : (w.untilTorn wholeBy ops).flatMap
    (fun laid => (laid.stored CaptureHeader.currentVersion).singles) = w.untilTorn keptBy ops
  tears : w.AtEach (fun w op => w.Tears op → (w.perform op).result ≠ .ok ()) ops

theorem StandsBehind.run (h : w.StandsBehind body) {ops : List Operation}
    (hops : ∀ op ∈ ops, op.Fits) (hs : w.AtEach (fun w op => ¬ w.Strays op) ops) :
    w.Leaves body ops := by
  -- The writer always stands behind all that was stored, whole or torn.
  induction ops generalizing w body with
  | nil =>
    refine ⟨⟨[], ?_⟩, fun laid hlaid => (nomatch hlaid), rfl, trivial⟩
    rw [show w.untilTorn wholeBy [] = [] from rfl, List.flatMap_nil, List.append_nil,
      List.append_nil]
    exact h
  | cons op ops ih =>
    have hfits (laid : LaidRecord) (hlaid : laid ∈ w.wholeBy op) :=
      h.fits_of_mem_wholeBy (hops op List.mem_cons_self) hlaid
    have hframes := h.frames_wholeBy hs.1
    have htears : w.Tears op → (w.perform op).result ≠ .ok () :=
      fun htears hok => (h.wholeBy_of_ok hs.1 hok).2 htears
    obtain ⟨rest, hstands, hclean⟩ := h.step hs.1
    obtain ⟨⟨rest', hstands'⟩, hfits', hframes', htears'⟩ :=
      ih hstands (fun op hop => hops op (List.mem_cons_of_mem _ hop)) hs.2
    by_cases htorn : w.Tears op
    · -- What comes behind a torn record is not looked at.
      have hcut {α : Type} (f : CaptureWriter → Operation → List α) :
          w.untilTorn f (op :: ops) = f w op := by
        rw [untilTorn, if_pos htorn, List.append_nil]
      rw [List.append_assoc, List.append_assoc] at hstands'
      exact ⟨⟨_, hcut wholeBy ▸ hstands'⟩, hcut wholeBy ▸ hfits, by rw [hcut, hcut, hframes],
        htears, htears'⟩
    · have hboth {α : Type} (f : CaptureWriter → Operation → List α) :
          w.untilTorn f (op :: ops) = f w op ++ (w.perform op).state.untilTorn f ops := by
        rw [untilTorn, if_neg htorn]
      rw [hclean htorn, List.append_nil, List.append_assoc, ← List.append_assoc (List.flatMap _ _),
        ← List.flatMap_append, ← hboth] at hstands'
      refine ⟨⟨rest', hstands'⟩, fun laid hlaid => ?_, ?_, htears, htears'⟩
      · rw [hboth] at hlaid
        exact (List.mem_append.1 hlaid).elim (hfits laid) (hfits' laid)
      · rw [hboth, hboth, List.flatMap_append, hframes, hframes']

end Runs

/-! ## What is found again -/

theorem standsBehind_create {file : ScriptedFile} (hfile : file.position = 0) {dialect : Dialect}
    {w : CaptureWriter} (hw : create file dialect false = .ok w) : w.StandsBehind [] := by
  have hbegin : file.StandsBetween [] file.content := ⟨rfl, hfile⟩
  unfold create idOf at hw
  cases hid : dialect.captureId? with
  | none =>
    rw [hid] at hw
    cases hw
  | some id =>
    obtain ⟨part, -, hstands, hwhole⟩ := hbegin.writeAll (CaptureHeader.fields id false)
    simp only [hid, bind, Except.bind] at hw
    cases hwrite : file.writeAll (CaptureHeader.fields id false) with
    | mk result file' =>
      rw [hwrite] at hw hstands hwhole
      cases result with
      | error e => cases hw
      | ok u =>
        cases hw
        rw [hwhole rfl, List.nil_append] at hstands
        have hbody := List.append_nil (CaptureHeader.fields id false).flatten
        exact ⟨⟨id, _, hid, hbody.symm ▸ hstands⟩, rfl, rfl, rfl⟩

theorem StandsBehind.finish {w : CaptureWriter} {body : Bytes} (h : w.StandsBehind body) :
    w.finish.result = .ok () ∧ w.finish.state.file = w.file := by
  unfold CaptureWriter.finish finishBy
  rw [h.finished, h.compressed]
  exact ⟨rfl, rfl⟩

/-- Whatever writes and seeks fail, if no call strays then the capture can be finished, and a reader
of bytes first yields what was recorded by the calls that succeeded, and of the others what they
stored whole, in order and up to the first call that tore a record.  Only calls that fail do that,
and a change of the dialect that fails leaves the file, its position and the dialect. -/
theorem ofSource_finish_faults {file : ScriptedFile} (hfile : file.position = 0) {dialect : Dialect}
    {w : CaptureWriter} (hw : create file dialect false = .ok w) {ops : List Operation}
    (hops : ∀ op ∈ ops, op.Fits) (hs : w.AtEach (fun w op => ¬ w.Strays op) ops)
    (settings : CodecSettings) :
    (w.run ops).2.finish.result = .ok () ∧
      (∃ r, CaptureReader.ofSource { bytes := (w.run ops).2.finish.state.file.content } .raw
          settings = .ok r ∧
        r.header.dialect = (w.run ops).2.dialect ∧
        r.YieldsFirst ((w.untilTorn keptBy ops).map
          (StoredRecord.rawResult (w.run ops).2.dialect))) ∧
      w.AtEach (fun w op => w.Tears op → (w.perform op).result ≠ .ok ()) ops ∧
      w.AtEach Withdraws ops := by
  obtain ⟨⟨rest, hstands⟩, hfits, hframes, htears⟩ := (standsBehind_create hfile hw).run hops hs
  obtain ⟨hfinish, hsame⟩ := hstands.finish
  obtain ⟨id, back, hid, hcontent, -⟩ := hstands.file
  refine ⟨hfinish, ?_, htears, Throughout.imp (fun w op => withdraws) hs⟩
  rw [List.nil_append, List.append_assoc, List.append_assoc] at hcontent
  obtain ⟨r, hopen, hdialect, hknows, hstandsAt⟩ :=
    ofSource_finished hid false Zstandard.decode_encode _ .raw settings
  obtain ⟨r', -, -, hleads, -, -⟩ := CaptureReader.leads_of_records hfits hknows hstandsAt
  rw [hsame, hcontent]
  refine ⟨r, hopen, hdialect, ?_⟩
  rw [← hframes, List.map_flatMap]
  simp only [CaptureOutput.resultsOf_raw] at hleads
  exact hleads.yieldsFirst

theorem ofSource_finish_faults_eachKind :
    let fails : FileAnswer := .failure ⟨.permanent, "scripted failure"⟩ 0
    let file : ScriptedFile :=
      { answers := List.replicate 2 .success ++ fails :: List.replicate 4 .success ++
          fails :: List.replicate 5 .success ++ [fails] }
    let sent : Timestamp := { seconds := 7 }
    let frame : Bytes := [0x0C, 0, 0, 0, 0x19, 0x0F, 0, 0, 5, 0, 0, 0]
    let ops : List Operation :=
      [.unchecked sent .toServer [1],
        .packet sent .toClient { dialect := .classic, packet := .lobbyMonitor { videoId := 5 } },
        .changeDialect .jp, .changeDialect .na, .unchecked sent .toServer [2],
        .unchecked sent .toServer [3]]
    ∃ w r, create file .classic false = .ok w ∧
      (w.run ops).1.map Except.isOk = [false, true, false, true, false, true] ∧
      CaptureReader.ofSource { bytes := (w.run ops).2.finish.state.file.content } .raw {} = .ok r ∧
      r.header.dialect = .na ∧
      r.YieldsFirst [(.rawOnly, some
        { timestamp := sent, direction := .toClient, dialect := .na, data := some frame })] := by
  intro fails file sent frame ops
  let w : CaptureWriter :=
    { file :=
        { content := (CaptureHeader.fields 0 false).flatten, position := 7
          answers := file.answers.drop 2 }
      compressed := false
      codec := Codec.ofDialect .classic }
  have hw : create file .classic false = .ok w := rfl
  have hops : ∀ op ∈ ops, op.Fits := by
    intro op hop
    simp only [ops, List.mem_cons, List.not_mem_nil, or_false] at hop
    rcases hop with rfl | rfl | rfl | rfl | rfl | rfl <;> simp [Operation.Fits]
  have hresults : (w.run ops).1.map Except.isOk = [false, true, false, true, false, true] := by
    decide +kernel
  have hdialect : (w.run ops).2.dialect = .na := by decide +kernel
  have hs : w.AtEach (fun w op => ¬ w.Strays op) ops := by
    refine ⟨not_false, not_false, ?_, ?_, not_false, not_false, trivial⟩
    · rintro ⟨id, -, ⟨position, htell⟩, -⟩
      cases htell
    · rintro ⟨id, hid, -, -, e, hwrite⟩
      cases hid
      cases hwrite
  have hkept : w.untilTorn keptBy ops = [⟨sent, .toClient, frame⟩] := by
    decide +kernel
  obtain ⟨-, ⟨r, hopen, hheader, hyields⟩, -⟩ := ofSource_finish_faults rfl hw hops hs {}
  rw [hdialect] at hheader hyields
  rw [hkept] at hyields
  exact ⟨w, r, hw, hresults, hopen, hheader, hyields⟩

theorem not_found_behind_tornRecord :
    let failure : IoError := ⟨.permanent, "scripted failure"⟩
    let file : ScriptedFile := { limit? := some (65, failure) }
    let frame : Bytes := [8, 0, 0, 0, 3, 4, 0, 0]
    let ops : List Operation :=
      [.unchecked (.ofSeconds 0) .toServer (Bytes.zeros 34),
        .unchecked (.ofSeconds 0) .toServer frame]
    ∃ w r, create file .classic false = .ok w ∧
      (w.run ops).1 = [.error (.io failure), .ok ()] ∧ (w.run ops).2.finish.result = .ok () ∧
      CaptureReader.ofSource { bytes := (w.run ops).2.finish.state.file.content } .raw {} = .ok r ∧
      r.Yields [] (.formatError, none) := by
  intro failure file frame ops
  let header : Bytes := (CaptureHeader.fields 0 false).flatten
  let w : CaptureWriter :=
    { file := { content := header, position := 7, limit? := some (65, failure) }
      compressed := false
      codec := Codec.ofDialect .classic }
  -- The data of the first record is missing, so that the second record counts as a part of it.
  let torn : LaidRecord := ⟨0, 0, (StoredRecord.mk (.ofSeconds 0) .toServer frame).bytes ++ [0]⟩
  have hcontent : (w.run ops).2.finish.state.file.content =
      header ++ (torn.bytes CaptureHeader.currentVersion).take 58 := by decide +kernel
  obtain ⟨r, hopen, -, hknows, hstands⟩ := ofSource_finished
    (show Dialect.classic.captureId? = some 0 from rfl) false Zstandard.decode_encode
    ((torn.bytes CaptureHeader.currentVersion).take 58) .raw {}
  have hfits : torn.Fits CaptureHeader.currentVersion := ⟨by decide, by decide⟩
  exact ⟨w, r, rfl, rfl, rfl, hcontent ▸ hopen,
    CaptureReader.yields_of_cut hfits (by decide) (by decide) hknows hstands⟩

/-- A change of the dialect that strays leaves the file at the place of the dialect, so that the
next record is stored over the header.  What was recorded before is lost with it. -/
theorem not_opened_behind_strayedDialect :
    let failure : IoError := ⟨.permanent, "scripted failure"⟩
    let file : ScriptedFile := { answers := List.replicate 8 .success ++ [.failure failure 0] }
    let frame : Bytes := [8, 0, 0, 0, 3, 4, 0, 0]
    let before : List Operation := [.unchecked (.ofNanos 1) .toServer frame]
    let change : Operation := .changeDialect .na
    let behind : List Operation := [.unchecked (.ofNanos 9) .toServer frame]
    let ops := before ++ change :: behind
    ∃ w, create file .classic false = .ok w ∧ (w.run before).2.Strays change ∧
      (w.run ops).1 = [.ok (), .error (.io failure), .ok ()] ∧
      (w.run ops).2.finish.result = .ok () ∧
      CaptureReader.ofSource { bytes := (w.run ops).2.finish.state.file.content } .raw {} =
        .error (.invalidDialect 9) := by
  intro failure file frame before change behind ops
  let w : CaptureWriter :=
    { file :=
        { content := (CaptureHeader.fields 0 false).flatten, position := 7
          answers := file.answers.drop 2 }
      compressed := false
      codec := Codec.ofDialect .classic }
  have hstrays : (w.run before).2.Strays change := ⟨2, rfl, ⟨_, rfl⟩, rfl, failure, rfl⟩
  -- The timestamp stands where the dialect was told.
  have hfront : (w.run ops).2.finish.state.file.content.take 6 =
      CaptureHeader.magic ++ [CaptureHeader.currentVersion, 9] := by decide +kernel
  have hcontent := List.take_append_drop 6 (w.run ops).2.finish.state.file.content
  rw [hfront] at hcontent
  refine ⟨w, rfl, hstrays, rfl, rfl, ?_⟩
  rw [← hcontent]
  generalize List.drop 6 _ = rest
  rfl

end CaptureWriter

end GameWire
