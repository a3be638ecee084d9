import GameWire.Proofs.Capture.Reading

/-!
# What is selected from a capture

Where a step of a reader leads depends on its `Place` only, and neither on what is selected nor on
what was decoded before.  So two readers of one file, whatever is selected in each of them and when,
come upon the same frames and the same end, and show what they show of a frame alike.
-/

namespace GameWire

namespace CaptureReader

/-! ## Places -/

/-- What the next steps of a reader depend on. -/
structure Place where
  source : ByteSource
  queued : List Bytes
  timestamp : Timestamp
  direction : Direction
  failed : Bool

def place (r : CaptureReader) : Place :=
  ⟨r.source, r.queued, r.timestamp, r.direction, r.failed⟩

namespace Place

/-- What a step comes upon, which is a frame or the end of all records, and the place behind it. -/
def turn (version : UInt8) (p : Place) : Except ReadStatus Bytes × Place :=
  if p.failed then (.error .formatError, p)
  else
    match p.queued with
    | frame :: queued => (.ok frame, { p with queued })
    | [] =>
      match StoredRecord.read? version p.source with
      | .error _ => (.error .formatError, { p with failed := true })
      | .ok none => (.error .endOfFile, p)
      | .ok (some (record, source)) =>
        match record.frames with
        | frame :: queued =>
          (.ok frame, ⟨source, queued, record.timestamp, record.direction, false⟩)
        | [] => (.error .endOfFile, p)

def ahead (version : UInt8) : (steps : Nat) → Place → Place
  | 0, p => p
  | steps + 1, p => ahead version steps (p.turn version).2

theorem isFinal_of_turn {version : UInt8} {p : Place} {status : ReadStatus}
    (h : (p.turn version).1 = .error status) : status.isFinal = true := by
  unfold turn at h
  split at h
  · cases h
    rfl
  · split at h
    · cases h
    · split at h
      · cases h
        rfl
      · cases h
        rfl
      · split at h
        · cases h
        · cases h
          rfl

end Place

/-- What is shown of what a step comes upon. -/
def viewOf (output : CaptureOutput) (codec : Codec) (found : Except ReadStatus Bytes) (p : Place) :
    ReadStatus × Option CaptureRecord :=
  match found with
  | .error status => (status, none)
  | .ok frame => output.resultOf codec p.timestamp p.direction frame

section Steps

variable {r : CaptureReader} {version : UInt8} {output : CaptureOutput} {codec : Codec}

theorem place_emit (r : CaptureReader) (frame : Bytes) : (r.emit frame).state.place = r.place := by
  obtain ⟨record?, error, he⟩ := exists_state_emit r frame
  rw [he]
  rfl

/-- A reader at another place, before it yields anything there. -/
def movedTo (r : CaptureReader) (p : Place) : CaptureReader :=
  { r with
    source := p.source, queued := p.queued, timestamp := p.timestamp, direction := p.direction
    failed := p.failed, error := .empty, record? := none }

/-- A step moves a reader, and then yields the frame that it came upon, if there is one.  Otherwise
it says in the error slot whether it failed. -/
theorem next_cases (r : CaptureReader) :
    let turn := r.place.turn r.header.version
    (∃ frame, turn.1 = .ok frame ∧ r.next.result = ((r.movedTo turn.2).emit frame).result ∧
        r.next.state = ((r.movedTo turn.2).emit frame).state) ∨
      ∃ status error, turn.1 = .error status ∧ r.next.result = status ∧
        r.next.state = { r.movedTo turn.2 with error } ∧
        (error.message?.isSome ↔ status = .formatError) := by
  unfold next Place.turn place
  cases hfailed : r.failed with
  | true => exact .inr ⟨_, .ofMessage failedMessage, rfl, rfl, rfl, iff_of_true rfl rfl⟩
  | false =>
    cases hqueued : r.queued with
    | cons frame queued => exact .inl ⟨frame, rfl, rfl, rfl⟩
    | nil =>
      simp only [ne_eq, not_true_eq_false, Bool.false_eq_true, if_false]
      cases hread : StoredRecord.read? r.header.version r.source with
      | error e => exact .inr ⟨_, .ofError e, rfl, rfl, rfl, iff_of_true rfl rfl⟩
      | ok found =>
        cases found with
        | none => exact .inr ⟨_, .empty, rfl, rfl, rfl, by decide⟩
        | some pair =>
          cases hframes : pair.1.frames with
          | nil => exact absurd hframes pair.1.frames_ne_nil
          | cons frame queued =>
            simp only [hframes]
            exact .inl ⟨frame, rfl, rfl, rfl⟩

/-- A step leads from the place of a reader to the next, and what it yields is what is shown of what
it comes upon there. -/
theorem next_eq_turn (hk : r.Knows version output codec) :
    r.yielded = viewOf output codec (r.place.turn version).1 (r.place.turn version).2 ∧
      r.next.state.place = (r.place.turn version).2 ∧ r.next.state.Knows version output codec := by
  have hmoved (p : Place) : (r.movedTo p).Knows version output codec :=
    ⟨hk.version, hk.dialect, hk.output, hk.codec⟩
  have hstep := r.next_cases
  rw [hk.version] at hstep
  generalize r.place.turn version = turn at hstep ⊢
  unfold yielded viewOf
  rcases hstep with ⟨frame, hfound, hresult, hstate⟩ | ⟨status, error, hfound, hresult, hstate, -⟩
  · rw [hresult, hstate, hfound]
    exact ⟨emit_eq (hmoved turn.2) frame, place_emit _ frame, (hmoved turn.2).emit frame⟩
  · rw [hresult, hstate, hfound]
    exact ⟨rfl, rfl, hk.version, hk.dialect, hk.output, hk.codec⟩

end Steps

/-! ## Calls on a reader -/

inductive Operation where
  | next
  | setOutput (output : CaptureOutput)
  | takeRecord

/-- What there is to see of a step: what was selected then, and what was yielded. -/
structure Sight where
  output : CaptureOutput
  status : ReadStatus
  record? : Option CaptureRecord

/-- What there is to see of the next step. -/
def sight (r : CaptureReader) : Sight :=
  ⟨r.output, r.next.result, r.next.state.record?⟩

/-- What there is to see of the steps among some calls, in their order. -/
def sights (r : CaptureReader) : List Operation → List Sight
  | [] => []
  | .next :: ops => r.sight :: r.next.state.sights ops
  | .setOutput output :: ops => (r.setOutput output).sights ops
  | .takeRecord :: ops => r.takeRecord.2.sights ops

/-- What there is to see of a step that comes upon something. -/
def Sight.ofFound (codec : Codec) (found : Except ReadStatus Bytes) (p : Place)
    (output : CaptureOutput) : Sight :=
  ⟨output, (viewOf output codec found p).1, (viewOf output codec found p).2⟩

section Calls

variable {r : CaptureReader} {version : UInt8} {output : CaptureOutput} {codec : Codec}

theorem Knows.setOutput (hk : r.Knows version output codec) (selected : CaptureOutput) :
    (r.setOutput selected).Knows version selected codec :=
  ⟨hk.version, hk.dialect, rfl, hk.codec⟩

theorem Knows.takeRecord (hk : r.Knows version output codec) :
    r.takeRecord.2.Knows version output codec :=
  ⟨hk.version, hk.dialect, hk.output, hk.codec⟩

theorem sight_eq (hk : r.Knows version output codec) {view : ReadStatus × Option CaptureRecord}
    (h : r.yielded = view) : r.sight = ⟨output, view.1, view.2⟩ := by
  unfold sight
  rw [hk.output, ← h]
  rfl

/-- The steps among any calls go from place to place, whatever is selected on the way. -/
theorem sights_eq (hk : r.Knows version output codec) {ops : List Operation} {i : Nat} {x : Sight}
    (hx : (r.sights ops)[i]? = some x) :
    let turn := (r.place.ahead version i).turn version
    x = .ofFound codec turn.1 turn.2 x.output := by
  induction ops generalizing r output i with
  | nil => cases hx
  | cons op ops ih =>
    cases op with
    | next =>
      obtain ⟨hyielded, hplace, hknows⟩ := next_eq_turn hk
      cases i with
      | zero =>
        have hsight : r.sight = x := Option.some.inj hx
        rw [← hsight, sight_eq hk hyielded]
        rfl
      | succ i =>
        rw [Place.ahead, ← hplace]
        exact ih hknows hx
    | setOutput selected => exact ih (hk.setOutput selected) hx
    | takeRecord => exact ih hk.takeRecord hx

end Calls

/-! ## What is shown -/

namespace Sight

/-- Whether a record carries what was selected. -/
structure Carries (x : Sight) (record : CaptureRecord) : Prop where
  data : record.data.isSome ↔ x.output = .raw ∨ x.output = .both ∨ x.status = .rawOnly
  raw : x.output = .raw →
    x.status = .rawOnly ∧ record.packet = none ∧ record.parseError = none

/-- Whether what was shown of two steps tells of the same frame. -/
structure SameFrame (x y : Sight) (a b : CaptureRecord) : Prop where
  timestamp : a.timestamp = b.timestamp
  direction : a.direction = b.direction
  dialect : a.dialect = b.dialect
  decoded : x.output ≠ .raw → y.output ≠ .raw →
    x.status = y.status ∧ a.packet = b.packet ∧ a.parseError = b.parseError
  data : ∀ bs bs', a.data = some bs → b.data = some bs' → bs = bs'

/-- Whether two steps found the same: the same end, or the same frame. -/
inductive Agree (x y : Sight) : Prop where
  | final (hx : x.status.isFinal) (same : x.status = y.status) (left : x.record? = none)
    (right : y.record? = none)
  | frame {a b : CaptureRecord} (hx : x.status.isFinal = false) (hy : y.status.isFinal = false)
    (left : x.record? = some a) (right : y.record? = some b) (same : SameFrame x y a b)
    (carriesLeft : x.Carries a) (carriesRight : y.Carries b)

/-! ## Sights of one frame -/

def decodedOf (codec : Codec) (frame : Bytes) : ReadStatus × Option Model × Option String :=
  match codec.decodeFrame frame with
  | .ok m => (.parsed, some m, none)
  | .error e => (.rawOnly, none, some e.message)

/-- Whether a record was made of a frame, with the time and the direction of its place. -/
structure MadeOf (x : Sight) (record : CaptureRecord) (codec : Codec) (frame : Bytes) (p : Place) :
    Prop where
  timestamp : record.timestamp = p.timestamp
  direction : record.direction = p.direction
  dialect : record.dialect = codec.dialect
  decoded : x.output ≠ .raw →
    (x.status, record.packet, record.parseError) = decodedOf codec frame
  data : ∀ bs, record.data = some bs → bs = frame

variable {x y : Sight} {a b : CaptureRecord} {codec : Codec} {frame : Bytes} {p : Place}

theorem MadeOf.sameFrame (ha : x.MadeOf a codec frame p) (hb : y.MadeOf b codec frame p) :
    SameFrame x y a b where
  timestamp := ha.timestamp.trans hb.timestamp.symm
  direction := ha.direction.trans hb.direction.symm
  dialect := ha.dialect.trans hb.dialect.symm
  decoded := by
    intro hx hy
    have h := (ha.decoded hx).trans (hb.decoded hy).symm
    exact ⟨congrArg (·.1) h, congrArg (·.2.1) h, congrArg (·.2.2) h⟩
  data := fun bs bs' hbs hbs' => (ha.data bs hbs).trans (hb.data bs' hbs').symm

/-- Whatever is selected, there is a record of the frame that is found, and it carries that. -/
theorem exists_madeOf (hx : x = ofFound codec (.ok frame) p x.output) :
    ∃ record, x.record? = some record ∧ x.status.isFinal = false ∧ x.MadeOf record codec frame p ∧
      x.Carries record := by
  obtain ⟨output, status, record?⟩ := x
  unfold ofFound viewOf CaptureOutput.resultOf at hx
  cases hdecode : codec.decodeFrame frame <;> cases output <;>
    (simp only [hdecode, mk.injEq, true_and] at hx
     obtain ⟨rfl, rfl⟩ := hx
     refine ⟨_, rfl, rfl, ⟨rfl, rfl, rfl, ?_, ?_⟩, ?_, ?_⟩ <;> simp [decodedOf, hdecode])

end Sight

/-- Whatever is selected at first, a reader of a source begins at one place and with one codec. -/
theorem knows_of_ofSource {source : ByteSource} {output : CaptureOutput} {settings : CodecSettings}
    {r : CaptureReader} (h : ofSource source output settings = .ok r) :
    ∃ header rest, CaptureHeader.read source = .ok (header, rest) ∧
      r.Knows header.version output ((Codec.ofSettings settings).setDialect header.dialect) ∧
      r.place = ⟨if header.compressed then rest.decompress else rest, [], .ofSeconds 0, default,
        false⟩ := by
  unfold ofSource at h
  cases hread : CaptureHeader.read source with
  | error e =>
    rw [hread] at h
    cases h
  | ok found =>
    rw [hread] at h
    cases h
    exact ⟨found.1, found.2, rfl, ⟨rfl, rfl, rfl, rfl, rfl⟩, rfl⟩

/-- What is selected changes only what is shown: in any two runs over one file, whatever is selected
and taken between the steps, each step finds the same, and shows what was selected of it. -/
theorem sights_agree {source : ByteSource} {settings : CodecSettings}
    {output output' : CaptureOutput} {r r' : CaptureReader}
    (hr : ofSource source output settings = .ok r)
    (hr' : ofSource source output' settings = .ok r') {ops ops' : List Operation} {i : Nat}
    {x y : Sight} (hx : (r.sights ops)[i]? = some x) (hy : (r'.sights ops')[i]? = some y) :
    x.Agree y := by
  obtain ⟨header, rest, hread, hknows, hplace⟩ := knows_of_ofSource hr
  obtain ⟨header', rest', hread', hknows', hplace'⟩ := knows_of_ofSource hr'
  cases hread.symm.trans hread'
  have hfound := sights_eq hknows hx
  have hfound' := sights_eq hknows' hy
  rw [hplace', ← hplace] at hfound'
  generalize hturn : (r.place.ahead header.version i).turn header.version = turn at hfound hfound'
  obtain ⟨found, p⟩ := turn
  cases found with
  | error status =>
    have hfinal := Place.isFinal_of_turn (congrArg Prod.fst hturn)
    rw [hfound, hfound']
    exact .final hfinal rfl rfl rfl
  | ok frame =>
    obtain ⟨a, ha, hafinal, hamade, hacarries⟩ := Sight.exists_madeOf hfound
    obtain ⟨b, hb, hbfinal, hbmade, hbcarries⟩ := Sight.exists_madeOf hfound'
    exact .frame hafinal hbfinal ha hb (hamade.sameFrame hbmade) hacarries hbcarries

theorem sights_agree_withinRecord :
    let frame : Bytes := [8, 0, 0, 0, 3, 4, 0, 0]
    let laid : LaidRecord := ⟨7, 1, frame ++ [9]⟩
    let source : ByteSource := { bytes := CaptureHeader.magic ++ 1 :: laid.bytes 1 }
    let record : CaptureRecord :=
      { timestamp := { seconds := 7 }, direction := .toClient, dialect := .ngs, data := some [9] }
    ∃ r r' text,
      let x : Sight := ⟨.both, .rawOnly, some { record with parseError := some text }⟩
      let y : Sight := ⟨.raw, .rawOnly, some record⟩
      ofSource source .both {} = .ok r ∧ ofSource source .packet {} = .ok r' ∧
        (r.sights [.next, .takeRecord, .next])[1]? = some x ∧
        (r'.sights [.next, .setOutput .raw, .next])[1]? = some y ∧ x.Agree y := by
  intro frame laid source record
  let codec : Codec := (Codec.ofSettings {}).setDialect .ngs
  have hframes : (laid.stored 1).frames = [frame, [9]] := by
    have hsplit : splitFrames (frame ++ [9]) = ([frame], [9]) := by
      simp [frame, splitFrames, frameLength?, Bytes.u32At?, Bytes.cut?, Bytes.ofLE, headerLength]
    unfold StoredRecord.frames LaidRecord.stored
    rw [hsplit]
    rfl
  have hfits : laid.Fits 1 := ⟨by decide, by decide⟩
  -- After the first step, the bytes behind the frame wait in both readers.
  have hopen (output : CaptureOutput) : ∃ r, ofSource source output {} = .ok r ∧
      r.next.state.Knows 1 output codec ∧
      r.next.state.StandsAt ⟨[], [[9]], { seconds := 7 }, .toClient⟩ := by
    let r : CaptureReader :=
      { header := ⟨1, .ngs, false⟩, source := { bytes := laid.bytes 1 ++ [] }, codec, output }
    have hk : r.Knows 1 output codec := ⟨rfl, rfl, rfl, rfl, rfl⟩
    have hp : r.StandsAt ⟨laid.bytes 1 ++ [], [], .ofSeconds 0, default⟩ :=
      ⟨rfl, rfl, rfl, rfl, rfl⟩
    exact ⟨r, rfl, (next_of_record hfits hk hp hframes).2⟩
  obtain ⟨r, hr, hk, hp⟩ := hopen .both
  obtain ⟨r', hr', hk', hp'⟩ := hopen .packet
  have hleft := next_of_queued hk.takeRecord
    ⟨hp.source, hp.queued, hp.timestamp, hp.direction, hp.failed⟩
  have hright := next_of_queued (hk'.setOutput .raw)
    ⟨hp'.source, hp'.queued, hp'.timestamp, hp'.direction, hp'.failed⟩
  have hx : (r.sights [.next, .takeRecord, .next])[1]? = some _ :=
    congrArg some (sight_eq hk.takeRecord hleft.1)
  have hy : (r'.sights [.next, .setOutput .raw, .next])[1]? = some _ :=
    congrArg some (sight_eq (hk'.setOutput .raw) hright.1)
  exact ⟨r, r', _, hr, hr', hx, hy, sights_agree hr hr' hx hy⟩

end CaptureReader

end GameWire
