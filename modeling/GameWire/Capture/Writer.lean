import GameWire.Capture.File
import GameWire.Capture.Format
import GameWire.Codec
import GameWire.Zstandard.Stored

/-!
# Writing captures

A writer appends records to a capture file. The records of a compressed file are kept until the
capture is finished, and then stored as one Zstandard stream.
-/

namespace GameWire

structure CaptureWriter where
  file : ScriptedFile
  compressed : Bool
  /-- The records that are still to be compressed. -/
  kept : Bytes := []
  finished : Bool := false
  codec : Codec
  /-- The message of the last call, if it failed. -/
  error : ErrorSlot := {}

namespace CaptureWriter

def idOf (dialect : Dialect) : Except ProtocolError UInt8 :=
  match dialect.captureId? with
  | some id => .ok id
  | none => .error (.format .rawNotStorable)

/-- Begins a capture in a file. The raw dialect cannot be captured. -/
def create (file : ScriptedFile) (dialect : Dialect) (compressed : Bool) :
    Except ProtocolError CaptureWriter := do
  let id ← idOf dialect
  match file.writeAll (CaptureHeader.fields id compressed) with
  | (.error e, _) => throw (.io e)
  | (.ok (), file) => pure { file, compressed, codec := Codec.ofDialect dialect }

def dialect (w : CaptureWriter) : Dialect := w.codec.dialect

/-- The outcome of a call that leaves its result in the error slot. -/
def answer (w : CaptureWriter) (result : Except ProtocolError Unit)
    (activity : List Activity := []) : Call CaptureWriter (Except ProtocolError Unit) :=
  { result, state := { w with error := .ofResult result }, activity }

def append (w : CaptureWriter) (record : StoredRecord) :
    Call CaptureWriter (Except ProtocolError Unit) :=
  if w.finished then { result := .error (.format .writerFinished), state := w }
  else if w.compressed then
    { result := .ok ()
      state := { w with kept := w.kept ++ record.bytes }
      activity := [.captureRecordWritten] }
  else
    match w.file.writeAll record.fields with
    | (.error e, file) => { result := .error (.io e), state := { w with file } }
    | (.ok (), file) =>
      { result := .ok (), state := { w with file }, activity := [.captureRecordWritten] }

def appendAll (w : CaptureWriter) :
    List StoredRecord → Call CaptureWriter (Except ProtocolError Unit)
  | [] => { result := .ok (), state := w }
  | record :: more =>
    let first := w.append record
    match first.result with
    | .error _ => first
    | .ok () =>
      let others := first.state.appendAll more
      { others with activity := first.activity ++ others.activity }

/-! ## Calls -/

/-- Appends the frame of a packet, encoded under the dialect of the capture. -/
def writePacket (w : CaptureWriter) (timestamp : Timestamp) (direction : Direction) (m : Model) :
    Call CaptureWriter (Except ProtocolError Unit) :=
  let encoded := w.codec.encodeRaw m
  let w := { w with codec := encoded.state }
  match encoded.result with
  | .error e => w.answer (.error e) encoded.activity
  | .ok data =>
    let appended := w.append { timestamp, direction, data }
    appended.state.answer appended.result (encoded.activity ++ appended.activity)

/-- Appends every frame in `data`, each as a record. Up to four bytes behind the last frame, which
are no length, are ignored; more of them are an error. -/
def writeData (w : CaptureWriter) (timestamp : Timestamp) (direction : Direction) (data : Bytes) :
    Call CaptureWriter (Except ProtocolError Unit) :=
  let (frames, rest) := splitFrames data
  let appended := w.appendAll (frames.map fun data => { timestamp, direction, data })
  let result := match appended.result with
    | .ok () => if 4 < rest.length then .error .corruptedPacket else .ok ()
    | .error e => .error e
  appended.state.answer result appended.activity

def writeUnchecked (w : CaptureWriter) (timestamp : Timestamp) (direction : Direction)
    (data : Bytes) : Call CaptureWriter (Except ProtocolError Unit) :=
  let appended := w.append { timestamp, direction, data }
  appended.state.answer appended.result appended.activity

/-- Changes the dialect that the header tells, and under which later packets are encoded. -/
def changeDialect (w : CaptureWriter) (dialect : Dialect) :
    Call CaptureWriter (Except ProtocolError Unit) :=
  match idOf dialect with
  | .error e => w.answer (.error e)
  | .ok id =>
    if w.finished then w.answer (.error (.format .writerFinished))
    else
      match w.file.writeAt CaptureHeader.dialectOffset [id] with
      | (.error e, file) => { w with file }.answer (.error (.io e))
      | (.ok (), file) => { w with file, codec := w.codec.setDialect dialect }.answer (.ok ())

/-- Finishes the capture, with the given compression of records that are still to be compressed. -/
def finishBy (compress : Bytes → Bytes) (w : CaptureWriter) :
    Call CaptureWriter (Except ProtocolError Unit) :=
  if w.finished then w.answer (.error (.format .writerFinished))
  else
    -- A capture that cannot be finished counts as finished all the same.
    let w := { w with finished := true }
    if w.compressed then
      match w.file.write (compress w.kept) with
      | (.error e, file) => { w with file }.answer (.error (.io e))
      | (.ok (), file) => { w with file }.answer (.ok ())
    else w.answer (.ok ())

def finish (w : CaptureWriter) : Call CaptureWriter (Except ProtocolError Unit) :=
  w.finishBy Zstandard.encode

/-- The file that is left when the writer is given up. A capture that is not finished is finished
then. -/
def release (w : CaptureWriter) : ScriptedFile :=
  if w.finished then w.file else w.finish.state.file

end CaptureWriter

end GameWire
