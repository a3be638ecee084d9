import GameWire.Capture.Format
import GameWire.Codec

/-!
# Reading captures

A reader yields one result for each frame of a capture. A frame that does not decode is kept as
bytes, together with the reason. A record that is damaged ends the capture.
-/

namespace GameWire

inductive ReadStatus where
  /-- There is a record with a packet. -/
  | parsed
  /-- There is a record with bytes only. -/
  | rawOnly
  | endOfFile
  | formatError
  deriving DecidableEq, Repr

namespace ReadStatus

def name : ReadStatus → String
  | parsed => "Parsed"
  | rawOnly => "RawOnly"
  | endOfFile => "EndOfFile"
  | formatError => "FormatError"

def isFinal (s : ReadStatus) : Bool := s == endOfFile || s == formatError

end ReadStatus

structure CaptureReader where
  header : CaptureHeader
  /-- What is left of the records. -/
  source : ByteSource
  codec : Codec
  output : CaptureOutput := default
  /-- The frames of the record read last that are still to come. -/
  queued : List Bytes := []
  /-- When the record read last was made. -/
  timestamp : Timestamp := .ofSeconds 0
  /-- Which way the record read last was travelling. -/
  direction : Direction := default
  /-- What the last step yielded. -/
  record? : Option CaptureRecord := none
  failed : Bool := false
  /-- The message of the last step, if it failed. -/
  error : ErrorSlot := {}

namespace CaptureReader

def ofSource (source : ByteSource) (output : CaptureOutput) (settings : CodecSettings) :
    Except ProtocolError CaptureReader := do
  let (header, source) ← CaptureHeader.read source
  pure
    { header
      source := if header.compressed then source.decompress else source
      codec := (Codec.ofSettings settings).setDialect header.dialect
      output }

def setOutput (r : CaptureReader) (output : CaptureOutput) : CaptureReader :=
  { r with output }

/-- What the last step yielded, which is given away. -/
def takeRecord (r : CaptureReader) : Option CaptureRecord × CaptureReader :=
  (r.record?, { r with record? := none })

def emit (r : CaptureReader) (frame : Bytes) : Call CaptureReader ReadStatus :=
  let record : CaptureRecord :=
    { timestamp := r.timestamp, direction := r.direction, dialect := r.header.dialect }
  if r.output = .raw then
    { result := .rawOnly, state := { r with record? := some { record with data := some frame } } }
  else
    let decoded := r.codec.decodeRaw frame
    let r := { r with codec := decoded.state }
    match decoded.result with
    | .ok m =>
      let data := if r.output = .both then some frame else none
      { result := .parsed
        state := { r with record? := some { record with packet := some m, data } }
        activity := decoded.activity }
    | .error e =>
      let record := { record with data := some frame, parseError := some e.message }
      { result := .rawOnly
        state := { r with record? := some record }
        activity := decoded.activity }

/-- Yields the first of some frames and keeps the others. -/
def emitFirst (r : CaptureReader) : List Bytes → Call CaptureReader ReadStatus
  | [] => { result := .endOfFile, state := r }
  | frame :: queued => { r with queued }.emit frame

/-- The message of a step behind the one that failed. -/
def failedMessage : String := "Capture reader already failed"

def next (r : CaptureReader) : Call CaptureReader ReadStatus :=
  let r := { r with error := .empty, record? := none }
  if r.failed then
    { result := .formatError
      state := { r with error := .ofMessage failedMessage } }
  -- A record may hold several frames, which are yielded before the next record is read.
  else if r.queued ≠ [] then r.emitFirst r.queued
  else
    match StoredRecord.read? r.header.version r.source with
    | .error e =>
      { result := .formatError, state := { r with failed := true, error := .ofError e } }
    | .ok none => { result := .endOfFile, state := r }
    | .ok (some (record, source)) =>
      let r := { r with source, timestamp := record.timestamp, direction := record.direction }
      let emitted := r.emitFirst record.frames
      { emitted with activity := .captureRecordRead :: emitted.activity }

end CaptureReader

end GameWire
