import GameWire.Capture.Record
import GameWire.Capture.Source
import GameWire.Frame

/-!
# The layout of capture files

A capture file is a header and records behind it:

    ["PPAC"] [version] [dialect, from version 3 on] [compressed, from version 4 on]
    [timestamp] [direction] [length, 8 bytes] [data]

All numbers are little-endian. A timestamp is 8 bytes of seconds in versions 0 and 1, and 16 bytes
of nanoseconds from version 2 on. Before version 3 the dialect is NGS. If the file is compressed,
its records are the content of a Zstandard stream.
-/

namespace GameWire

/-! ## Headers -/

structure CaptureHeader where
  version : UInt8
  dialect : Dialect
  compressed : Bool
  deriving DecidableEq, Repr, Inhabited

namespace CaptureHeader

def magic : Bytes := [0x50, 0x50, 0x41, 0x43]

/-- The version of the files that are written, and the latest one that can be read. -/
def currentVersion : UInt8 := 4

def dialectOffset : Nat := 5

/-- The parts of the header of a new file under a dialect with the given identifier. -/
def fields (dialectId : UInt8) (compressed : Bool) : List Bytes :=
  [magic, [currentVersion, dialectId, compressed.toUInt8]]

/-- A file that ends within its header is no capture, however much of it there is. -/
def truncated (_needed _found : Nat) : ProtocolError :=
  .format .badMagic

def readByte (s : ByteSource) : Except ProtocolError (UInt8 × ByteSource) :=
  (s.readExactly truncated 1).map fun (bytes, s) => (bytes.headD 0, s)

def readDialect (version : UInt8) (s : ByteSource) : Except ProtocolError (Dialect × ByteSource) :=
  if version < 3 then .ok (.ngs, s)
  else do
    let (id, s) ← readByte s
    match Dialect.ofCaptureId? id with
    | some dialect => pure (dialect, s)
    | none => throw (.invalidDialect id)

def readCompressed (version : UInt8) (s : ByteSource) : Except ProtocolError (Bool × ByteSource) :=
  if version < 4 then .ok (false, s)
  else (readByte s).map fun (b, s) => (b != 0, s)

def read (s : ByteSource) : Except ProtocolError (CaptureHeader × ByteSource) := do
  let (front, s) ← s.readExactly truncated magic.length
  if front ≠ magic then throw (.format .badMagic)
  let (version, s) ← readByte s
  if currentVersion < version then throw (.unsupportedVersion version)
  let (dialect, s) ← readDialect version s
  let (compressed, s) ← readCompressed version s
  pure ({ version, dialect, compressed }, s)

theorem readByte_cons (b : UInt8) (rest : Bytes) (failure? : Option IoError) :
    readByte { bytes := b :: rest, failure? } = .ok (b, { bytes := rest, failure? }) := by
  have h := ByteSource.readExactly_append truncated [b] rest failure?
  simp only [List.length_singleton, List.singleton_append] at h
  simp [readByte, h, Except.map]

/-- A header that was written reads back. -/
theorem read_fields {dialect : Dialect} {id : UInt8} (h : dialect.captureId? = some id)
    (compressed : Bool) (rest : Bytes) (failure? : Option IoError) :
    read { bytes := (fields id compressed).flatten ++ rest, failure? } =
      .ok ({ version := currentVersion, dialect, compressed }, { bytes := rest, failure? }) := by
  have hm := ByteSource.readExactly_append truncated magic
    (currentVersion :: id :: compressed.toUInt8 :: rest) failure?
  have hb : (compressed.toUInt8 != 0) = compressed := by cases compressed <;> rfl
  simp only [fields, List.flatten_cons, List.flatten_nil, List.append_nil, List.append_assoc,
    List.cons_append, List.nil_append]
  simp only [read, hm, bind, Except.bind]
  simp [readByte_cons, readDialect, readCompressed, currentVersion, hb,
    Dialect.ofCaptureId?_eq_some_iff.2 h, Except.map, bind, Except.bind, pure, Except.pure]

end CaptureHeader

/-! ## Records -/

structure StoredRecord where
  timestamp : Timestamp
  direction : Direction
  data : Bytes
  deriving DecidableEq, Repr

namespace StoredRecord

/-- The parts of a record in the order in which they are written. -/
def fields (r : StoredRecord) : List Bytes :=
  [Bytes.le 16 r.timestamp.toNanos, [r.direction.toByte], Bytes.le 8 r.data.length, r.data]

def bytes (r : StoredRecord) : Bytes :=
  r.fields.flatten

/-- The failure of a reader that found too little of a record. -/
def truncated (needed found : Nat) : ProtocolError :=
  .format (.truncatedRecord needed found)

def timestampLength (version : UInt8) : Nat :=
  if version < 2 then 8 else 16

def timestampOf (version : UInt8) (bytes : Bytes) : Timestamp :=
  if version < 2 then .ofSeconds (UInt64.ofNat (Bytes.ofLE bytes)) else .ofNanos (Bytes.ofLE bytes)

/-- Reads the timestamp of a record. There is none if the source ends in front of it. -/
def readTimestamp? (version : UInt8) (s : ByteSource) :
    Except ProtocolError (Option (Timestamp × ByteSource)) :=
  let length := timestampLength version
  match s.read length with
  | .error e => .error (.io e)
  | .ok (bytes, s) =>
    -- Only an end in front of the first byte is the end of the capture.
    if bytes.isEmpty then .ok none
    else if bytes.length = length then .ok (some (timestampOf version bytes, s))
    else .error (truncated length bytes.length)

/-- Reads what follows the timestamp of a record. -/
def readBody (timestamp : Timestamp) (s : ByteSource) :
    Except ProtocolError (StoredRecord × ByteSource) := do
  let (direction, s) ← s.readExactly truncated 1
  let (length, s) ← s.readExactly truncated 8
  let (data, s) ← s.readExactly truncated (Bytes.ofLE length)
  pure ({ timestamp, direction := .ofByte (direction.headD 0), data }, s)

def read? (version : UInt8) (s : ByteSource) :
    Except ProtocolError (Option (StoredRecord × ByteSource)) := do
  match ← readTimestamp? version s with
  | none => pure none
  | some (timestamp, s) => some <$> readBody timestamp s

/-- The frames in the data of a record. Bytes behind the last frame stand for one more, and so does
data that is empty. -/
def frames (r : StoredRecord) : List Bytes :=
  let (whole, rest) := splitFrames r.data
  if rest.isEmpty ∧ whole ≠ [] then whole else whole ++ [rest]

/-- The timestamp of a record fits into its field. -/
theorem toNanos_lt (t : Timestamp) : t.toNanos < 256 ^ 16 := by
  have hs := t.seconds.toNat_lt
  have hn := t.nanos_lt
  simp only [Timestamp.toNanos, nanosPerSecond] at *
  omega

end StoredRecord

end GameWire
