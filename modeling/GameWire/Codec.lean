import GameWire.Activity
import GameWire.Body
import GameWire.Frame
import GameWire.Packet.Tag
import GameWire.Serial

/-!
# The codec

A codec converts between frames, models and serialized packets under one dialect and one serialized
format. `decodeFrame`, `encodeFrame`, `deserialize` and `serialize` say what it converts; the calls
below them also keep its error slot and report failures.
-/

namespace GameWire

/-- What a codec starts with and what it puts up with. -/
structure CodecSettings where
  dialect : Dialect := default
  format : SerialFormat := default
  /-- The formats that may be selected later. -/
  enabledFormats : List SerialFormat := SerialFormat.all
  /-- Whether frames with an unknown tag are kept as they are instead of refused. -/
  allowUnknownPackets : Bool := false
  /-- Whether JSON output ends in a NUL byte. -/
  jsonNulTerminator : Bool := false
  /-- The longest frame that is accepted or produced, in bytes. -/
  maxFrameSize : Nat := 16 * 1024 * 1024
  deriving DecidableEq, Repr, Inhabited

structure Codec where
  dialect : Dialect := default
  format : SerialFormat := default
  settings : CodecSettings := {}
  /-- The message of the last call, if it failed. -/
  error : ErrorSlot := {}
  deriving DecidableEq, Repr, Inhabited

namespace Codec

def ofSettings (settings : CodecSettings) : Codec :=
  { dialect := settings.dialect, format := settings.format, settings }

def ofDialect (dialect : Dialect) : Codec :=
  { ofSettings {} with dialect }

/-! ## Conversions -/

def decodeFrame (c : Codec) (frame : Bytes) : Except ProtocolError Model :=
  if c.dialect.isRaw then .ok { dialect := c.dialect, packet := .raw frame }
  else if frame.isEmpty then .ok { dialect := c.dialect, packet := .empty }
  else do
    let (declared, header) ← FrameHeader.parse frame
    if declared ≠ frame.length then throw (.lengthMismatch declared frame.length)
    -- The limit also bounds frames that did not come through a stream.
    if declared > c.settings.maxFrameSize then
      throw (.decode (.frameOverLimit declared c.settings.maxFrameSize))
    let body := frame.drop headerLength
    match c.dialect.lookup? header.category header.subtype with
    | some kind => do
      let packet ← Packet.decodeBody kind body
      pure { dialect := c.dialect, packet }
    | none =>
      if c.settings.allowUnknownPackets then
        pure { dialect := c.dialect, packet := .unknown { header, data := body } }
      else throw (.unknownPacket header.category header.subtype c.dialect)

def framePacket (m : Model) (dialect : Dialect) : Except ProtocolError Bytes :=
  match m.packet with
  | .unknown frame => frame.header.frame frame.data
  | packet =>
    match m.tag? with
    | none => .error (.invalidForDialect packet.name dialect)
    | some (category, subtype) => do
      let body ← packet.encodeBody
      FrameHeader.frame { category, subtype } body

def encodeFrame (c : Codec) (m : Model) : Except ProtocolError Bytes := do
  m.ensureDialect c.dialect
  match m.packet, c.dialect.isRaw with
  | .empty, _ => pure []
  | .raw data, true => pure data
  | .raw _, false => throw (.invalidForDialect m.packet.name c.dialect)
  | _, true => throw (.encode .untaggedInRaw)
  | _, false =>
    let frame ← framePacket m c.dialect
    if frame.length > c.settings.maxFrameSize then
      throw (.encode (.frameOverLimit frame.length c.settings.maxFrameSize))
    pure frame

/-- A serialized text without the NUL byte that may end it. -/
def dropTerminator (format : SerialFormat) (bs : Bytes) : Bytes :=
  if format = .json ∧ bs.getLast? = some 0 then bs.dropLast else bs

/-- The model of a serialized packet. It must be one that the dialect can carry. -/
def deserialize (c : Codec) (bs : Bytes) : Except ProtocolError Model := do
  let packet ← Packet.deserialize c.format (dropTerminator c.format bs)
  if packet.isValidFor c.dialect then pure { dialect := c.dialect, packet }
  else throw (.decode (.foreignPacket packet.name c.dialect))

def serialize (c : Codec) (m : Model) : Except ProtocolError Bytes := do
  m.ensureDialect c.dialect
  let out := m.packet.serialize c.format
  pure (if c.format = .json ∧ c.settings.jsonNulTerminator then out ++ [0] else out)

/-! ## Calls -/

/-- The outcome of a call that leaves its result in the error slot. -/
def answer {α : Type} (c : Codec) (result : Except ProtocolError α) :
    Call Codec (Except ProtocolError α) :=
  { result, state := { c with error := .ofResult result } }

/-- `activity` if a result is a failure. -/
def onFailure {α : Type} (result : Except ProtocolError α) (activity : Activity) : List Activity :=
  match result with
  | .ok _ => []
  | .error _ => [activity]

def decodeRaw (c : Codec) (frame : Bytes) : Call Codec (Except ProtocolError Model) :=
  let result := c.decodeFrame frame
  { c.answer result with activity := onFailure result .decodeFailed }

def encodeRaw (c : Codec) (m : Model) : Call Codec (Except ProtocolError Bytes) :=
  let result := c.encodeFrame m
  { c.answer result with activity := onFailure result .encodeFailed }

def decodeSerialized (c : Codec) (bs : Bytes) : Call Codec (Except ProtocolError Model) :=
  c.answer (c.deserialize bs)

def encodeSerialized (c : Codec) (m : Model) : Call Codec (Except ProtocolError Bytes) :=
  c.answer (c.serialize m)

def rawToSerialized (c : Codec) (frame : Bytes) : Call Codec (Except ProtocolError Bytes) :=
  c.answer (c.decodeFrame frame >>= c.serialize)

def serializedToRaw (c : Codec) (bs : Bytes) : Call Codec (Except ProtocolError Bytes) :=
  c.answer (c.deserialize bs >>= c.encodeFrame)

def setDialect (c : Codec) (dialect : Dialect) : Codec :=
  { c with dialect, error := .empty }

def supportsFormat (c : Codec) (format : SerialFormat) : Bool :=
  c.settings.enabledFormats.contains format

def setFormat (c : Codec) (format : SerialFormat) : Call Codec (Except ProtocolError Unit) :=
  if c.supportsFormat format then { c with format }.answer (.ok ())
  else c.answer (.error (.config (.formatNotEnabled format.name)))

end Codec

end GameWire
