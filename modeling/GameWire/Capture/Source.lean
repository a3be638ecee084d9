import GameWire.Error
import GameWire.Zstandard.Stream

/-!
# Sources of bytes

A capture is read from a source, which yields bytes and then ends or fails. How the bytes are handed
over cannot be seen by a reader, and a failure that only asks to try again is not one.
-/

namespace GameWire

/-- Bytes that can be read one after the other. -/
structure ByteSource where
  bytes : Bytes
  /-- What a read behind the last byte fails with; without one it finds the end. -/
  failure? : Option IoError := none
  deriving DecidableEq, Repr

/-- The failure of a read from a compressed stream that contradicts its format. -/
def IoError.corruptStream : IoError := ⟨.permanent, "the compressed stream is damaged"⟩

/-- The failure of a read from a compressed stream that ends within a frame. -/
def IoError.cutStream : IoError := ⟨.permanent, "the compressed stream is not complete"⟩

namespace ByteSource

/-- Reads `count` bytes, or fewer if the source ends before. -/
def read (count : Nat) (s : ByteSource) : Except IoError (Bytes × ByteSource) :=
  match s.failure? with
  | some e =>
    if s.bytes.length < count then .error e
    else .ok (s.bytes.take count, { s with bytes := s.bytes.drop count })
  | none => .ok (s.bytes.take count, { s with bytes := s.bytes.drop count })

/-- Reads exactly `count` bytes. If the source has fewer of them, `short` is the failure. -/
def readExactly (short : (needed found : Nat) → ProtocolError) (count : Nat) (s : ByteSource) :
    Except ProtocolError (Bytes × ByteSource) :=
  match s.read count with
  | .error e => .error (.io e)
  | .ok (bytes, s) =>
    if bytes.length = count then .ok (bytes, s) else .error (short count bytes.length)

def decompress (s : ByteSource) : ByteSource :=
  let decoded := Zstandard.decode s.bytes
  { bytes := decoded.content
    failure? := match decoded.fault? with
      | none => s.failure?
      | some .incomplete => some (s.failure?.getD .cutStream)
      | some .corrupt => some .corruptStream }

/-- A read that finds enough bytes takes them off the front. -/
theorem read_append (front rest : Bytes) (failure? : Option IoError) :
    read front.length { bytes := front ++ rest, failure? } =
      .ok (front, { bytes := rest, failure? }) := by
  cases failure? <;> simp [read]

theorem readExactly_append (short : (needed found : Nat) → ProtocolError) (front rest : Bytes)
    (failure? : Option IoError) :
    readExactly short front.length { bytes := front ++ rest, failure? } =
      .ok (front, { bytes := rest, failure? }) := by
  simp [readExactly, read_append]

end ByteSource

end GameWire
