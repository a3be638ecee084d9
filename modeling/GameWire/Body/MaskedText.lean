import GameWire.Body.Reader
import GameWire.Text.Utf16

/-!
# Text with a masked length

A text field is a 32-bit count of UTF-16 units, hidden behind a mask, and the units themselves in
little-endian order. The count includes a closing NUL unit, and an odd count is followed by one
more unit of padding. The empty text is a count of zero and nothing else.
-/

namespace GameWire

/-- Two numbers that hide a length field. -/
structure LengthMask where
  sub : UInt32
  xor : UInt32
  deriving DecidableEq, Repr

namespace LengthMask

def chat : LengthMask := ⟨0x44, 0x9D3F⟩

def system : LengthMask := ⟨0xA2, 0x78F7⟩

/-- The number behind a hidden one. -/
def reveal (m : LengthMask) (n : UInt32) : UInt32 := (n ^^^ m.xor) - m.sub

/-- A number as it goes on the wire. -/
def hide (m : LengthMask) (n : UInt32) : UInt32 := (n + m.sub) ^^^ m.xor

theorem reveal_hide (m : LengthMask) (n : UInt32) : m.reveal (m.hide n) = n := by
  unfold reveal hide
  rw [UInt32.xor_assoc, UInt32.xor_self, UInt32.xor_zero, UInt32.add_sub_cancel]

end LengthMask

namespace MaskedText

/-- The units of a byte string, two bytes each; a last odd byte is dropped. -/
def unitsOfBytes : Bytes → List UInt16
  | a :: b :: bs => UInt16.ofNat (Bytes.ofLE [a, b]) :: unitsOfBytes bs
  | _ => []

def bytesOfUnits (us : List UInt16) : Bytes :=
  us.flatMap fun u => Bytes.le 2 u.toNat

/-- Reads a text field. The text ends at its first NUL unit. -/
def read (mask : LengthMask) : Reading String := do
  let count := (mask.reveal (← BodyReader.u32)).toNat
  if count = 0 then
    pure ""
  else
    -- An odd count leaves half a word, which is filled up.
    let raw ← BodyReader.bytes (2 * count)
    BodyReader.skip (2 * (count % 2))
    match Utf16.decode? ((unitsOfBytes raw).takeWhile (· ≠ 0)) with
    | some s => pure s
    | none => throw (.decode .loneSurrogate)

/-- Writes a text field. A NUL inside the text would end it early, so it is refused. -/
def write (mask : LengthMask) (s : String) : Except ProtocolError Bytes :=
  let units := Utf16.encode s
  if units.isEmpty then .ok (Bytes.le 4 (mask.hide 0).toNat)
  else if units.contains 0 then .error (.encode .nulInText)
  else
    let count := units.length + 1
    if count < 2 ^ 32 then
      .ok (Bytes.le 4 (mask.hide (UInt32.ofNat count)).toNat ++ bytesOfUnits units ++
        Bytes.zeros (2 + 2 * (count % 2)))
    else .error (.encode .textTooLong)

end MaskedText

end GameWire
