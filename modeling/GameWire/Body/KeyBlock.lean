import GameWire.Error
import GameWire.Bytes

/-!
# The key exchange block

A key exchange request carries its data byte-reversed, filled up with zeros to `capacity` bytes, and
followed by its length, so that leading zeros of the data survive. A block without a usable length
stands for its bytes without the filling.
-/

namespace GameWire.KeyBlock

def capacity : Nat := 0x100

def trailerLength : Nat := 4

def blockLength : Nat := capacity + trailerLength

/-- The data of a block. A block may be shorter or longer than the ones that are written. -/
def decode (block : Bytes) : Bytes :=
  let bodyLength := block.length - trailerLength
  let body := block.take bodyLength
  match Bytes.u32At? bodyLength block with
  | some stored =>
    -- A length of zero cannot be told from a missing one.
    if 1 ≤ stored ∧ stored ≤ body.length then (body.take stored).reverse
    else body.reverse.dropWhile (· = 0)
  | none => body.reverse.dropWhile (· = 0)

def encode (data : Bytes) : Except ProtocolError Bytes :=
  if data.length ≤ capacity then
    .ok (data.reverse ++ Bytes.zeros (capacity - data.length) ++ Bytes.le trailerLength data.length)
  else .error (.encode (.keyBlockOverflow data.length capacity))

end GameWire.KeyBlock
