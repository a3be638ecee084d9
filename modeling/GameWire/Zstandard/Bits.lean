import GameWire.Bytes

/-!
# Bits in Zstandard frames

Tables are written from the lowest bit of a byte to its highest. Coded symbols are written the other
way round: they are read from the last byte back to the first, behind a mark that says where they
begin.
-/

namespace GameWire.Zstandard

/-! ## Reading forwards -/

/-- A place between two bits. -/
structure BitCursor where
  bytes : Bytes
  /-- How many bits of the first byte are behind the place. -/
  skip : Nat := 0

namespace BitCursor

def bit? (c : BitCursor) : Option (Nat × BitCursor) :=
  match c.bytes with
  | [] => none
  | b :: rest =>
    let value := (b.toNat / 2 ^ c.skip) % 2
    if c.skip < 7 then some (value, { c with skip := c.skip + 1 }) else some (value, ⟨rest, 0⟩)

/-- The number in the next `count` bits, lowest first. -/
def bits? : (count : Nat) → BitCursor → Option (Nat × BitCursor)
  | 0, c => some (0, c)
  | count + 1, c => do
    let (low, c) ← c.bit?
    let (high, c) ← bits? count c
    pure (low + 2 * high, c)

/-- The bytes from the next whole byte on. -/
def align (c : BitCursor) : Bytes :=
  if c.skip = 0 then c.bytes else c.bytes.tail

end BitCursor

/-! ## Reading backwards -/

/-- Bits in the order in which they are read. -/
abbrev Bits := List Bool

namespace Bits

/-- The bits of a byte, highest first. -/
def ofByte (b : UInt8) : Bits :=
  [7, 6, 5, 4, 3, 2, 1, 0].map b.toNat.testBit

/-- The bits that are written before the last byte's highest one, which is their mark. -/
def ofBytes? (bs : Bytes) : Option Bits :=
  match bs.reverse with
  | [] => none
  | last :: earlier =>
    if last = 0 then none
    else some (((ofByte last).dropWhile (! ·)).tail ++ earlier.flatMap ofByte)

/-- The number with the given bits, highest first. -/
def toNat (bits : Bits) : Nat :=
  bits.foldl (fun n b => 2 * n + b.toNat) 0

def take? (count : Nat) (bits : Bits) : Option (Nat × Bits) :=
  let front := bits.take count
  if front.length = count then some (toNat front, bits.drop count) else none

/-- The number in the next `count` bits, with zeros behind the last one. -/
def peek (count : Nat) (bits : Bits) : Nat :=
  let front := bits.take count
  toNat front * 2 ^ (count - front.length)

end Bits

end GameWire.Zstandard
