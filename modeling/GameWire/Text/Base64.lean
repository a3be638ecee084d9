import GameWire.Bytes

/-!
# Base64

Three bytes are four digits of six bits each. A last group of one or two bytes is filled up with
equals signs, and the bits it has no use for are zero.
-/

namespace GameWire.Base64

def digit? (b : UInt8) : Option Nat :=
  let n := b.toNat
  if 0x41 ≤ n ∧ n ≤ 0x5A then some (n - 0x41)
  else if 0x61 ≤ n ∧ n ≤ 0x7A then some (n - 0x61 + 26)
  else if 0x30 ≤ n ∧ n ≤ 0x39 then some (n - 0x30 + 52)
  else if n = 0x2B then some 62
  else if n = 0x2F then some 63
  else none

/-- The bytes of a last group of four characters. -/
def lastGroup? (a b c d : UInt8) : Option Bytes := do
  let x ← digit? a
  let y ← digit? b
  if c = 0x3D then
    if d = 0x3D ∧ y % 16 = 0 then some [UInt8.ofNat (x * 4 + y / 16)] else none
  else
    let z ← digit? c
    if d = 0x3D then
      if z % 4 = 0 then some (Bytes.be 2 ((x * 64 + y) * 16 + z / 4)) else none
    else
      let w ← digit? d
      some (Bytes.be 3 (((x * 64 + y) * 64 + z) * 64 + w))

def decode? : Bytes → Option Bytes
  | [] => some []
  | [a, b, c, d] => lastGroup? a b c d
  | a :: b :: c :: d :: more => do
    let front ← (do
      let x ← digit? a
      let y ← digit? b
      let z ← digit? c
      let w ← digit? d
      some (Bytes.be 3 (((x * 64 + y) * 64 + z) * 64 + w)))
    let back ← decode? more
    some (front ++ back)
  | _ => none

end GameWire.Base64
