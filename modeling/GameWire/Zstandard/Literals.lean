import GameWire.Zstandard.PrefixCode

/-!
# Literals

The first section of a compressed block: bytes that are copied into the content. They are written as
they are, or as one byte that is repeated, or in a prefix code, which may be that of an earlier
block.
-/

namespace GameWire.Zstandard

inductive LiteralsMode where
  | plain
  | repeated
  | coded
  /-- In the code used last. -/
  | codedAgain
  deriving DecidableEq, Repr

namespace Literals

/-- How literals are written, by the two lowest bits of the section. -/
def modeOf (bits : Nat) : LiteralsMode :=
  match bits with
  | 0 => .plain
  | 1 => .repeated
  | 2 => .coded
  | _ => .codedAgain

/-- The literals that one or four streams stand for. -/
def decode? (code : PrefixCode) (single : Bool) (count : Nat) (streams : Bytes) : Option Bytes :=
  if single then code.decode? count streams else code.decodeFour? count streams

/-- Reads the literals of a block, of which there are at most `limit`. Tells the code that was used
last and what follows them. -/
def read? (code? : Option PrefixCode) (limit : Nat) (bs : Bytes) :
    Option (Bytes × Option PrefixCode × Bytes) := do
  let head ← bs.head?
  let format := head.toNat / 4 % 4
  match modeOf (head.toNat % 4) with
  | .plain => do
    let (count, rest) ← plainCount? format bs
    let (literals, rest) ← Bytes.cut? count rest
    if count ≤ limit then pure (literals, code?, rest) else none
  | .repeated => do
    let (count, rest) ← plainCount? format bs
    let (b, rest) ← Bytes.cut? 1 rest
    if count ≤ limit then pure (List.replicate count (b.headD 0), code?, rest) else none
  | .coded => do
    let (count, streams, rest) ← codedCount? format bs
    let (code, streams) ← PrefixCode.read? streams
    if count ≤ limit then pure (← decode? code (format = 0) count streams, some code, rest)
    else none
  | .codedAgain => do
    let (count, streams, rest) ← codedCount? format bs
    if count ≤ limit then pure (← decode? (← code?) (format = 0) count streams, code?, rest)
    else none
where
  /-- The number of literals that are not coded, and what follows it. -/
  plainCount? (format : Nat) (bs : Bytes) : Option (Nat × Bytes) := do
    let (width, shift) := match format with
      | 1 => (2, 4)
      | 3 => (3, 4)
      | _ => (1, 3)
    let (head, rest) ← Bytes.cut? width bs
    pure (Bytes.ofLE head / 2 ^ shift, rest)
  /-- The number of literals that are coded, what they are coded in, and what follows. -/
  codedCount? (format : Nat) (bs : Bytes) : Option (Nat × Bytes × Bytes) := do
    let (width, size) := match format with
      | 2 => (4, 14)
      | 3 => (5, 18)
      | _ => (3, 10)
    let (head, rest) ← Bytes.cut? width bs
    let sizes := Bytes.ofLE head / 16
    let (streams, rest) ← Bytes.cut? (sizes / 2 ^ size) rest
    pure (sizes % 2 ^ size, streams, rest)

end Literals

end GameWire.Zstandard
