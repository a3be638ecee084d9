import GameWire.Zstandard.StateTable

/-!
# Prefix codes

The literals of a block may be written in a prefix code. The code is given by a weight for each
byte: one of weight zero does not occur, and each further unit of weight takes one bit off the code.
-/

namespace GameWire.Zstandard

structure PrefixCode where
  depth : Nat
  /-- The symbol whose code word begins a number of `depth` bits, with the length of the word. -/
  cells : Array (UInt8 × Nat)

namespace PrefixCode

/-! ## Weights -/

/-- The largest weight, and the length of the longest code word. -/
def maxDepth : Nat := 12

/-- How much of the code a weight takes up. -/
def share (weight : Nat) : Nat :=
  if weight = 0 then 0 else 2 ^ (weight - 1)

/-- The code with the given weights, behind which there is one more symbol, which takes up what is
left of the code. -/
def ofWeights? (weights : List Nat) : Option PrefixCode :=
  -- The shares of all symbols make up a power of two, so those given leave less than half of it.
  let taken := weights.foldl (fun taken weight => taken + share weight) 0
  let depth := taken.log2 + 1
  let left := 2 ^ depth - taken
  let weights := weights ++ [left.log2 + 1]
  if weights.all (· ≤ maxDepth) ∧ taken ≠ 0 ∧ depth ≤ maxDepth ∧ left = 2 ^ left.log2 ∧
      2 ≤ weights.count 1 ∧ weights.count 1 % 2 = 0 then
    -- Long words come first, and words of one length in the order of their symbols.
    let symbols := weights.zipIdx
    let cells := ((List.range (depth + 1)).drop 1).flatMap fun weight =>
      (symbols.filter (·.1 = weight)).flatMap fun (_, symbol) =>
        List.replicate (share weight) (UInt8.ofNat symbol, depth + 1 - weight)
    some { depth, cells := cells.toArray }
  else none

/-- Weights in four bits each. -/
def plainWeights (count : Nat) (bs : Bytes) : List Nat :=
  (bs.flatMap fun b => [b.toNat / 16, b.toNat % 16]).take count

/-- Weights that two states take turns in telling. When a state has no bits left to step on, the
other one tells the last weight. -/
def codedWeights? (t : StateTable) : (room state other : Nat) → Bits → Option (List Nat)
  | 0, _, _, _ => none
  | room + 1, state, other, bits =>
    let weight := (t.cellAt state).symbol
    match t.next? state bits with
    | none => some [weight, (t.cellAt other).symbol]
    | some (state, bits) => (codedWeights? t room other state bits).map (weight :: ·)

/-- The largest number of weights, of which the last one is not written. -/
def maxWeights : Nat := 255

def read? (bs : Bytes) : Option (PrefixCode × Bytes) :=
  match bs with
  | [] => none
  | head :: rest => do
    -- From 128 on the head tells the number of plain weights, below it the length of coded ones.
    let count := head.toNat - 127
    let size := if 128 ≤ head.toNat then (count + 1) / 2 else head.toNat
    let (written, rest) ← Bytes.cut? size rest
    if 128 ≤ head.toNat then pure (← ofWeights? (plainWeights count written), rest)
    else
      let (table, coded) ← StateTable.read? 6 (maxWeights + 1) written
      let bits ← Bits.ofBytes? coded
      let (state, bits) ← table.start? bits
      let (other, bits) ← table.start? bits
      pure (← ofWeights? (← codedWeights? table (maxWeights - 1) state other bits), rest)

/-! ## Decoding -/

def symbol? (c : PrefixCode) (bits : Bits) : Option (UInt8 × Bits) := do
  -- Near the end there may be fewer bits than the longest word has; the word itself must be there.
  let (symbol, length) ← c.cells[bits.peek c.depth]?
  if length ≤ (bits.take length).length then pure (symbol, bits.drop length) else none

/-- The next `count` symbols, behind which there is nothing, in front of `out` in reverse. -/
def symbols? (c : PrefixCode) : (count : Nat) → (out : Bytes) → Bits → Option Bytes
  | 0, out, bits => if bits.isEmpty then some out else none
  | count + 1, out, bits => do
    let (symbol, bits) ← c.symbol? bits
    symbols? c count (symbol :: out) bits

/-- The `count` bytes that a stream of code words stands for. -/
def decode? (c : PrefixCode) (count : Nat) (stream : Bytes) : Option Bytes := do
  let out ← c.symbols? count [] (← Bits.ofBytes? stream)
  pure out.reverse

/-- The `count` bytes that four streams stand for, each for as many, and the last for the rest. The
lengths of the first three stand in front. -/
def decodeFour? (c : PrefixCode) (count : Nat) (bs : Bytes) : Option Bytes := do
  let (lengths, bs) ← Bytes.cut? 6 bs
  let length (i : Nat) := Bytes.ofLE ((lengths.drop (2 * i)).take 2)
  let (first, bs) ← Bytes.cut? (length 0) bs
  let (second, bs) ← Bytes.cut? (length 1) bs
  let (third, fourth) ← Bytes.cut? (length 2) bs
  let part := (count + 3) / 4
  if 6 ≤ count ∧ 3 * part ≤ count then
    let streams := [(first, part), (second, part), (third, part), (fourth, count - 3 * part)]
    let decoded ← streams.mapM fun (stream, part) => c.decode? part stream
    pure decoded.flatten
  else none

end PrefixCode

end GameWire.Zstandard
