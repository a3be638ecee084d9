import GameWire.Zstandard.StateTable

/-!
# Sequences

The second section of a compressed block: how its content is put together. A sequence copies some
literals and then a match, which is a stretch of the content that came before.
-/

namespace GameWire.Zstandard

structure Sequence where
  literals : Nat
  length : Nat
  /-- How far back the match begins, or which earlier distance is used again. -/
  offset : Nat
  deriving DecidableEq, Repr

/-! ## Codes -/

/-- A number as it is coded: a symbol stands for a base to which a number of bits is added. -/
structure NumberCode where
  /-- The base and the number of added bits of each symbol. -/
  ranges : List (Nat × Nat)
  maxLog : Nat
  /-- The table that is used when none is given. -/
  usual : StateTable

namespace NumberCode

/-- The ranges with the given numbers of added bits, each of which begins where the one before
ends. -/
def rangesFrom (base : Nat) : List Nat → List (Nat × Nat)
  | [] => []
  | bits :: more => (base, bits) :: rangesFrom (base + 2 ^ bits) more

/-- Frequencies in which a negative number marks a rare symbol. -/
def frequencies (counts : List Int) : List StateTable.Frequency :=
  counts.map fun n => if n < 0 then .rare else .count n.toNat

def literals : NumberCode where
  ranges := rangesFrom 0 (List.replicate 16 0 ++
    [1, 1, 1, 1, 2, 2, 3, 3, 4, 6, 7, 8, 9, 10, 11, 12, 13, 14, 15, 16])
  maxLog := 9
  usual := .ofFrequencies 6 (frequencies
    [4, 3, 2, 2, 2, 2, 2, 2, 2, 2, 2, 2, 2, 1, 1, 1, 2, 2, 2, 2, 2, 2, 2, 2, 2, 3, 2, 1, 1, 1, 1, 1,
      -1, -1, -1, -1])

def lengths : NumberCode where
  ranges := rangesFrom 3 (List.replicate 32 0 ++
    [1, 1, 1, 1, 2, 2, 3, 3, 4, 4, 5, 7, 8, 9, 10, 11, 12, 13, 14, 15, 16])
  maxLog := 9
  usual := .ofFrequencies 6 (frequencies
    [1, 4, 3, 2, 2, 2, 2, 2, 2, 1, 1, 1, 1, 1, 1, 1, 1, 1, 1, 1, 1, 1, 1, 1, 1, 1, 1, 1, 1, 1, 1, 1,
      1, 1, 1, 1, 1, 1, 1, 1, 1, 1, 1, 1, 1, 1, -1, -1, -1, -1, -1, -1, -1])

def offsets : NumberCode where
  ranges := rangesFrom 1 (List.range 32)
  maxLog := 8
  usual := .ofFrequencies 5 (frequencies
    [1, 1, 1, 1, 1, 1, 2, 2, 2, 1, 1, 1, 1, 1, 1, 1, 1, 1, 1, 1, 1, 1, 1, 1, -1, -1, -1, -1, -1])

/-- The table that a section uses, and what follows it. The mode says whether it is the usual one,
one for a single symbol, one that is written out, or the one used last. -/
def table? (code : NumberCode) (mode : Nat) (last? : Option StateTable) (bs : Bytes) :
    Option (StateTable × Bytes) :=
  match mode with
  | 0 => some (code.usual, bs)
  | 1 => do
    let (symbol, rest) ← Bytes.cut? 1 bs
    let symbol := (symbol.headD 0).toNat
    if symbol < code.ranges.length then pure (.single symbol, rest) else none
  | 2 => StateTable.read? code.maxLog code.ranges.length bs
  | _ => last?.map fun table => (table, bs)

/-- The number that a state stands for, with the bits that are added. -/
def number? (code : NumberCode) (table : StateTable) (state : Nat) (bits : Bits) :
    Option (Nat × Bits) := do
  let (base, width) ← code.ranges[(table.cellAt state).symbol]?
  let (more, bits) ← bits.take? width
  pure (base + more, bits)

end NumberCode

/-! ## Reading a section -/

structure SequenceTables where
  literals : StateTable
  offsets : StateTable
  lengths : StateTable

namespace Sequences

def count? (bs : Bytes) : Option (Nat × Bytes) :=
  match bs with
  | [] => none
  | head :: rest =>
    if head.toNat < 128 then some (head.toNat, rest)
    else if head.toNat < 255 then do
      let (low, rest) ← Bytes.cut? 1 rest
      pure ((head.toNat - 128) * 256 + Bytes.ofLE low, rest)
    else do
      let (value, rest) ← Bytes.cut? 2 rest
      pure (Bytes.ofLE value + 0x7F00, rest)

def tables? (last? : Option SequenceTables) (bs : Bytes) : Option (SequenceTables × Bytes) :=
  match bs with
  | [] => none
  | modes :: rest => do
    let modes := modes.toNat
    -- The two lowest bits are reserved.
    if modes % 4 ≠ 0 then none
    else
      let (literals, rest) ←
        NumberCode.literals.table? (modes / 64) (last?.map (·.literals)) rest
      let (offsets, rest) ←
        NumberCode.offsets.table? (modes / 16 % 4) (last?.map (·.offsets)) rest
      let (lengths, rest) ←
        NumberCode.lengths.table? (modes / 4 % 4) (last?.map (·.lengths)) rest
      pure ({ literals, offsets, lengths }, rest)

structure States where
  literals : Nat
  offsets : Nat
  lengths : Nat

/-- The next `count` sequences, behind which there is nothing. No states follow the last one. -/
def read? (t : SequenceTables) : (count : Nat) → States → Bits → Option (List Sequence)
  | 0, _, bits => if bits.isEmpty then some [] else none
  | count + 1, s, bits => do
    let (offset, bits) ← NumberCode.offsets.number? t.offsets s.offsets bits
    let (length, bits) ← NumberCode.lengths.number? t.lengths s.lengths bits
    let (literals, bits) ← NumberCode.literals.number? t.literals s.literals bits
    let sequence : Sequence := { literals, length, offset }
    -- The last sequence leads to no further states.
    if count = 0 then
      if bits.isEmpty then pure [sequence] else none
    else
      let (nextLiterals, bits) ← t.literals.next? s.literals bits
      let (nextLengths, bits) ← t.lengths.next? s.lengths bits
      let (nextOffsets, bits) ← t.offsets.next? s.offsets bits
      let more ← read? t count
        { literals := nextLiterals, offsets := nextOffsets, lengths := nextLengths } bits
      pure (sequence :: more)

/-- The sequences of a section and the tables used last. -/
def section? (last? : Option SequenceTables) (bs : Bytes) :
    Option (List Sequence × Option SequenceTables) := do
  let (count, rest) ← count? bs
  if count = 0 then if rest.isEmpty then pure ([], last?) else none
  else
    let (tables, coded) ← tables? last? rest
    let bits ← Bits.ofBytes? coded
    let (literals, bits) ← tables.literals.start? bits
    let (offsets, bits) ← tables.offsets.start? bits
    let (lengths, bits) ← tables.lengths.start? bits
    let sequences ← read? tables count { literals, offsets, lengths } bits
    pure (sequences, some tables)

end Sequences

end GameWire.Zstandard
