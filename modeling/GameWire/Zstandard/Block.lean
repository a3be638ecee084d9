import GameWire.Zstandard.Literals
import GameWire.Zstandard.Sequences

/-!
# Compressed blocks

A compressed block holds literals and sequences. Carrying them out appends to the content of the
frame, which is kept because matches reach back into it.
-/

namespace GameWire.Zstandard

/-! ## Distances -/

/-- The three distances used last, which short offsets name. -/
structure Distances where
  first : Nat := 1
  second : Nat := 4
  third : Nat := 8
  deriving DecidableEq, Repr, Inhabited

/-- How far back the match of a sequence begins, and the distances used last after it. Where no
literals are copied, the distance used last would continue the match before, and the short offsets
name the others. -/
def Distances.use? (d : Distances) (s : Sequence) : Option (Nat × Distances) :=
  if 3 < s.offset then some (s.offset - 3, ⟨s.offset - 3, d.first, d.second⟩)
  else
    match if s.literals = 0 then s.offset + 1 else s.offset with
    | 1 => some (d.first, d)
    | 2 => some (d.second, ⟨d.second, d.first, d.third⟩)
    | 3 => some (d.third, ⟨d.third, d.first, d.second⟩)
    -- The fourth choice is one less than the distance used last, which must not be zero.
    | _ => if d.first ≤ 1 then none else some (d.first - 1, ⟨d.first - 1, d.first, d.second⟩)

/-! ## Putting a content together -/

/-- A content followed by `length` bytes that repeat what began `distance` bytes before its end. -/
def repeatFrom (content : Array UInt8) (distance : Nat) : (length : Nat) → Array UInt8
  | 0 => content
  | length + 1 =>
    repeatFrom (content.push (content.getD (content.size - distance) 0)) distance length

structure BlockMemory where
  content : Array UInt8 := #[]
  code? : Option PrefixCode := none
  tables? : Option SequenceTables := none
  distances : Distances := {}

/-- Carries out sequences, and then appends the literals that are left. The content may grow to
`limit` bytes. -/
def carryOut? (limit : Nat) (content : Array UInt8) (d : Distances) (literals : Bytes) :
    List Sequence → Option (Array UInt8 × Distances)
  | [] =>
    if content.size + literals.length ≤ limit then some (content ++ literals.toArray, d) else none
  | s :: more => do
    let (copied, literals) ← Bytes.cut? s.literals literals
    let (distance, d) ← d.use? s
    let content := content ++ copied.toArray
    -- A match cannot begin before the frame does.
    if distance ≤ content.size ∧ content.size + s.length ≤ limit then
      carryOut? limit (repeatFrom content distance s.length) d literals more
    else none

/-- The memory after a compressed block whose content has at most `limit` bytes. -/
def BlockMemory.decode? (m : BlockMemory) (limit : Nat) (block : Bytes) : Option BlockMemory := do
  let (literals, code?, rest) ← Literals.read? m.code? limit block
  let (sequences, tables?) ← Sequences.section? m.tables? rest
  let (content, distances) ←
    carryOut? (m.content.size + limit) m.content m.distances literals sequences
  pure { content, code?, tables?, distances }

end GameWire.Zstandard
