import GameWire.Zstandard.Bits

/-!
# State tables

A symbol may be coded in a fraction of a bit: each state of a decoder stands for a symbol, and for
how many bits are to be read to get to the next state. The frequent symbols have many states.
-/

namespace GameWire.Zstandard

structure StateCell where
  symbol : Nat
  /-- How many bits are read to get to the next state. -/
  bits : Nat
  /-- The next state if all of them are zero. -/
  base : Nat
  deriving Inhabited, DecidableEq, Repr

/-- The states of a decoder. There are `2 ^ log` of them. -/
structure StateTable where
  log : Nat
  cells : Array StateCell

namespace StateTable

/-! ## Frequencies -/

/-- How many states a symbol has. One that is rarer than one state allows is `rare`. -/
inductive Frequency where
  | count (states : Nat)
  | rare
  deriving DecidableEq, Repr

def Frequency.states : Frequency → Nat
  | count states => states
  | rare => 1

/-- The number of binary digits of a number. -/
def digits (n : Nat) : Nat :=
  if n = 0 then 0 else n.log2 + 1

/-- A number that is at most `most`, of which the smallest ones take one bit less. -/
def bounded? (most : Nat) (c : BitCursor) : Option (Nat × BitCursor) := do
  let short := digits most - 1
  let spare := 2 ^ (short + 1) - 1 - most
  let (low, c) ← c.bits? short
  -- The `spare` smallest numbers are complete without a top bit.
  if low < spare then pure (low, c)
  else
    let (top, c) ← c.bit?
    pure (if top = 1 then (low + 2 ^ short - spare, c) else (low, c))

/-- How many more symbols have no state. Groups of three go on. -/
def absent? : (fuel : Nat) → BitCursor → Option (Nat × BitCursor)
  | 0, _ => none
  | fuel + 1, c => do
    let (count, c) ← c.bits? 2
    if count = 3 then
      let (more, c) ← absent? fuel c
      pure (count + more, c)
    else pure (count, c)

/-- The frequencies of the symbols from the next one on, of which there are at most `room`, until
all states are given away. -/
def frequencies? : (room left : Nat) → BitCursor → Option (List Frequency × BitCursor)
  | _, 0, c => some ([], c)
  | 0, _ + 1, _ => none
  | room + 1, left + 1, c => do
    let (value, c) ← bounded? (left + 2) c
    -- Zero marks a rare symbol, and every other number is one more than the number of states.
    match value with
    | 0 =>
      let (rest, c) ← frequencies? room left c
      pure (.rare :: rest, c)
    | 1 =>
      let (skipped, c) ← absent? (room + 1) c
      if skipped ≤ room then
        let (rest, c) ← frequencies? (room - skipped) (left + 1) c
        pure (.count 0 :: List.replicate skipped (.count 0) ++ rest, c)
      else none
    | states + 1 =>
      if states ≤ left + 1 then
        let (rest, c) ← frequencies? room (left + 1 - states) c
        pure (.count states :: rest, c)
      else none
termination_by room => room
decreasing_by all_goals omega

/-! ## Building a table -/

/-- The symbols with the number of their states, those that are not rare. -/
def common (frequencies : List Frequency) : List (Nat × Nat) :=
  frequencies.zipIdx.filterMap fun
    | (.count states, symbol) => some (symbol, states)
    | (.rare, _) => none

def rares (frequencies : List Frequency) : List Nat :=
  frequencies.zipIdx.filterMap fun
    | (.rare, symbol) => some symbol
    | (.count _, _) => none

/-- The symbol of each state. The rare symbols have the last states, and the others are scattered
over the rest with a fixed stride. -/
def scatter (log : Nat) (frequencies : List Frequency) : Array Nat :=
  let size := 2 ^ log
  let low := rares frequencies
  -- The stride is odd, so every place is visited once.
  let stride := size / 2 + size / 8 + 3
  let places := ((List.range size).map fun i => i * stride % size).filter (· < size - low.length)
  let symbols := (common frequencies).flatMap fun (symbol, states) => List.replicate states symbol
  let cells := (places.zip symbols).foldl (fun a (place, symbol) => a.setIfInBounds place symbol)
    (Array.replicate size 0)
  low.zipIdx.foldl (fun a (symbol, i) => a.setIfInBounds (size - 1 - i) symbol) cells

/-- The cell of a symbol's state, which is the `turn`-th one counted from the number of its
states. -/
def cell (log symbol turn : Nat) : StateCell :=
  let bits := log - turn.log2
  { symbol, bits, base := turn * 2 ^ bits - 2 ^ log }

def ofFrequencies (log : Nat) (frequencies : List Frequency) : StateTable :=
  let turns := (frequencies.map Frequency.states).toArray
  let step (acc : Array StateCell × Array Nat) (symbol : Nat) : Array StateCell × Array Nat :=
    let turn := acc.2.getD symbol 0
    (acc.1.push (cell log symbol turn), acc.2.setIfInBounds symbol (turn + 1))
  { log, cells := ((scatter log frequencies).foldl step (#[], turns)).1 }

def single (symbol : Nat) : StateTable :=
  { log := 0, cells := #[{ symbol, bits := 0, base := 0 }] }

/-- Reads a table of at most `2 ^ maxLog` states for symbols below `room`, and tells what follows
it. -/
def read? (maxLog room : Nat) (bs : Bytes) : Option (StateTable × Bytes) := do
  let (log, c) ← BitCursor.bits? 4 ⟨bs, 0⟩
  let log := log + 5
  if maxLog < log then none
  else
    let (frequencies, c) ← frequencies? room (2 ^ log) c
    pure (ofFrequencies log frequencies, c.align)

/-! ## Stepping -/

def cellAt (t : StateTable) (state : Nat) : StateCell :=
  t.cells.getD state default

/-- The first state, which the next bits name. -/
def start? (t : StateTable) (bits : Bits) : Option (Nat × Bits) :=
  bits.take? t.log

def next? (t : StateTable) (state : Nat) (bits : Bits) : Option (Nat × Bits) := do
  let here := t.cellAt state
  let (offset, bits) ← bits.take? here.bits
  pure (here.base + offset, bits)

end StateTable

end GameWire.Zstandard
