/-!
# Socket addresses

The text of a socket address is an IPv4 address, or an IPv6 address in brackets that may name its
scope, and after a colon a number of 16 bits. Each reader takes its part off the front of a text and
gives what is left.
-/

namespace GameWire.Address

def digit? (base : Nat) (c : Char) : Option Nat :=
  let n := c.toNat
  let value := if 0x30 ≤ n ∧ n ≤ 0x39 then n - 0x30
    else if 0x41 ≤ n ∧ n ≤ 0x5A then n - 0x37
    else if 0x61 ≤ n ∧ n ≤ 0x7A then n - 0x57
    else base
  if value < base then some value else none

/-- The number at the front and how many digits it has, if it has any. -/
def number? (base : Nat) (cs : List Char) : Option (Nat × Nat × List Char) :=
  let ds := cs.takeWhile fun c => (digit? base c).isSome
  if ds.isEmpty then none
  else some (ds.foldl (fun n c => n * base + (digit? base c).getD 0) 0, ds.length,
    cs.drop ds.length)

/-- One number of an IPv4 address: up to 255, without leading zeros. -/
def octet? (cs : List Char) : Option (List Char) := do
  let (n, count, rest) ← number? 10 cs
  if n < 256 ∧ count ≤ 3 ∧ (count = 1 ∨ cs.head? ≠ some '0') then some rest else none

def ipv4? (cs : List Char) : Option (List Char) := do
  let cs ← octet? cs
  let cs ← octet? (← ['.'].isPrefixOf? cs)
  let cs ← octet? (← ['.'].isPrefixOf? cs)
  octet? (← ['.'].isPrefixOf? cs)

/-- One group of an IPv6 address: up to four hexadecimal digits. -/
def group? (cs : List Char) : Option (List Char) := do
  let (_, count, rest) ← number? 16 cs
  if count ≤ 4 then some rest else none

/-- Takes up to `limit` groups, of which the last two may be an IPv4 address. Gives the number of
groups, whether an IPv4 address ended them, and the rest. Groups but the first follow a colon. -/
def groups (first : Bool) : (limit : Nat) → List Char → Nat × Bool × List Char
  | 0, cs => (0, false, cs)
  | limit + 1, cs =>
    match if first then some cs else [':'].isPrefixOf? cs with
    | none => (0, false, cs)
    | some start =>
      -- An IPv4 address takes the room of two groups.
      match if 1 ≤ limit then ipv4? start else none with
      | some rest => (2, true, rest)
      | none =>
        match group? start with
        | none => (0, false, cs)
        | some rest =>
          let (count, embedded, rest) := groups false limit rest
          (count + 1, embedded, rest)

/-- An IPv6 address. Two colons stand for one or more groups of zeros. -/
def ipv6? (cs : List Char) : Option (List Char) := do
  let (count, embedded, rest) := groups true 8 cs
  if count = 8 then some rest
  else if embedded then none
  else
    -- The two colons take the room of one group at least.
    let rest ← [':', ':'].isPrefixOf? rest
    let (_, _, rest) := groups true (7 - count) rest
    some rest

/-- A number of at most `bound` after the character `mark`. -/
def numbered? (mark : Char) (bound : Nat) (cs : List Char) : Option (List Char) := do
  let (n, _, rest) ← number? 10 (← [mark].isPrefixOf? cs)
  if n ≤ bound then some rest else none

def bracketed? (cs : List Char) : Option (List Char) := do
  let cs ← ipv6? (← ['['].isPrefixOf? cs)
  [']'].isPrefixOf? ((numbered? '%' (2 ^ 32 - 1) cs).getD cs)

def isSocketAddress (s : String) : Bool :=
  let host := (ipv4? s.toList).or (bracketed? s.toList)
  host.bind (numbered? ':' 0xFFFF) == some []

end GameWire.Address
