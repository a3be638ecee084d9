/-!
# UTF-16

Text as UTF-16 code units and back. A scalar above `0xFFFF` is a high surrogate followed by a low
one; a surrogate that stands alone spells no text.
-/

namespace GameWire.Utf16

def unitsOf (c : Char) : List UInt16 :=
  let n := c.toNat
  if n < 0x10000 then [UInt16.ofNat n]
  else
    [UInt16.ofNat (0xD800 + (n - 0x10000) / 0x400),
      UInt16.ofNat (0xDC00 + (n - 0x10000) % 0x400)]

def encode (s : String) : List UInt16 :=
  s.toList.flatMap unitsOf

/-- Whether a unit opens a surrogate pair. -/
def isHigh (u : UInt16) : Bool := 0xD800 ≤ u && u ≤ 0xDBFF

/-- Whether a unit closes a surrogate pair. -/
def isLow (u : UInt16) : Bool := 0xDC00 ≤ u && u ≤ 0xDFFF

/-- The scalars of a list of units, where `pending` is a high surrogate still waiting for its
partner. -/
def scan : (pending : Option UInt16) → List UInt16 → Option (List Char)
  | none, [] => some []
  | some _, [] => none
  | none, u :: us =>
    if isHigh u then scan (some u) us
    else if isLow u then none
    else (scan none us).map (Char.ofNat u.toNat :: ·)
  | some h, u :: us =>
    if isLow u then
      (scan none us).map
        (Char.ofNat (0x10000 + (h.toNat - 0xD800) * 0x400 + (u.toNat - 0xDC00)) :: ·)
    else none

/-- The text that a list of units spells, if every surrogate has its partner. -/
def decode? (us : List UInt16) : Option String :=
  (scan none us).map String.ofList

end GameWire.Utf16
