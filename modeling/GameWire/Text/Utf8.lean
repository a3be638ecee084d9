import GameWire.Bytes

/-!
# UTF-8

Text as UTF-8 bytes and back. The reader is a machine that takes one byte at a time and knows how
many continuation bytes it is owed and which range the next one must lie in, so overlong forms,
surrogates and scalars above `0x10FFFF` are refused at their first wrong byte.
-/

namespace GameWire.Utf8

def encode (s : String) : Bytes :=
  s.toList.flatMap String.utf8EncodeChar

/-- Reads on after a lead byte: `owed` continuation bytes are missing, `value` holds the bits read
so far, and the next byte must lie between `low` and `high`. Nothing is owed between scalars. -/
def scan : (owed value low high : Nat) → Bytes → Option (List Char)
  | 0, _, _, _, [] => some []
  | _ + 1, _, _, _, [] => none
  | 0, _, _, _, b :: bs =>
    let n := b.toNat
    if n < 0x80 then (scan 0 0 0 0 bs).map (Char.ofNat n :: ·)
    else if n < 0xC2 then none
    else if n < 0xE0 then scan 1 (n % 0x20) 0x80 0xBF bs
    else if n = 0xE0 then scan 2 0 0xA0 0xBF bs
    else if n = 0xED then scan 2 0xD 0x80 0x9F bs
    else if n < 0xF0 then scan 2 (n % 0x10) 0x80 0xBF bs
    else if n = 0xF0 then scan 3 0 0x90 0xBF bs
    else if n < 0xF4 then scan 3 (n % 0x08) 0x80 0xBF bs
    else if n = 0xF4 then scan 3 4 0x80 0x8F bs
    else none
  | owed + 1, value, low, high, b :: bs =>
    let n := b.toNat
    if low ≤ n ∧ n ≤ high then
      let value := value * 0x40 + n % 0x40
      if owed = 0 then (scan 0 0 0 0 bs).map (Char.ofNat value :: ·)
      else scan owed value 0x80 0xBF bs
    else none

def decode? (bs : Bytes) : Option String :=
  (scan 0 0 0 0 bs).map String.ofList

end GameWire.Utf8
