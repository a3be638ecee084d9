import GameWire.Bytes

/-!
# The checksum of a Zstandard frame

XXH64 with seed zero. Four lanes take in stripes of 32 bytes; they are merged, what is left of the
content is mixed in, and the bits are spread at the end. A frame keeps the lower half.
-/

namespace GameWire.Zstandard.Checksum

def prime₁ : UInt64 := 0x9E3779B185EBCA87
def prime₂ : UInt64 := 0xC2B2AE3D27D4EB4F
def prime₃ : UInt64 := 0x165667B19E3779F9
def prime₄ : UInt64 := 0x85EBCA77C2B2AE63
def prime₅ : UInt64 := 0x27D4EB2F165667C5

def rotl (x n : UInt64) : UInt64 :=
  (x <<< n) ||| (x >>> (64 - n))

def word (width : Nat) (bs : Bytes) : UInt64 :=
  UInt64.ofNat (Bytes.ofLE (bs.take width))

/-- A lane after one more word. -/
def round (lane input : UInt64) : UInt64 :=
  rotl (lane + input * prime₂) 31 * prime₁

structure Lanes where
  a : UInt64 := prime₁ + prime₂
  b : UInt64 := prime₂
  c : UInt64 := 0
  d : UInt64 := 0 - prime₁

namespace Lanes

/-- The lanes after a stripe of 32 bytes. -/
def stripe (s : Lanes) (bs : Bytes) : Lanes :=
  ⟨round s.a (word 8 bs), round s.b (word 8 (bs.drop 8)), round s.c (word 8 (bs.drop 16)),
    round s.d (word 8 (bs.drop 24))⟩

def merge (s : Lanes) : UInt64 :=
  let h := rotl s.a 1 + rotl s.b 7 + rotl s.c 12 + rotl s.d 18
  [s.a, s.b, s.c, s.d].foldl (fun h lane => (h ^^^ round 0 lane) * prime₁ + prime₄) h

end Lanes

def mixEight (h : UInt64) (bs : Bytes) : UInt64 :=
  rotl (h ^^^ round 0 (word 8 bs)) 27 * prime₁ + prime₄

def mixFour (h : UInt64) (bs : Bytes) : UInt64 :=
  rotl (h ^^^ (word 4 bs * prime₁)) 23 * prime₂ + prime₃

def mixByte (h : UInt64) (b : UInt8) : UInt64 :=
  rotl (h ^^^ (b.toUInt64 * prime₅)) 11 * prime₁

/-- The sum after what is left behind the last stripe. -/
def mixTail (h : UInt64) (tail : Bytes) : UInt64 :=
  let eights := tail.length / 8
  let h := (Bytes.chunks 8 (tail.take (8 * eights))).foldl mixEight h
  let tail := tail.drop (8 * eights)
  if 4 ≤ tail.length then (tail.drop 4).foldl mixByte (mixFour h tail) else tail.foldl mixByte h

/-- The sum with its bits spread. -/
def spread (h : UInt64) : UInt64 :=
  let h := (h ^^^ (h >>> 33)) * prime₂
  let h := (h ^^^ (h >>> 29)) * prime₃
  h ^^^ (h >>> 32)

def digest (content : Bytes) : UInt64 :=
  let stripes := content.length / 32
  let lanes := (Bytes.chunks 32 (content.take (32 * stripes))).foldl Lanes.stripe {}
  let h := if stripes = 0 then prime₅ else lanes.merge
  spread (mixTail (h + UInt64.ofNat content.length) (content.drop (32 * stripes)))

/-- The four bytes that a frame keeps. -/
def bytes (content : Bytes) : Bytes :=
  Bytes.le 4 (digest content).toNat

end GameWire.Zstandard.Checksum
