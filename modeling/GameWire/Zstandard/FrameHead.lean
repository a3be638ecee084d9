import GameWire.Bytes

/-!
# The head of a Zstandard frame

A frame begins with a magic number. It is followed by what a decoder has to know in advance, or, in
a frame that is to be skipped, by the length of what is to be skipped.
-/

namespace GameWire.Zstandard

inductive Fault where
  /-- The input contradicts the format. -/
  | corrupt
  /-- The input ends within a frame. -/
  | incomplete
  deriving DecidableEq, Repr

/-- What a decoder has to know about a frame. -/
structure FrameHead where
  /-- The length of the content, if it is given. -/
  contentLength? : Option Nat
  hasChecksum : Bool
  /-- The longest content of a block, and the longest block. -/
  blockLimit : Nat
  deriving DecidableEq, Repr

inductive FrameStart where
  | frame (head : FrameHead)
  /-- This many bytes are to be skipped. -/
  | skip (count : Nat)
  deriving DecidableEq, Repr

namespace FrameStart

def magic : Bytes := [0x28, 0xB5, 0x2F, 0xFD]

/-- Whether a stream may begin a frame to be skipped, as far as it goes. The lower half of the first
byte is free. -/
def mayBeSkipped (bs : Bytes) : Bool :=
  match bs with
  | [] => true
  | b :: rest => b.toNat / 16 == 5 && (rest.take 3).isPrefixOf [0x2A, 0x4D, 0x18]

/-- Whether a stream may begin a frame, as far as it goes. -/
def mayBeFrame (bs : Bytes) : Bool :=
  (bs.take 4).isPrefixOf magic

/-- The longest content of a block in any frame. -/
def maxBlock : Nat := 131072

/-- The largest window that is made room for. -/
def maxWindow : Nat := 134217729

/-- The number of bytes that a content length takes up. -/
def contentLengthWidth (flag : Nat) (single : Bool) : Nat :=
  match flag with
  | 0 => if single then 1 else 0
  | flag => 2 ^ flag

/-- The number of bytes that the name of a dictionary takes up. -/
def dictionaryWidth (flag : Nat) : Nat :=
  if flag = 3 then 4 else flag

/-- The size of a window that a byte describes: a power of two and some eighths of it. -/
def windowSize (b : Nat) : Nat :=
  2 ^ (10 + b / 8) + 2 ^ (10 + b / 8) / 8 * (b % 8)

/-- Reads what follows the magic number and the descriptor. Dictionaries are not supported. -/
def readFields (descriptor : Nat) (bs : Bytes) : Except Fault (FrameHead × Bytes) :=
  let single := descriptor / 32 % 2 = 1
  let windowWidth := if single then 0 else 1
  let nameWidth := dictionaryWidth (descriptor % 4)
  let lengthFlag := descriptor / 64
  let lengthWidth := contentLengthWidth lengthFlag single
  match Bytes.cut? (windowWidth + nameWidth + lengthWidth) bs with
  | none => .error .incomplete
  | some (fields, rest) =>
    let name := Bytes.ofLE ((fields.drop windowWidth).take nameWidth)
    let written := Bytes.ofLE (fields.drop (windowWidth + nameWidth))
    -- In two bytes, lengths are counted from 256 on, since one byte holds the smaller ones.
    let contentLength? := if lengthWidth = 0 then none
      else some (if lengthFlag = 1 then written + 256 else written)
    let window := if single then contentLength?.getD 0 else windowSize (fields.headD 0).toNat
    -- One bit of the descriptor is reserved.
    if descriptor / 8 % 2 = 1 ∨ name ≠ 0 ∨ maxWindow < window then .error .corrupt
    else
      .ok ({ contentLength?, hasChecksum := descriptor / 4 % 2 = 1,
             blockLimit := min window maxBlock }, rest)

/-- Reads the front of a stream that is not at its end. -/
def read (bs : Bytes) : Except Fault (FrameStart × Bytes) :=
  if mayBeFrame bs then
    match bs.drop 4 with
    | [] => .error .incomplete
    | descriptor :: rest =>
      (readFields descriptor.toNat rest).map fun (head, rest) => (.frame head, rest)
  else if mayBeSkipped bs then
    match Bytes.cut? 8 bs with
    | none => .error .incomplete
    | some (head, rest) => .ok (.skip (Bytes.ofLE (head.drop 4)), rest)
  else .error .corrupt

end FrameStart

end GameWire.Zstandard
