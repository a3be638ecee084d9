import GameWire.Zstandard.Block
import GameWire.Zstandard.Checksum
import GameWire.Zstandard.FrameHead

/-!
# Zstandard streams

A stream is a list of frames, and a frame a list of blocks. `decode` yields the content of all
blocks up to the end of the stream or to the first fault.
-/

namespace GameWire.Zstandard

structure Decoded where
  content : Bytes
  fault? : Option Fault := none
  deriving DecidableEq, Repr

/-! ## Blocks -/

inductive BlockMode where
  | plain
  /-- One byte that is repeated. -/
  | repeated
  | compressed
  | reserved
  deriving DecidableEq, Repr

structure BlockHead where
  isLast : Bool
  mode : BlockMode
  /-- The length of the block, or of its content if that is one byte repeated. -/
  size : Nat
  deriving DecidableEq, Repr

namespace BlockHead

def ofBytes (bs : Bytes) : BlockHead :=
  let n := Bytes.ofLE bs
  { isLast := n % 2 = 1
    mode := match n / 2 % 4 with
      | 0 => .plain
      | 1 => .repeated
      | 2 => .compressed
      | _ => .reserved
    size := n / 8 }

def length (h : BlockHead) : Nat :=
  match h.mode with
  | .repeated => 1
  | _ => h.size

end BlockHead

/-- Whether a content of `length` bytes may stand in a frame that is not at its end. -/
def FrameHead.hasRoom (head : FrameHead) (length : Nat) : Bool :=
  head.contentLength?.all (length ≤ ·)

/-- The memory after a block. A block that is cut short is only good as far as it is stored as it
is. -/
def decodeBlock (head : FrameHead) (m : BlockMemory) (block : BlockHead) (bs : Bytes) :
    BlockMemory × Except Fault Unit :=
  let size := m.content.size
  if block.mode = .reserved ∨ head.blockLimit < block.length then (m, .error .corrupt)
  else
    let body := bs.take block.length
    let whole := body.length = block.length
    match block.mode with
    | .plain =>
      if head.hasRoom (size + block.size) then
        ({ m with content := m.content ++ body.toArray },
          if whole then .ok () else .error .incomplete)
      else (m, .error .corrupt)
    | .repeated =>
      if ¬ whole then (m, .error .incomplete)
      else if block.size ≤ head.blockLimit ∧ head.hasRoom (size + block.size) then
        ({ m with content := m.content ++ Array.replicate block.size (body.headD 0) }, .ok ())
      else (m, .error .corrupt)
    | _ =>
      if ¬ whole then (m, .error .incomplete)
      -- An empty block has no sections and changes nothing.
      else if body.isEmpty then (m, .ok ())
      else
        match m.decode? head.blockLimit body with
        | some after =>
          if head.hasRoom after.content.size then (after, .ok ()) else (m, .error .corrupt)
        | none => (m, .error .corrupt)

/-- The content of the blocks of a frame, and what follows the last of them. The length of the
content is checked with the last block, unless that is empty. -/
def decodeBlocks (head : FrameHead) (m : BlockMemory) (bs : Bytes) :
    Array UInt8 × Except Fault Bytes :=
  match bs with
  | b₀ :: b₁ :: b₂ :: rest =>
    let block := BlockHead.ofBytes [b₀, b₁, b₂]
    match decodeBlock head m block rest with
    | (after, .error fault) => (after.content, .error fault)
    | (after, .ok ()) =>
      if block.isLast then
        if block.length ≠ 0 ∧ head.contentLength?.any (· ≠ after.content.size) then
          (m.content, .error .corrupt)
        else (after.content, .ok (rest.drop block.length))
      else decodeBlocks head after (rest.drop block.length)
  | _ => (m.content, .error .incomplete)
termination_by bs.length
decreasing_by simp only [List.length_cons, List.length_drop]; omega

/-! ## Frames -/

/-- The content of a frame behind its head, and what follows the frame. -/
def decodeFrame (head : FrameHead) (bs : Bytes) : Bytes × Except Fault Bytes :=
  let (content, after) := decodeBlocks head {} bs
  let content := content.toList
  match after with
  | .error fault => (content, .error fault)
  | .ok rest =>
    if head.hasChecksum then
      match Bytes.cut? 4 rest with
      | none => (content, .error .incomplete)
      | some (sum, rest) =>
        (content, if sum = Checksum.bytes content then .ok rest else .error .corrupt)
    else (content, .ok rest)

/-- The content of a stream of at most `fuel` frames. -/
def decodeFrames : (fuel : Nat) → Bytes → Decoded
  | 0, _ => { content := [] }
  | fuel + 1, bs =>
    if bs.isEmpty then { content := [] }
    else
      match FrameStart.read bs with
      | .error fault => { content := [], fault? := some fault }
      | .ok (.skip count, rest) =>
        if rest.length < count then { content := [], fault? := some .incomplete }
        else decodeFrames fuel (rest.drop count)
      | .ok (.frame head, rest) =>
        match decodeFrame head rest with
        | (content, .error fault) => { content, fault? := some fault }
        | (content, .ok rest) =>
          let more := decodeFrames fuel rest
          { more with content := content ++ more.content }

/-- The content of a stream. It has at least one frame, and each of them takes up some of it. -/
def decode (bs : Bytes) : Decoded :=
  if bs.isEmpty then { content := [], fault? := some .incomplete } else decodeFrames bs.length bs

end GameWire.Zstandard
