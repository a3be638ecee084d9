import GameWire.Zstandard.Stream

/-!
# Stored Zstandard streams

A stream may store its content as it is, in blocks of the largest length. Decoding such a stream
gives the content back.
-/

namespace GameWire.Zstandard

/-- The head of a block that stores its content as it is. -/
def storedHead (isLast : Bool) (size : Nat) : Bytes :=
  Bytes.le 3 (isLast.toNat + 8 * size)

/-- Blocks that store a content in pieces, of which there is at least one. -/
def storedBlocks : List Bytes → Bytes
  | [] => storedHead true 0
  | [piece] => storedHead true piece.length ++ piece
  | piece :: pieces => storedHead false piece.length ++ piece ++ storedBlocks pieces

/-- The descriptor and the window of the frames that are made here: there is neither a length nor a
checksum, and the window is as large as a block. -/
def storedFields : Bytes := [0x00, 0x38]

/-- A stream of one frame that stores a content as it is. -/
def encode (content : Bytes) : Bytes :=
  FrameStart.magic ++ storedFields ++ storedBlocks (Bytes.chunks FrameStart.maxBlock content)

/-! ## Decoding what is stored -/

/-- What a decoder knows about a frame that is made here. -/
def storedFrame : FrameHead :=
  { contentLength? := none, hasChecksum := false, blockLimit := FrameStart.maxBlock }

theorem read_stored (blocks : Bytes) :
    FrameStart.read (FrameStart.magic ++ storedFields ++ blocks) =
      .ok (.frame storedFrame, blocks) := by
  simp [FrameStart.read, FrameStart.mayBeFrame, FrameStart.magic, storedFields,
    FrameStart.readFields, FrameStart.contentLengthWidth, FrameStart.dictionaryWidth, Bytes.cut?,
    FrameStart.windowSize, Bytes.ofLE, FrameStart.maxWindow, storedFrame, FrameStart.maxBlock,
    Except.map]

theorem ofBytes_storedHead (isLast : Bool) {size : Nat} (h : size ≤ FrameStart.maxBlock) :
    BlockHead.ofBytes (storedHead isLast size) = { isLast, mode := .plain, size } := by
  have hb : isLast.toNat ≤ 1 := Bool.toNat_le isLast
  have hn : isLast.toNat + 8 * size < 256 ^ 3 := by
    simp only [FrameStart.maxBlock] at h
    omega
  have hm : (isLast.toNat + 8 * size) / 2 % 4 = 0 := by omega
  have hs : (isLast.toNat + 8 * size) / 8 = size := by omega
  have hl : (isLast.toNat + 8 * size) % 2 = isLast.toNat := by omega
  simp only [storedHead, BlockHead.ofBytes, Bytes.ofLE_le hn, hm, hs, hl]
  cases isLast <;> simp

/-- A stored block is its content. -/
theorem decodeBlock_stored (m : BlockMemory) (isLast : Bool) (piece rest : Bytes)
    (h : piece.length ≤ FrameStart.maxBlock) :
    decodeBlock storedFrame m { isLast, mode := .plain, size := piece.length } (piece ++ rest) =
      ({ m with content := m.content ++ piece.toArray }, .ok ()) := by
  have hn : ¬ FrameStart.maxBlock < piece.length := by omega
  simp [decodeBlock, BlockHead.length, storedFrame, FrameHead.hasRoom, hn]

theorem decodeBlocks_storedHead (m : BlockMemory) (isLast : Bool) (piece rest : Bytes)
    (h : piece.length ≤ FrameStart.maxBlock) :
    decodeBlocks storedFrame m (storedHead isLast piece.length ++ (piece ++ rest)) =
      if isLast then (m.content ++ piece.toArray, .ok rest)
      else decodeBlocks storedFrame { m with content := m.content ++ piece.toArray } rest := by
  have hh := ofBytes_storedHead isLast h
  simp only [storedHead, Bytes.le] at hh
  simp only [storedHead, Bytes.le, List.cons_append, List.nil_append]
  rw [decodeBlocks, hh]
  simp only [decodeBlock_stored m isLast piece rest h]
  cases isLast <;> simp [BlockHead.length, storedFrame]

theorem decodeBlocks_storedBlocks (m : BlockMemory) (pieces : List Bytes)
    (h : ∀ piece ∈ pieces, piece.length ≤ FrameStart.maxBlock) :
    decodeBlocks storedFrame m (storedBlocks pieces) =
      (m.content ++ pieces.flatten.toArray, .ok []) := by
  fun_induction storedBlocks pieces generalizing m with
  | case1 =>
    have := decodeBlocks_storedHead m true [] [] (by simp)
    simpa using this
  | case2 piece =>
    have := decodeBlocks_storedHead m true piece [] (h piece (by simp))
    simpa using this
  | case3 piece pieces hne ih =>
    have hp := h piece (by simp)
    rw [List.append_assoc, decodeBlocks_storedHead m false piece _ hp]
    have hi := ih { m with content := m.content ++ piece.toArray } fun q hq => h q (by simp [hq])
    simp only [Bool.false_eq_true, if_false, hi]
    simp [Array.append_assoc]

/-- Decoding gives back what was stored. -/
theorem decode_encode (content : Bytes) : decode (encode content) = { content } := by
  have hpieces : ∀ piece ∈ Bytes.chunks FrameStart.maxBlock content,
      piece.length ≤ FrameStart.maxBlock :=
    fun piece hp => Bytes.length_le_of_mem_chunks (by decide) hp
  have hframe : decodeFrame storedFrame (storedBlocks (Bytes.chunks FrameStart.maxBlock content)) =
      (content, .ok []) := by
    rw [decodeFrame, decodeBlocks_storedBlocks {} _ hpieces]
    simp [Bytes.flatten_chunks, storedFrame]
  have hlength : (encode content).length =
      (encode content).length - 1 + 1 := by simp [encode, FrameStart.magic]
  have hempty : (encode content).isEmpty = false := rfl
  have hnil : ∀ fuel, decodeFrames fuel [] = { content := [] } := by
    intro fuel
    cases fuel <;> rfl
  rw [decode, hempty, hlength]
  simp only [Bool.false_eq_true, if_false, decodeFrames, hempty]
  simp only [encode, read_stored, hframe, hnil]
  simp

end GameWire.Zstandard
