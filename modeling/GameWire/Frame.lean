import GameWire.Packet

/-!
# Frames

A frame is an eight-byte header and a body:

    [length, 4 bytes, counts the header too] [category] [subtype] [reserved, 2 bytes] [body]

All numbers are little-endian. `splitFrames` cuts a byte string into whole frames; what it leaves
over is too short for a length, or declares fewer bytes than a header or more than it holds.
-/

namespace GameWire

def headerLength : Nat := 8

namespace FrameHeader

def parse (frame : Bytes) : Except ProtocolError (Nat × FrameHeader) :=
  match frame with
  | a :: b :: c :: d :: category :: subtype :: r :: s :: _ =>
    .ok (Bytes.ofLE [a, b, c, d], { category, subtype, reserved := ⟨[r, s], rfl⟩ })
  | _ => .error (.insufficientData "frame header" headerLength frame.length)

def write (h : FrameHeader) (total : Nat) : Except ProtocolError Bytes :=
  if total < 2 ^ 32 then
    .ok (Bytes.le 4 total ++ h.category :: h.subtype :: h.reserved.bytes)
  else .error (.encode (.frameTooLong total))

def frame (h : FrameHeader) (body : Bytes) : Except ProtocolError Bytes :=
  (h.write (headerLength + body.length)).map (· ++ body)

end FrameHeader

/-- The length that the frame at the front of `buf` declares, once four bytes are there. -/
def frameLength? (buf : Bytes) : Option Nat :=
  Bytes.u32At? 0 buf

/-- The whole frames at the front of `buf`, and the bytes behind the last of them. -/
def splitFrames (buf : Bytes) : List Bytes × Bytes :=
  match frameLength? buf with
  | none => ([], buf)
  | some length =>
    if _h : headerLength ≤ length ∧ length ≤ buf.length then
      let (frames, rest) := splitFrames (buf.drop length)
      (buf.take length :: frames, rest)
    else ([], buf)
termination_by buf.length
decreasing_by simp only [headerLength] at _h; simp only [List.length_drop]; omega

/-- Nothing is lost or added by splitting. -/
theorem flatten_splitFrames (buf : Bytes) :
    (splitFrames buf).1.flatten ++ (splitFrames buf).2 = buf := by
  fun_induction splitFrames buf with
  | case1 => rfl
  | case2 buf length _ h frames rest heq ih => simp_all
  | case3 => rfl

end GameWire
