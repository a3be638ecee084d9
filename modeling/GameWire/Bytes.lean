/-!
# Byte strings

Frames, envelopes and files are lists of bytes. This module holds the little- and big-endian
readings of such lists and the views a reader takes of their front.
-/

-- A power of a number is the core library's, also where algebra defines others.
attribute [instance (high), default_instance high + 1] instPowNat

namespace GameWire

/-- A byte string: what a socket, a file or a cipher hands over. -/
abbrev Bytes := List UInt8

namespace Bytes

/-! ## Numbers in little- and big-endian order -/

/-- The `width` lowest base-256 digits of `n`, lowest first. -/
def le : (width : Nat) → (n : Nat) → Bytes
  | 0, _ => []
  | width + 1, n => UInt8.ofNat n :: le width (n / 256)

/-- The number whose base-256 digits, lowest first, are the given bytes. -/
def ofLE : Bytes → Nat
  | [] => 0
  | b :: bs => b.toNat + 256 * ofLE bs

/-- The `width` lowest base-256 digits of `n`, highest first. -/
def be (width n : Nat) : Bytes :=
  (le width n).reverse

/-- The number whose base-256 digits, highest first, are the given bytes. -/
def ofBE (bs : Bytes) : Nat :=
  ofLE bs.reverse

@[simp] theorem length_le (width n : Nat) : (le width n).length = width := by
  induction width generalizing n <;> simp [le, *]

@[simp] theorem length_be (width n : Nat) : (be width n).length = width := by
  simp [be]

theorem ofLE_le {width n : Nat} (h : n < 256 ^ width) : ofLE (le width n) = n := by
  induction width generalizing n with
  | zero => simp only [Nat.pow_zero] at h; simp [le, ofLE]; omega
  | succ width ih =>
    have hd : n / 256 < 256 ^ width := by
      apply (Nat.div_lt_iff_lt_mul (by decide : 0 < 256)).2
      simpa [Nat.pow_succ] using h
    simp only [le, ofLE, UInt8.toNat_ofNat', ih hd]
    omega

theorem ofBE_be {width n : Nat} (h : n < 256 ^ width) : ofBE (be width n) = n := by
  simp [ofBE, be, ofLE_le h]

theorem ofLE_lt (bs : Bytes) : ofLE bs < 256 ^ bs.length := by
  induction bs with
  | nil => simp [ofLE]
  | cons b bs ih =>
    have hb := b.toNat_lt
    simp only [ofLE, List.length_cons, Nat.pow_succ]
    omega

/-- Reading the digits back and writing them again changes nothing. -/
theorem le_ofLE (bs : Bytes) : le bs.length (ofLE bs) = bs := by
  induction bs with
  | nil => rfl
  | cons b bs ih =>
    have hb := b.toNat_lt
    simp only [List.length_cons, le, ofLE]
    congr 1
    · apply UInt8.toNat_inj.1
      rw [UInt8.toNat_ofNat']
      omega
    · rw [show (b.toNat + 256 * ofLE bs) / 256 = ofLE bs by omega, ih]

/-! ## Fronts and fillings -/

def zeros (count : Nat) : Bytes :=
  List.replicate count 0

@[simp] theorem length_zeros (count : Nat) : (zeros count).length = count := by
  simp [zeros]

/-- The first `count` bytes and what follows them, if there are that many. -/
def cut? (count : Nat) (bs : Bytes) : Option (Bytes × Bytes) :=
  if count ≤ bs.length then some (bs.take count, bs.drop count) else none

theorem cut?_append (front rest : Bytes) :
    cut? front.length (front ++ rest) = some (front, rest) := by
  simp [cut?]

/-- The little-endian 32-bit number at `offset`, if all four of its bytes are present. -/
def u32At? (offset : Nat) (bs : Bytes) : Option Nat :=
  (cut? 4 (bs.drop offset)).map fun (digits, _) => ofLE digits

/-- A byte string in pieces of `size + 1` bytes, of which the last may be shorter. -/
def chunksOfSucc (size : Nat) (bs : Bytes) : List Bytes :=
  match bs with
  | [] => []
  | b :: bs => (b :: bs.take size) :: chunksOfSucc size (bs.drop size)
termination_by bs.length
decreasing_by simp only [List.length_cons, List.length_drop]; omega

/-- A byte string in pieces of `size` bytes, of which the last may be shorter. -/
def chunks (size : Nat) (bs : Bytes) : List Bytes :=
  chunksOfSucc (size - 1) bs

theorem flatten_chunks (size : Nat) (bs : Bytes) : (chunks size bs).flatten = bs := by
  simp only [chunks]
  fun_induction chunksOfSucc (size - 1) bs with
  | case1 => rfl
  | case2 b bs ih => simp [ih]

theorem length_le_of_mem_chunks {size : Nat} (h : 0 < size) {bs piece : Bytes}
    (hp : piece ∈ chunks size bs) : piece.length ≤ size := by
  simp only [chunks] at hp
  fun_induction chunksOfSucc (size - 1) bs with
  | case1 => simp at hp
  | case2 b bs ih =>
    rcases List.mem_cons.1 hp with rfl | hp
    · simp only [List.length_cons, List.length_take]
      omega
    · exact ih hp

/-- The bitwise exclusive or of two byte strings, as long as the shorter one. -/
def xor (a b : Bytes) : Bytes :=
  List.zipWith (· ^^^ ·) a b

end Bytes

/-! ## Byte strings of a fixed length -/

structure FixedBytes (n : Nat) where
  bytes : Bytes
  length_eq : bytes.length = n := by rfl
  deriving DecidableEq, Repr

namespace FixedBytes

def zero (n : Nat) : FixedBytes n :=
  ⟨Bytes.zeros n, Bytes.length_zeros n⟩

instance {n : Nat} : Inhabited (FixedBytes n) := ⟨zero n⟩

def ofBytes? (n : Nat) (bs : Bytes) : Option (FixedBytes n) :=
  if h : bs.length = n then some ⟨bs, h⟩ else none

@[simp] theorem ofBytes?_bytes {n : Nat} (f : FixedBytes n) : ofBytes? n f.bytes = some f := by
  simp [ofBytes?, f.length_eq]

end FixedBytes

end GameWire
