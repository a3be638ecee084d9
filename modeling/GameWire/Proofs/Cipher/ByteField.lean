import Mathlib.Algebra.CharP.Lemmas
import Mathlib.Algebra.CharP.Two
import GameWire.Cipher.Aes
import GameWire.Proofs.Bytes

/-!
# The field of bytes

Bytes with exclusive or for addition and `Aes.mul` for multiplication are the field of 256
elements.  All that is used of `mul` is that it commutes with `double` and with exclusive or in its
first argument: every byte comes from zero by doubling and by adding one, so laws are proved by
following that.
-/

namespace GameWire.Aes

open Bytes (forall_byte)

/-! ## Doubling -/

theorem xor_and (a b c : UInt8) : (a ^^^ b) &&& c = (a &&& c) ^^^ (b &&& c) := by
  apply UInt8.toBitVec_inj.1
  ext i
  simp only [UInt8.toBitVec_and, UInt8.toBitVec_xor, BitVec.getElem_and, BitVec.getElem_xor,
    Bool.and_xor_distrib_right]

theorem xor_shiftLeft_one (a b : UInt8) : (a ^^^ b) <<< 1 = (a <<< 1) ^^^ (b <<< 1) := by
  apply UInt8.toBitVec_inj.1
  exact BitVec.shiftLeft_xor_distrib _ _ _

/-- The highest bit alone is all or nothing. -/
theorem and_highest (b : UInt8) : b &&& 0x80 = 0 ∨ b &&& 0x80 = 0x80 := by
  revert b
  exact forall_byte (by decide +kernel)

theorem and_one (b : UInt8) : b &&& 1 = 0 ∨ b &&& 1 = 1 := by
  revert b
  exact forall_byte (by decide +kernel)

theorem double_xor (a b : UInt8) : double (a ^^^ b) = double a ^^^ double b := by
  have h : ∀ x : UInt8, double x = x <<< 1 ^^^ (if x &&& 0x80 = 0 then 0 else 0x1B) := by
    intro x
    unfold double
    split
    · rw [UInt8.xor_zero]
    · rfl
  rw [h, h, h, xor_and, xor_shiftLeft_one]
  -- The highest bits alone decide what is added, and it cancels if both are set.
  rcases and_highest a with ha | ha <;> rcases and_highest b with hb | hb <;> rw [ha, hb]
  · show _ ^^^ (0 : UInt8) = (_ ^^^ (0 : UInt8)) ^^^ (_ ^^^ (0 : UInt8))
    simp only [UInt8.xor_zero]
  · show _ ^^^ (0x1B : UInt8) = (_ ^^^ (0 : UInt8)) ^^^ (_ ^^^ (0x1B : UInt8))
    rw [UInt8.xor_zero, UInt8.xor_assoc]
  · show _ ^^^ (0x1B : UInt8) = (_ ^^^ (0x1B : UInt8)) ^^^ (_ ^^^ (0 : UInt8))
    rw [UInt8.xor_zero]
    ac_rfl
  · show _ ^^^ (0 : UInt8) = (_ ^^^ (0x1B : UInt8)) ^^^ (_ ^^^ (0x1B : UInt8))
    rw [UInt8.xor_zero, UInt8.xor_assoc (a <<< 1), UInt8.xor_comm (b <<< 1),
      ← UInt8.xor_assoc 0x1B, UInt8.xor_self, UInt8.zero_xor]

theorem double_zero : double 0 = 0 := by decide

/-- A byte is the double of its upper seven bits, with its lowest bit added. -/
theorem eq_double_xor (b : UInt8) : b = double (b >>> 1) ^^^ (b &&& 1) := by
  revert b
  exact forall_byte (by decide +kernel)

/-- Every byte comes from zero by doubling and by adding one. -/
theorem byteInduction {P : UInt8 → Prop} (zero : P 0) (dbl : ∀ b, P b → P (double b))
    (inc : ∀ b, P b → P (b ^^^ 1)) (b : UInt8) : P b := by
  induction hn : b.toNat using Nat.strong_induction_on generalizing b with
  | h n ih =>
    by_cases hz : b = 0
    · rw [hz]
      exact zero
    · have hne : b.toNat ≠ 0 := fun h => hz (UInt8.toNat_inj.1 h)
      have hlt : (b >>> 1).toNat < n := by
        rw [UInt8.toNat_shiftRight, ← hn]
        show b.toNat >>> 1 < b.toNat
        rw [Nat.shiftRight_eq_div_pow]
        omega
      have hd := dbl _ (ih _ hlt (b >>> 1) rfl)
      rw [eq_double_xor b]
      rcases and_one b with h1 | h1 <;> rw [h1]
      · rwa [UInt8.xor_zero]
      · exact inc _ hd

/-! ## The product -/

theorem mulBits_xor_left (bits : Nat) (a a' b : UInt8) :
    mulBits bits (a ^^^ a') b = mulBits bits a b ^^^ mulBits bits a' b := by
  induction bits generalizing a a' b with
  | zero => simp only [mulBits, UInt8.xor_self]
  | succ bits ih =>
    simp only [mulBits, double_xor, ih]
    split
    · simp only [UInt8.zero_xor]
    · ac_rfl

theorem mulBits_double_left (bits : Nat) (a b : UInt8) :
    mulBits bits (double a) b = double (mulBits bits a b) := by
  induction bits generalizing a b with
  | zero => simp only [mulBits, double_zero]
  | succ bits ih =>
    simp only [mulBits, double_xor, ih]
    split
    · rw [double_zero]
    · rfl

theorem mul_xor_left (a a' b : UInt8) : mul (a ^^^ a') b = mul a b ^^^ mul a' b :=
  mulBits_xor_left 8 a a' b

theorem mul_double_left (a b : UInt8) : mul (double a) b = double (mul a b) :=
  mulBits_double_left 8 a b

theorem one_mul (b : UInt8) : mul 1 b = b := by
  revert b
  exact forall_byte (by decide +kernel)

theorem zero_mul (b : UInt8) : mul 0 b = 0 := by
  have h := mul_xor_left 0 0 b
  rwa [UInt8.xor_self, UInt8.xor_self] at h

theorem mul_zero (a : UInt8) : mul a 0 = 0 := by
  induction a using byteInduction with
  | zero => rfl
  | dbl a ih => rw [mul_double_left, ih, double_zero]
  | inc a ih => rw [mul_xor_left, ih, one_mul, UInt8.xor_zero]

theorem mul_double (a b : UInt8) : mul a (double b) = double (mul a b) := by
  induction a using byteInduction with
  | zero => rw [zero_mul, zero_mul, double_zero]
  | dbl a ih => rw [mul_double_left, mul_double_left, ih]
  | inc a ih => rw [mul_xor_left, mul_xor_left, ih, one_mul, one_mul, double_xor]

theorem mul_xor_one (a b : UInt8) : mul a (b ^^^ 1) = mul a b ^^^ a := by
  induction a using byteInduction with
  | zero => rw [zero_mul, zero_mul]; rfl
  | dbl a ih => rw [mul_double_left, mul_double_left, ih, double_xor]
  | inc a ih =>
    rw [mul_xor_left, mul_xor_left, ih, one_mul, one_mul]
    ac_rfl

theorem mul_comm (a b : UInt8) : mul a b = mul b a := by
  induction a using byteInduction with
  | zero => rw [zero_mul, mul_zero]
  | dbl a ih => rw [mul_double_left, mul_double, ih]
  | inc a ih => rw [mul_xor_left, mul_xor_one, ih, one_mul]

theorem mul_assoc (a b c : UInt8) : mul (mul a b) c = mul a (mul b c) := by
  induction a using byteInduction with
  | zero => rw [zero_mul, zero_mul, zero_mul]
  | dbl a ih => rw [mul_double_left, mul_double_left, mul_double_left, ih]
  | inc a ih => rw [mul_xor_left, mul_xor_left, mul_xor_left, ih, one_mul, one_mul]

theorem mul_xor (a b b' : UInt8) : mul a (b ^^^ b') = mul a b ^^^ mul a b' := by
  rw [mul_comm, mul_xor_left, mul_comm b, mul_comm b']

/-! ## The ring of bytes -/

/-- The elements of the field are the bytes. -/
def Element := UInt8

def Element.ofByte (b : UInt8) : Element := b

instance : Zero Element := ⟨(0 : UInt8)⟩

instance : Add Element := ⟨fun a b : UInt8 => a ^^^ b⟩

instance : Neg Element := ⟨fun a => a⟩

instance : CommRing Element where
  add_assoc := UInt8.xor_assoc
  zero_add _ := UInt8.zero_xor
  add_zero _ := UInt8.xor_zero
  nsmul := nsmulRec
  add_comm := UInt8.xor_comm
  mul := mul
  left_distrib := mul_xor
  right_distrib := mul_xor_left
  zero_mul := zero_mul
  mul_zero := mul_zero
  mul_assoc := mul_assoc
  one := (1 : UInt8)
  one_mul := one_mul
  mul_one a := (mul_comm a 1).trans (one_mul a)
  zsmul := zsmulRec
  neg_add_cancel _ := UInt8.xor_self
  mul_comm := mul_comm

instance : CharP Element 2 :=
  CharTwo.of_one_ne_zero_of_two_eq_zero (show (1 : UInt8) ≠ 0 by decide) rfl

open Element (ofByte)

theorem ofByte_pow (a : UInt8) (n : Nat) : ofByte (pow a n) = ofByte a ^ n := by
  induction n with
  | zero => rfl
  | succ n ih =>
    rw [pow_succ', ← ih]
    rfl

theorem ofByte_double (a : UInt8) : ofByte (double a) = ofByte 2 * ofByte a := by
  change double a = mul (double 1) a
  rw [mul_double_left, one_mul]

/-- The 256th power of a byte is the byte itself. -/
theorem ofByte_pow_card (a : UInt8) : ofByte a ^ 2 ^ 8 = ofByte a := by
  induction a using byteInduction with
  | zero => exact zero_pow (by decide)
  | dbl a ih =>
    have h2 : ofByte 2 ^ 2 ^ 8 = ofByte 2 := by
      rw [← ofByte_pow]
      exact (by decide +kernel : pow 2 (2 ^ 8) = 2)
    rw [ofByte_double, mul_pow, h2, ih]
  | inc a ih =>
    -- In characteristic two the power of a sum is the sum of the powers.
    have h : (ofByte a + 1) ^ 2 ^ 8 = ofByte a ^ 2 ^ 8 + 1 ^ 2 ^ 8 := add_pow_char_pow _ _ _ _
    rwa [ih, one_pow] at h

/-- Inverting a byte twice changes nothing. -/
theorem pow_pow_254 (a : UInt8) : pow (pow a 254) 254 = a := by
  have h (n : Nat) : ofByte a ^ (255 * n + 1) = ofByte a := by
    induction n with
    | zero => exact pow_one _
    | succ n ih =>
      calc ofByte a ^ (255 * (n + 1) + 1)
          = ofByte a ^ (255 * n) * ofByte a ^ 2 ^ 8 := by rw [← pow_add]; rfl
        _ = ofByte a ^ (255 * n + 1) := by rw [ofByte_pow_card, pow_succ]
        _ = ofByte a := ih
  -- The square of 254 is one more than a multiple of 255.
  have hp : ofByte (pow (pow a 254) 254) = ofByte a := by
    rw [ofByte_pow, ofByte_pow, ← pow_mul]
    exact h 253
  exact hp

end GameWire.Aes
