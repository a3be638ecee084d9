import GameWire.Cipher.SessionCipher

/-!
# RSA

A message is padded to the size of the modulus, taken as a number, and raised to the public
exponent; the private exponent takes that back. The padding is two, random bytes other than zero,
and a zero, behind one more zero byte.
-/

namespace GameWire.Rsa

/-! ## Numbers -/

/-- `base ^ exponent % modulus`, by squaring. -/
def powMod (base exponent modulus : Nat) : Nat :=
  if exponent = 0 then 1 % modulus
  else
    let root := powMod (base * base % modulus) (exponent / 2) modulus
    if exponent % 2 = 1 then base * root % modulus else root
termination_by exponent
decreasing_by omega

def bitLength (n : Nat) : Nat :=
  if n = 0 then 0 else n.log2 + 1

/-! ## Keys -/

structure PublicKey where
  modulus : Nat
  exponent : Nat
  deriving DecidableEq, Repr

structure PrivateKey where
  modulus : Nat
  publicExponent : Nat
  exponent : Nat
  deriving DecidableEq, Repr

def sizeOf (modulus : Nat) : Nat := (bitLength modulus + 7) / 8

def PublicKey.size (k : PublicKey) : Nat := sizeOf k.modulus

def PrivateKey.size (k : PrivateKey) : Nat := sizeOf k.modulus

def maxModulusBits : Nat := 4096

/-- Whether a modulus and a public exponent are fit for use. -/
def isUsable (modulus exponent : Nat) : Bool :=
  bitLength modulus ≤ maxModulusBits && exponent < modulus && modulus % 2 == 1 &&
    exponent % 2 == 1 && 2 ≤ exponent && exponent < 2 ^ 33

/-! ## Padding -/

/-- What padding adds at least: two bytes in front, eight random ones, and the zero. -/
def paddingLength : Nat := 11

def pad? (size : Nat) (entropy : Entropy) (message : Bytes) : Option Bytes :=
  if message.length + paddingLength ≤ size then
    -- A zero would end the padding early, so the random bytes are 1 to 255.
    let random := (entropy.take (size - message.length - 3)).map fun b => b % 255 + 1
    some (0 :: 2 :: random ++ 0 :: message)
  else none

def unpad? : Bytes → Option Bytes
  | 0 :: 2 :: rest =>
    match rest.dropWhile (· ≠ 0) with
    | 0 :: message => if message.length + 9 ≤ rest.length then some message else none
    | _ => none
  | _ => none

/-! ## Encryption -/

/-- The encryption of a message, if it is short enough. -/
def PublicKey.encrypt? (k : PublicKey) (entropy : Entropy) (message : Bytes) : Option Bytes :=
  (pad? k.size entropy message).map fun padded =>
    Bytes.be k.size (powMod (Bytes.ofBE padded) k.exponent k.modulus)

/-- The message that a byte string of the key's size is the encryption of. -/
def PrivateKey.decrypt? (k : PrivateKey) (ciphertext : Bytes) : Option Bytes :=
  let c := Bytes.ofBE ciphertext
  if ciphertext.length = k.size ∧ paddingLength ≤ k.size ∧ c < k.modulus then
    let m := powMod c k.exponent k.modulus
    -- The two exponents must undo each other on this message.
    if powMod m k.publicExponent k.modulus = c then unpad? (Bytes.be k.size m) else none
  else none

end GameWire.Rsa
