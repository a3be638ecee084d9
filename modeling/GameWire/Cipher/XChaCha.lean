import GameWire.Cipher.ChaCha20

/-!
# XChaCha20-Poly1305

The tag of a message is a polynomial in a secret number `r`, with the pieces of the message as its
coefficients, modulo the prime 2¹³⁰ − 5, and with a second secret number added to it. The cipher is
ChaCha20 with a nonce of 24 bytes: the first 16 of them turn the key into a subkey and the others
are the nonce proper. The first block of key stream is the key of the tag, which stands behind the
encrypted text.
-/

namespace GameWire

namespace Poly1305

def modulus : Nat := 2 ^ 130 - 5

/-- The first secret number, with the bits cleared that must not be set. -/
def clamp (r : Nat) : Nat := r &&& 0x0FFFFFFC0FFFFFFC0FFFFFFC0FFFFFFF

/-- The coefficient of a piece of the message: the piece with a one put behind it. -/
def coefficient (piece : Bytes) : Nat :=
  Bytes.ofLE (piece ++ [1])

/-- The tag of a message under a key of 32 bytes. -/
def tag (key message : Bytes) : Bytes :=
  let r := clamp (Bytes.ofLE (key.take 16))
  let s := Bytes.ofLE (key.drop 16)
  let value := (Bytes.chunks 16 message).foldl (fun acc piece =>
    (acc + coefficient piece) * r % modulus) 0
  Bytes.le 16 (value + s)

@[simp] theorem length_tag (key message : Bytes) : (tag key message).length = 16 := by
  simp [tag]

end Poly1305

namespace XChaCha

def nonceLength : Nat := 24

def tagLength : Nat := 16

/-- The key and the nonce that a text is encrypted with. -/
def expand (key nonce : Bytes) : Bytes × Bytes :=
  (ChaCha20.subkey key (nonce.take 16), Bytes.zeros 4 ++ nonce.drop 16)

/-- The tag of an encrypted text, which is filled up and followed by its length. -/
def tagOf (key nonce ciphertext : Bytes) : Bytes :=
  let filling := Bytes.zeros ((16 - ciphertext.length % 16) % 16)
  Poly1305.tag ((ChaCha20.block key nonce 0).take 32)
    (ciphertext ++ filling ++ Bytes.le 8 0 ++ Bytes.le 8 ciphertext.length)

def encrypt (key nonce text : Bytes) : Bytes :=
  let (key, nonce) := expand key nonce
  let ciphertext := ChaCha20.apply key nonce 1 text
  ciphertext ++ tagOf key nonce ciphertext

def decrypt? (key nonce sealed : Bytes) : Option Bytes :=
  let (key, nonce) := expand key nonce
  let length := sealed.length - tagLength
  let ciphertext := sealed.take length
  if tagLength ≤ sealed.length ∧ sealed.drop length = tagOf key nonce ciphertext then
    some (ChaCha20.apply key nonce 1 ciphertext)
  else none

end XChaCha

end GameWire
