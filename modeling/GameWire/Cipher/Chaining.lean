import GameWire.Cipher.Aes

/-!
# AES-256 in chaining mode

A text is filled up to whole blocks, each byte of the filling being its length. Every block is
combined with the encryption of the one before it, and the first with a random block.
-/

namespace GameWire.Chaining

def blockLength : Nat := 16

/-- A text with its filling, which is never empty. -/
def fill (text : Bytes) : Bytes :=
  let count := blockLength - text.length % blockLength
  text ++ List.replicate count (UInt8.ofNat count)

/-- The text without its filling, if the filling is right. -/
def unfill? (filled : Bytes) : Option Bytes :=
  -- The last byte tells how long the filling is, and all of its bytes must agree.
  let count := (filled.getLast?.getD 0).toNat
  let length := filled.length - count
  if 1 ≤ count ∧ count ≤ blockLength ∧ count ≤ filled.length ∧
      (filled.drop length).all (·.toNat = count) then some (filled.take length)
  else none

theorem unfill?_fill (text : Bytes) : unfill? (fill text) = some text := by
  have hm : text.length % 16 < 16 := Nat.mod_lt _ (by decide)
  have hc : (UInt8.ofNat (16 - text.length % 16)).toNat = 16 - text.length % 16 := by
    rw [UInt8.toNat_ofNat']
    omega
  have hl : (fill text).getLast?.getD 0 = UInt8.ofNat (16 - text.length % 16) := by
    have hne : 16 - text.length % 16 ≠ 0 := by omega
    simp [fill, blockLength, List.getLast?_append, List.getLast?_replicate, hne]
  simp only [unfill?, hl, hc]
  simp only [fill, blockLength, List.length_append, List.length_replicate, Nat.add_sub_cancel,
    List.drop_left, List.take_left, List.all_replicate]
  rw [if_pos]
  refine ⟨by omega, by omega, by omega, ?_⟩
  simp [hc]

/-- Blocks, each encrypted together with the encryption of the one before. -/
def chain (keys : List Bytes) (previous : Bytes) : List Bytes → List Bytes
  | [] => []
  | block :: blocks =>
    let out := Aes.encryptBlock keys (Bytes.xor block previous)
    out :: chain keys out blocks

/-- The blocks that others are the chained encryption of. -/
def unchain (keys : List Bytes) (previous : Bytes) : List Bytes → List Bytes
  | [] => []
  | block :: blocks =>
    Bytes.xor (Aes.decryptBlock keys block) previous :: unchain keys block blocks

/-- A text, encrypted under a key of 32 bytes with a random block of 16. -/
def encrypt (key initial text : Bytes) : Bytes :=
  (chain (Aes.roundKeys key) initial (Bytes.chunks blockLength (fill text))).flatten

/-- The text of an encrypted one, if that has whole blocks and the filling is right. -/
def decrypt? (key initial ciphertext : Bytes) : Option Bytes :=
  if ciphertext.length % blockLength = 0 then
    unfill? (unchain (Aes.roundKeys key) initial (Bytes.chunks blockLength ciphertext)).flatten
  else none

end GameWire.Chaining
