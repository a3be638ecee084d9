import GameWire.Proofs.Body.RoundTrip
import GameWire.Proofs.Rsa.Recovery

/-!
# Ciphertexts in key blocks

A ciphertext has the size of its key's modulus and may begin or end with zeros.  A block with its
length gives it back as it is, and a block without a usable length gives it back without the zeros
at its front.  These are put back before it is decrypted, so the secret does not depend on which of
the two the sender does.
-/

namespace GameWire

namespace Bytes

/-- Zeros that are taken off the front of a byte string can be put back. -/
theorem zeros_append_dropWhile (bs : Bytes) :
    zeros (bs.length - (bs.dropWhile (· = 0)).length) ++ bs.dropWhile (· = 0) = bs := by
  induction bs with
  | nil => rfl
  | cons b bs ih =>
    by_cases hb : b = 0
    · have hle : (bs.dropWhile (· = 0)).length ≤ bs.length := (List.dropWhile_suffix _).length_le
      have hcount : bs.length + 1 - (bs.dropWhile (· = 0)).length =
          bs.length - (bs.dropWhile (· = 0)).length + 1 := by omega
      rw [List.dropWhile_cons_of_pos (by simpa using hb), List.length_cons, hcount, zeros,
        List.replicate_succ, List.cons_append, hb]
      exact congrArg (0 :: ·) ih
    · rw [List.dropWhile_cons_of_neg (by simpa using hb), Nat.sub_self]
      rfl

theorem dropWhile_zeros_append (count : Nat) (bs : Bytes) :
    (zeros count ++ bs).dropWhile (· = 0) = bs.dropWhile (· = 0) := by
  apply List.dropWhile_append_of_pos
  intro b hb
  simpa using List.eq_of_mem_replicate hb

end Bytes

namespace KeyBlock

/-- A ciphertext as it stands in a block, in front of the length. -/
def bodyOf (ciphertext : Bytes) : Bytes :=
  ciphertext.reverse ++ Bytes.zeros (capacity - ciphertext.length)

theorem length_bodyOf {ciphertext : Bytes} (hc : ciphertext.length ≤ capacity) :
    (bodyOf ciphertext).length = capacity := by
  rw [bodyOf, List.length_append, List.length_reverse, Bytes.length_zeros]
  omega

/-- A block without a usable length loses the zeros at the front of its ciphertext. -/
theorem decode_of_unusable {ciphertext : Bytes} (hc : ciphertext.length ≤ capacity) {stored : Nat}
    (hs : stored < 2 ^ 32) (hunusable : stored = 0 ∨ capacity < stored) :
    decode (bodyOf ciphertext ++ Bytes.le trailerLength stored) =
      ciphertext.dropWhile (· = 0) := by
  have hzeros (count : Nat) : (Bytes.zeros count).reverse = Bytes.zeros count :=
    List.reverse_replicate ..
  rw [decode_append_trailer (length_bodyOf hc) hs, if_neg (by omega), bodyOf, List.reverse_append,
    List.reverse_reverse, hzeros, Bytes.dropWhile_zeros_append]

end KeyBlock

namespace Rsa

def PrivateKey.decryption (k : PrivateKey) (ciphertext : Bytes) : Except ProtocolError Bytes :=
  (k.decrypt? ciphertext).elim (.error (.handshake .rsaDecryption)) .ok

variable {k : PrivateKey} {ciphertext : Bytes} (hc : ciphertext.length = k.size)
include hc

/-- Nothing is put in front of a ciphertext that has its full size. -/
theorem PrivateKey.recover_eq_decryption : k.recover ciphertext = k.decryption ciphertext := by
  have hwhole : Bytes.zeros (k.size - ciphertext.length) ++ ciphertext = ciphertext := by
    rw [hc, Nat.sub_self]
    rfl
  unfold recover decryption
  rw [if_neg (by omega), hwhole]
  cases k.decrypt? ciphertext with
  | none => rfl
  | some secret => rfl

/-- A ciphertext that has lost the zeros at its front is decrypted as it was. -/
theorem PrivateKey.recover_dropWhile :
    k.recover (ciphertext.dropWhile (· = 0)) = k.recover ciphertext := by
  have hle : (ciphertext.dropWhile (· = 0)).length ≤ ciphertext.length :=
    (List.dropWhile_suffix _).length_le
  unfold recover
  rw [if_neg (by omega), if_neg (by omega), ← hc, Bytes.zeros_append_dropWhile, Nat.sub_self]
  rfl

end Rsa

/-- A ciphertext of the size of its key is decrypted to the same result out of every key block that
holds it: one with its length, one with no length, and one whose length is larger than a block. -/
theorem Rsa.PrivateKey.recover_decode (k : PrivateKey) (hk : k.size ≤ KeyBlock.capacity)
    {ciphertext : Bytes} (hc : ciphertext.length = k.size) :
    (∃ block, KeyBlock.encode ciphertext = .ok block ∧
      block = KeyBlock.bodyOf ciphertext ++ Bytes.le KeyBlock.trailerLength ciphertext.length ∧
      k.recover (KeyBlock.decode block) = k.decryption ciphertext) ∧
    ∀ stored, stored = 0 ∨ KeyBlock.capacity < stored ∧ stored < 2 ^ 32 →
      k.recover (KeyBlock.decode
          (KeyBlock.bodyOf ciphertext ++ Bytes.le KeyBlock.trailerLength stored)) =
        k.decryption ciphertext := by
  have hfits : ciphertext.length ≤ KeyBlock.capacity := hc ▸ hk
  constructor
  · obtain ⟨block, hblock, -⟩ := KeyBlock.exists_encode hfits
    refine ⟨block, hblock, ?_, ?_⟩
    · unfold KeyBlock.encode at hblock
      rw [if_pos hfits] at hblock
      cases hblock
      rfl
    · rw [KeyBlock.decode_encode hblock, recover_eq_decryption hc]
  · intro stored hstored
    have hs : stored < 2 ^ 32 := by omega
    have hunusable : stored = 0 ∨ KeyBlock.capacity < stored := hstored.imp_right And.left
    rw [KeyBlock.decode_of_unusable hfits hs hunusable, recover_dropWhile hc,
      recover_eq_decryption hc]

theorem Rsa.PrivateKey.recover_decode_zeros :
    let k := Rsa.mersennePrivate
    let ciphertext : Bytes := 0 :: 0 :: 7 :: Bytes.zeros 16
    k.size ≤ KeyBlock.capacity ∧ ciphertext.length = k.size ∧
      (∃ block, KeyBlock.encode ciphertext = .ok block ∧
        block = KeyBlock.bodyOf ciphertext ++ Bytes.le KeyBlock.trailerLength 19 ∧
        k.recover (KeyBlock.decode block) = k.decryption ciphertext) ∧
      ∀ stored ∈ [0, 0x101, 2 ^ 32 - 1], k.recover (KeyBlock.decode
          (KeyBlock.bodyOf ciphertext ++ Bytes.le KeyBlock.trailerLength stored)) =
        k.decryption ciphertext := by
  intro k ciphertext
  have hk : k.size ≤ KeyBlock.capacity := by decide
  have hc : ciphertext.length = k.size := by decide
  obtain ⟨hown, hother⟩ := k.recover_decode hk hc
  refine ⟨hk, hc, hown, fun stored hs => hother stored ?_⟩
  have hbounds : ∀ stored ∈ [0, 0x101, 2 ^ 32 - 1],
      stored = 0 ∨ KeyBlock.capacity < stored ∧ stored < 2 ^ 32 := by decide
  exact hbounds stored hs

end GameWire
