import GameWire.Cipher.XChaCha
import GameWire.Proofs.Bytes

/-!
# XChaCha20-Poly1305 decrypted

The key stream depends on the key and the nonce only, so a text that goes under it twice comes out
as it was.
-/

namespace GameWire

namespace ChaCha20

/-! ## The key stream -/

@[simp] theorem length_bytesOf (ws : List UInt32) : (bytesOf ws).length = 4 * ws.length := by
  induction ws with
  | nil => rfl
  | cons w ws ih =>
    show (Bytes.le 4 w.toNat ++ bytesOf ws).length = _
    rw [List.length_append, Bytes.length_le, ih, List.length_cons, Nat.mul_succ, Nat.add_comm]

theorem length_block (key nonce : Bytes) (counter : Nat) :
    (block key nonce counter).length = 64 := by
  unfold block
  rw [length_bytesOf, Vector.length_toList]

theorem apply_nil (key nonce : Bytes) (counter : Nat) : apply key nonce counter [] = [] := by
  unfold apply
  rw [Bytes.chunks_nil]
  rfl

/-- A text goes under the key stream block by block. -/
theorem apply_eq_append (key nonce : Bytes) (counter : Nat) {text : Bytes} (ht : text ≠ []) :
    apply key nonce counter text =
      Bytes.xor (text.take 64) (block key nonce counter) ++
        apply key nonce (counter + 1) (text.drop 64) := by
  unfold apply
  rw [Bytes.chunks_eq_cons (by decide) ht, List.mapIdx_cons, List.flatten_cons]
  simp only [Nat.add_zero, Nat.add_assoc, Nat.add_comm 1]

theorem length_take_xor_block (key nonce : Bytes) (counter : Nat) (text : Bytes) :
    (Bytes.xor (text.take 64) (block key nonce counter)).length = min 64 text.length := by
  rw [Bytes.length_xor, length_block, List.length_take]
  omega

theorem length_apply (key nonce : Bytes) (counter : Nat) (text : Bytes) :
    (apply key nonce counter text).length = text.length := by
  induction hn : text.length using Nat.strongRecOn generalizing counter text with
  | ind n ih =>
    by_cases ht : text = []
    · rw [ht, apply_nil, ← hn, ht]
    · have hpos := List.length_pos_iff.2 ht
      have hd : (text.drop 64).length = n - 64 := by rw [List.length_drop, hn]
      rw [apply_eq_append _ _ _ ht, List.length_append, length_take_xor_block,
        ih (n - 64) (by omega) _ _ hd]
      omega

/-- A text that goes under the key stream twice comes out as it was. -/
theorem apply_apply (key nonce : Bytes) (counter : Nat) (text : Bytes) :
    apply key nonce counter (apply key nonce counter text) = text := by
  induction hn : text.length using Nat.strongRecOn generalizing counter text with
  | ind n ih =>
    by_cases ht : text = []
    · rw [ht, apply_nil, apply_nil]
    · have hpos := List.length_pos_iff.2 ht
      have hne : apply key nonce counter text ≠ [] :=
        List.length_pos_iff.1 (by rw [length_apply]; exact hpos)
      have hlen := length_take_xor_block key nonce counter text
      have hrest := ih (text.drop 64).length (by rw [List.length_drop]; omega) (counter + 1)
        (text.drop 64) rfl
      rw [apply_eq_append _ _ _ hne, apply_eq_append _ _ _ ht]
      -- The first block is whole unless it is the last.
      by_cases hw : 64 ≤ text.length
      · rw [Nat.min_eq_left hw] at hlen
        rw [List.take_left' hlen, List.drop_left' hlen, hrest, Bytes.xor_xor_cancel,
          List.take_append_drop]
        rw [length_block, List.length_take]
        exact Nat.min_le_left _ _
      · have hd : text.drop 64 = [] := List.drop_of_length_le (by omega)
        rw [hd, apply_nil, List.append_nil, List.take_of_length_le (by omega),
          List.drop_of_length_le (by omega), apply_nil, List.append_nil, Bytes.xor_xor_cancel,
          List.take_of_length_le (by omega)]
        rw [length_block, List.length_take]
        exact Nat.min_le_left _ _

end ChaCha20

namespace XChaCha

/-! ## Texts with their tags -/

theorem length_encrypt (key nonce text : Bytes) :
    (encrypt key nonce text).length = text.length + tagLength := by
  show (ChaCha20.apply _ _ 1 text ++ tagOf _ _ _).length = _
  rw [List.length_append, ChaCha20.length_apply]
  exact congrArg (text.length + ·) (Poly1305.length_tag _ _)

/-- What was encrypted is decrypted with the same key and the same nonce. -/
theorem decrypt?_encrypt (key nonce text : Bytes) :
    decrypt? key nonce (encrypt key nonce text) = some text := by
  obtain ⟨k, n, hx⟩ : ∃ k n, expand key nonce = (k, n) := ⟨_, _, rfl⟩
  have hl := length_encrypt key nonce text
  have hcut : (encrypt key nonce text).length - tagLength = (ChaCha20.apply k n 1 text).length := by
    rw [hl, ChaCha20.length_apply, Nat.add_sub_cancel]
  have he : encrypt key nonce text =
      ChaCha20.apply k n 1 text ++ tagOf k n (ChaCha20.apply k n 1 text) := by
    unfold encrypt
    rw [hx]
  unfold decrypt?
  rw [hx]
  simp only [hcut]
  rw [he, List.take_left, List.drop_left, ChaCha20.apply_apply, if_pos]
  refine ⟨?_, rfl⟩
  rw [← he, hl]
  omega

end XChaCha

end GameWire
