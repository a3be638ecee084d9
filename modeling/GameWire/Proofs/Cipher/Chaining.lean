import GameWire.Cipher.Chaining
import GameWire.Proofs.Cipher.Aes

/-!
# Chained blocks decrypted

Each block is decrypted with the block in front of it, which the reader has, so decrypting follows
the encrypted blocks one by one.
-/

namespace GameWire.Chaining

variable {keys : List Bytes} {initial : Bytes}

theorem length_of_mem_chain (hk : ∀ key ∈ keys, key.length = 16) {previous : Bytes}
    (hp : previous.length = 16) {blocks : List Bytes} (hb : ∀ block ∈ blocks, block.length = 16) :
    ∀ out ∈ chain keys previous blocks, out.length = 16 := by
  induction blocks generalizing previous with
  | nil => intro out h; cases h
  | cons block blocks ih =>
    have hx : (Bytes.xor block previous).length = 16 :=
      Bytes.length_xor_of_length (hb block (List.mem_cons_self ..)) hp
    have hout := Aes.length_encryptBlock hk hx
    intro out h
    rcases List.mem_cons.1 h with rfl | h
    · exact hout
    · exact ih hout (fun b hmem => hb b (List.mem_cons_of_mem _ hmem)) out h

theorem length_chain (keys : List Bytes) (previous : Bytes) (blocks : List Bytes) :
    (chain keys previous blocks).length = blocks.length := by
  induction blocks generalizing previous with
  | nil => rfl
  | cons block blocks ih =>
    show (chain keys _ blocks).length + 1 = blocks.length + 1
    rw [ih]

theorem unchain_chain (hk : ∀ key ∈ keys, key.length = 16) {previous : Bytes}
    (hp : previous.length = 16) {blocks : List Bytes} (hb : ∀ block ∈ blocks, block.length = 16) :
    unchain keys previous (chain keys previous blocks) = blocks := by
  induction blocks generalizing previous with
  | nil => rfl
  | cons block blocks ih =>
    have hblock : block.length = 16 := hb block (List.mem_cons_self ..)
    have hx : (Bytes.xor block previous).length = 16 := Bytes.length_xor_of_length hblock hp
    show Bytes.xor (Aes.decryptBlock keys (Aes.encryptBlock keys (Bytes.xor block previous)))
      previous :: unchain keys _ (chain keys _ blocks) = block :: blocks
    rw [Aes.decryptBlock_encryptBlock hk hx, Bytes.xor_xor_cancel (by rw [hblock, hp]),
      ih (Aes.length_encryptBlock hk hx) fun b hmem => hb b (List.mem_cons_of_mem _ hmem)]

/-- The filling makes whole blocks, at most one more than the text needs. -/
theorem length_fill (text : Bytes) :
    (fill text).length = blockLength * (text.length / blockLength + 1) := by
  unfold fill blockLength
  rw [List.length_append, List.length_replicate]
  omega

theorem length_of_mem_chunks_fill {text block : Bytes}
    (hb : block ∈ Bytes.chunks blockLength (fill text)) : block.length = 16 :=
  Bytes.length_of_mem_chunks (by decide) ⟨_, length_fill text⟩ hb

variable {key : Bytes} (hkey : key.length = 32) (hinitial : initial.length = 16)
include hkey hinitial

theorem length_encrypt (text : Bytes) :
    (encrypt key initial text).length = blockLength * (text.length / blockLength + 1) := by
  have hpiece : ∀ block ∈ Bytes.chunks blockLength (fill text), block.length = 16 :=
    fun block hb => length_of_mem_chunks_fill hb
  have hblocks := Bytes.length_flatten_of_length hpiece
  rw [Bytes.flatten_chunks, length_fill] at hblocks
  unfold encrypt
  rw [Bytes.length_flatten_of_length (length_of_mem_chain (Aes.length_of_mem_roundKeys hkey)
    hinitial hpiece), length_chain, ← hblocks]

/-- What was encrypted is decrypted with the same key and the same random block. -/
theorem decrypt?_encrypt (text : Bytes) :
    decrypt? key initial (encrypt key initial text) = some text := by
  have hk := Aes.length_of_mem_roundKeys hkey
  have hb : ∀ block ∈ Bytes.chunks blockLength (fill text), block.length = 16 :=
    fun block h => length_of_mem_chunks_fill h
  have hpieces : Bytes.chunks blockLength (encrypt key initial text) =
      chain (Aes.roundKeys key) initial (Bytes.chunks blockLength (fill text)) :=
    Bytes.chunks_flatten (by decide) (length_of_mem_chain hk hinitial hb)
  unfold decrypt?
  rw [if_pos (by rw [length_encrypt hkey hinitial, Nat.mul_mod_right]), hpieces,
    unchain_chain hk hinitial hb, Bytes.flatten_chunks]
  exact unfill?_fill text

end GameWire.Chaining
