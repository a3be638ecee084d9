import GameWire.Cipher.SessionCipher
import GameWire.Proofs.Cipher.Chaining
import GameWire.Proofs.Cipher.XChaCha

/-!
# Envelopes opened

`SessionCipher.Lawful` is what framing needs to know about a session cipher: an envelope can be cut
out of a stream by the length it announces, that length is within the cipher's bounds, and what is
in it is the frame that was sealed.  The ciphers of both suites are lawful.
-/

namespace GameWire

/-- What framing relies on. -/
structure SessionCipher.Lawful (c : SessionCipher) : Prop where
  openFrame_sealFrame {entropy : Entropy} {frame sealed : Bytes} :
    c.sealFrame entropy frame = .ok sealed → c.openFrame sealed = .ok frame
  sealedLength?_sealFrame {entropy : Entropy} {frame sealed : Bytes} (rest : Bytes) :
    c.sealFrame entropy frame = .ok sealed →
      c.sealedLength? (sealed ++ rest) = some sealed.length
  /-- The bounds that framing puts on announced lengths are kept. -/
  length_sealFrame {entropy : Entropy} {frame sealed : Bytes} :
    c.sealFrame entropy frame = .ok sealed →
      c.minSealedLength ≤ sealed.length ∧ sealed.length ≤ frame.length + c.maxOverhead
  /-- An announced length stands when more bytes come. -/
  sealedLength?_append {front : Bytes} {n : Nat} (rest : Bytes) :
    c.sealedLength? front = some n → c.sealedLength? (front ++ rest) = some n
  minSealedLength_pos : 0 < c.minSealedLength

namespace XChaCha

theorem sealFrame_eq_ok {key frame sealed : Bytes} {entropy : Entropy}
    (h : sealFrame key entropy frame = .ok sealed) :
    frame.length + overhead < 2 ^ 32 ∧
      sealed = Bytes.le 4 (frame.length + overhead) ++
        (entropy.take nonceLength ++ encrypt key (entropy.take nonceLength) frame) := by
  have hl : 4 + nonceLength + (encrypt key (entropy.take nonceLength) frame).length =
      frame.length + overhead := by
    rw [length_encrypt, overhead]
    omega
  unfold sealFrame at h
  simp only [hl] at h
  by_cases ht : frame.length + overhead < 2 ^ 32
  · rw [if_pos ht] at h
    cases h
    exact ⟨ht, List.append_assoc _ _ _⟩
  · rw [if_neg ht] at h
    cases h

theorem length_sealFrame {key frame sealed : Bytes} {entropy : Entropy}
    (h : sealFrame key entropy frame = .ok sealed) : sealed.length = frame.length + overhead := by
  rw [(sealFrame_eq_ok h).2, List.length_append, List.length_append, Bytes.length_le,
    Entropy.length_take, length_encrypt, overhead]
  omega

theorem openFrame_sealFrame {key frame sealed : Bytes} {entropy : Entropy}
    (h : sealFrame key entropy frame = .ok sealed) : openFrame key sealed = .ok frame := by
  have hl := length_sealFrame h
  have hn : (entropy.take nonceLength).length = nonceLength := Entropy.length_take _ _
  -- Behind the length stand the nonce and the text with its tag.
  have hd : sealed.drop 4 =
      entropy.take nonceLength ++ encrypt key (entropy.take nonceLength) frame := by
    rw [(sealFrame_eq_ok h).2]
    exact List.drop_left' (Bytes.length_le _ _)
  unfold openFrame
  rw [if_neg (by omega), hd]
  simp only [List.take_left' hn, List.drop_left' hn, decrypt?_encrypt]

theorem cipher_lawful (key : Bytes) : (cipher key).Lawful where
  openFrame_sealFrame := openFrame_sealFrame
  sealedLength?_sealFrame rest h := by
    have hl := length_sealFrame h
    obtain ⟨ht, he⟩ := sealFrame_eq_ok h
    rw [hl, he, List.append_assoc]
    exact Bytes.u32At?_append [] _ ht
  length_sealFrame h := by
    have hl := length_sealFrame h
    exact ⟨by rw [hl]; exact Nat.le_add_left _ _, Nat.le_of_eq hl⟩
  sealedLength?_append rest h := Bytes.u32At?_append_of_eq_some h rest
  minSealedLength_pos := (by decide : 0 < overhead)

end XChaCha

namespace Chaining

theorem length_encrypt_bounds {key initial : Bytes} (hkey : key.length = 32)
    (hinitial : initial.length = 16) (frame : Bytes) :
    blockLength ≤ (encrypt key initial frame).length ∧
      (encrypt key initial frame).length ≤ frame.length + blockLength := by
  rw [length_encrypt hkey hinitial, blockLength]
  omega

/-- In front of its length an envelope has two digests and the magic bytes, and behind it the random
block and the ciphertext. -/
theorem sealFrame_eq_ok {key frame sealed : Bytes} {entropy : Entropy}
    (h : sealFrame key entropy frame = .ok sealed) :
    let initial := entropy.take blockLength
    let total := headLength + (encrypt key initial frame).length
    total < 2 ^ 32 ∧ ∃ front : Bytes, front.length = lengthOffset ∧
      sealed = front ++ (Bytes.le 4 total ++ (initial ++ encrypt key initial frame)) := by
  intro initial total
  unfold sealFrame at h
  by_cases ht : total < 2 ^ 32
  · rw [if_pos ht] at h
    cases h
    have hfront (a b : Bytes) :
        (Sha256.digest a ++ Sha256.digest b ++ magic).length = lengthOffset := by
      rw [List.length_append, List.length_append, Sha256.length_digest, Sha256.length_digest]
      rfl
    exact ⟨ht, _, hfront _ _, congrArg (_ ++ ·) (List.append_assoc _ _ _)⟩
  · rw [if_neg ht] at h
    cases h

theorem length_sealFrame {key frame sealed : Bytes} {entropy : Entropy}
    (h : sealFrame key entropy frame = .ok sealed) :
    sealed.length = headLength + (encrypt key (entropy.take blockLength) frame).length := by
  obtain ⟨-, front, hf, he⟩ := sealFrame_eq_ok h
  rw [he, List.length_append, hf, List.length_append, Bytes.length_le, List.length_append,
    Entropy.length_take, lengthOffset, headLength, blockLength]
  omega

theorem openFrame_sealFrame {key frame sealed : Bytes} (hkey : key.length = 32)
    {entropy : Entropy} (h : sealFrame key entropy frame = .ok sealed) :
    openFrame key sealed = .ok frame := by
  have hinitial : (entropy.take blockLength).length = blockLength := Entropy.length_take _ _
  have hbounds := length_encrypt_bounds hkey hinitial frame
  have hl := length_sealFrame h
  obtain ⟨-, front, hf, he⟩ := sealFrame_eq_ok h
  rw [← List.append_assoc, ← List.append_assoc] at he
  have hfront : (front ++ Bytes.le 4 (headLength +
      (encrypt key (entropy.take blockLength) frame).length)).length = initialOffset := by
    rw [List.length_append, hf, Bytes.length_le]
    rfl
  have hhead : (front ++ Bytes.le 4 (headLength +
      (encrypt key (entropy.take blockLength) frame).length) ++
        entropy.take blockLength).length = headLength := by
    rw [List.length_append, hfront, hinitial]
    rfl
  unfold openFrame
  rw [if_neg (by omega), he, List.drop_left' hhead, List.append_assoc, List.drop_left' hfront,
    List.take_left' hinitial, decrypt?_encrypt hkey hinitial]

theorem cipher_lawful {key : Bytes} (hkey : key.length = 32) : (cipher key).Lawful where
  openFrame_sealFrame := openFrame_sealFrame hkey
  sealedLength?_sealFrame rest h := by
    have hl := length_sealFrame h
    obtain ⟨ht, front, hf, he⟩ := sealFrame_eq_ok h
    rw [hl, he, List.append_assoc, List.append_assoc]
    show Bytes.u32At? lengthOffset _ = _
    rw [← hf]
    exact Bytes.u32At?_append front _ ht
  length_sealFrame {entropy frame sealed} h := by
    have hl := length_sealFrame h
    have hbounds := length_encrypt_bounds hkey (entropy.length_take blockLength) frame
    show headLength + blockLength ≤ _ ∧ _ ≤ _ + (headLength + blockLength)
    omega
  sealedLength?_append rest h := Bytes.u32At?_append_of_eq_some h rest
  minSealedLength_pos := (by decide : 0 < headLength + blockLength)

theorem length_keyOf (secret : Bytes) : (keyOf secret).length = 32 := by
  unfold keyOf
  split
  · rw [List.length_take, List.length_drop]
    omega
  · exact length_deriveKey secret

end Chaining

theorem CipherSuite.establish_eq_ok {suite : CipherSuite} {secret : Bytes} {cipher : SessionCipher}
    (h : suite.establish secret = .ok cipher) : secret ≠ [] ∧ cipher.Lawful := by
  cases secret with
  | nil => cases h
  | cons b bs =>
    refine ⟨List.cons_ne_nil b bs, ?_⟩
    cases suite with
    | xchacha =>
      cases h
      exact XChaCha.cipher_lawful _
    | aes =>
      cases h
      exact Chaining.cipher_lawful (Chaining.length_keyOf _)

/-- The most that an envelope adds to a frame, whatever the suite. -/
def mostOverhead : Nat := 104

/-- An envelope announces its length before it is longer than what it adds to a frame. -/
theorem CipherSuite.establish_within {suite : CipherSuite} {secret : Bytes} {cipher : SessionCipher}
    (h : suite.establish secret = .ok cipher) :
    cipher.maxOverhead ≤ mostOverhead ∧
      ∀ front, cipher.sealedLength? front = none → front.length < mostOverhead := by
  have hoffsets : 4 ≤ mostOverhead ∧ Chaining.lengthOffset + 4 ≤ mostOverhead := by decide
  cases secret with
  | nil => cases h
  | cons b bs =>
    cases suite with
    | xchacha =>
      cases h
      refine ⟨(by decide : XChaCha.overhead ≤ mostOverhead), fun front hnone => ?_⟩
      have hl := Bytes.length_lt_of_u32At?_eq_none hnone
      omega
    | aes =>
      cases h
      refine ⟨(by decide : Chaining.headLength + Chaining.blockLength ≤ mostOverhead),
        fun front hnone => ?_⟩
      have hl := Bytes.length_lt_of_u32At?_eq_none hnone
      omega

/-- The shortest envelope is that of the empty frame. -/
theorem CipherSuite.maxOverhead_le_minSealedLength {suite : CipherSuite} {secret : Bytes}
    {cipher : SessionCipher} (h : suite.establish secret = .ok cipher) :
    cipher.maxOverhead ≤ cipher.minSealedLength := by
  cases secret with
  | nil => cases h
  | cons b bs => cases suite <;> (cases h; exact Nat.le_refl _)

theorem CipherSuite.sealedLength?_nil {suite : CipherSuite} {secret : Bytes}
    {cipher : SessionCipher} (h : suite.establish secret = .ok cipher) :
    cipher.sealedLength? [] = none := by
  cases secret with
  | nil => cases h
  | cons b bs => cases suite <;> (cases h; rfl)

end GameWire
