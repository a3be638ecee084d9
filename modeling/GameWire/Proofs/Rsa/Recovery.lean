import Mathlib.FieldTheory.Finite.Basic
import Mathlib.NumberTheory.LucasLehmer
import GameWire.KeyExchange
import GameWire.Proofs.Bytes

/-!
# Secrets recovered

`Rsa.Matching` says that a private key belongs to a public key.  The exponents of such a pair undo
each other on every number below the modulus, a padded secret is such a number, and the padding
comes off again.
-/

namespace GameWire.Rsa

/-! ## Powers -/

theorem powMod_eq (base exponent modulus : Nat) :
    powMod base exponent modulus = base ^ exponent % modulus := by
  induction exponent using Nat.strongRecOn generalizing base with
  | ind n ih =>
    rw [powMod]
    by_cases hn : n = 0
    · rw [if_pos hn, hn, Nat.pow_zero]
    · rw [if_neg hn]
      have hroot : powMod (base * base % modulus) (n / 2) modulus =
          base ^ (2 * (n / 2)) % modulus := by
        rw [ih (n / 2) (by omega), ← Nat.pow_mod, ← Nat.pow_two, Nat.pow_mul]
      simp only [hroot]
      by_cases hodd : n % 2 = 1
      · have he : base * base ^ (2 * (n / 2)) = base ^ n := by
          rw [← Nat.pow_succ']
          exact congrArg (base ^ ·) (by omega)
        rw [if_pos hodd, Nat.mul_mod, Nat.mod_mod, ← Nat.mul_mod, he]
      · rw [if_neg hodd]
        exact congrArg (base ^ · % modulus) (by omega)

/-- A private key belongs to a public key.  Both have the product of the same two primes for their
modulus, and with respect to each of the primes their exponents undo each other. -/
structure Matching (pub : PublicKey) (priv : PrivateKey) : Prop where
  modulus_eq : priv.modulus = pub.modulus
  exponent_eq : priv.publicExponent = pub.exponent
  primes : ∃ p q : Nat, p.Prime ∧ q.Prime ∧ p ≠ q ∧ pub.modulus = p * q ∧
    pub.exponent * priv.exponent % (p - 1) = 1 ∧ pub.exponent * priv.exponent % (q - 1) = 1

/-- An exponent that is one more than a multiple of `p - 1` changes nothing modulo a prime `p`. -/
theorem pow_modEq_of_mod_eq_one {p : Nat} (hp : p.Prime) {n : Nat} (hn : n % (p - 1) = 1)
    (m : Nat) : m ^ n ≡ m [MOD p] := by
  have hsplit : n = (p - 1) * (n / (p - 1)) + 1 := by
    have h := Nat.div_add_mod n (p - 1)
    omega
  -- Fermat's theorem says nothing about multiples of the prime, but their powers are multiples too.
  by_cases hd : p ∣ m
  · have hz : m ≡ 0 [MOD p] := (Nat.modEq_zero_iff_dvd).2 hd
    have hpow : m ^ n ≡ 0 [MOD p] :=
      (Nat.modEq_zero_iff_dvd).2 (dvd_pow hd (by omega))
    exact hpow.trans hz.symm
  · have hc : Nat.Coprime m p := ((Nat.Prime.coprime_iff_not_dvd hp).2 hd).symm
    have hfermat : m ^ (p - 1) ≡ 1 [MOD p] := by
      have h := Nat.ModEq.pow_totient hc
      rwa [Nat.totient_prime hp] at h
    calc m ^ n = (m ^ (p - 1)) ^ (n / (p - 1)) * m := by
          rw [← Nat.pow_mul, ← Nat.pow_succ]
          exact congrArg (m ^ ·) hsplit
      _ ≡ 1 ^ (n / (p - 1)) * m [MOD p] := (hfermat.pow _).mul_right m
      _ = m := by rw [Nat.one_pow, Nat.one_mul]

/-- The exponents of matching keys undo each other below the modulus. -/
theorem powMod_powMod {pub : PublicKey} {priv : PrivateKey} (hk : Matching pub priv) {m : Nat}
    (hm : m < pub.modulus) :
    powMod (powMod m pub.exponent pub.modulus) priv.exponent pub.modulus = m := by
  obtain ⟨p, q, hp, hq, hne, hn, hep, heq⟩ := hk.primes
  have hpq : Nat.Coprime p q := (Nat.coprime_primes hp hq).2 hne
  have h : m ^ (pub.exponent * priv.exponent) ≡ m [MOD p * q] :=
    (Nat.modEq_and_modEq_iff_modEq_mul hpq).1
      ⟨pow_modEq_of_mod_eq_one hp hep m, pow_modEq_of_mod_eq_one hq heq m⟩
  rw [powMod_eq, powMod_eq, ← Nat.pow_mod, ← Nat.pow_mul, hn]
  rw [hn] at hm
  exact Eq.trans h (Nat.mod_eq_of_lt hm)

/-! ## Padding -/

theorem length_pad? {size : Nat} {entropy : Entropy} {message padded : Bytes}
    (h : pad? size entropy message = some padded) :
    message.length + paddingLength ≤ size ∧ padded.length = size := by
  unfold pad? at h
  by_cases hl : message.length + paddingLength ≤ size
  · rw [if_pos hl] at h
    cases h
    refine ⟨hl, ?_⟩
    rw [paddingLength] at hl
    simp only [List.length_cons, List.length_append, List.length_map, Entropy.length_take]
    omega
  · rw [if_neg hl] at h
    cases h

/-- The padding ends with the first zero behind its random bytes. -/
theorem unpad?_pad? {size : Nat} {entropy : Entropy} {message padded : Bytes}
    (h : pad? size entropy message = some padded) : unpad? padded = some message := by
  have hl := (length_pad? h).1
  unfold pad? at h
  rw [if_pos hl] at h
  rw [paddingLength] at hl
  cases h
  generalize hr : (entropy.take (size - message.length - 3)).map (fun b => b % 255 + 1) = random
  have hlen : random.length = size - message.length - 3 := by
    rw [← hr, List.length_map, Entropy.length_take]
  have hnonzero : ∀ b ∈ random, b ≠ 0 := by
    intro b hb
    rw [← hr] at hb
    obtain ⟨c, -, rfl⟩ := List.mem_map.1 hb
    intro h
    have hv := congrArg UInt8.toNat h
    rw [UInt8.toNat_add, UInt8.toNat_mod] at hv
    change (c.toNat % 255 + 1) % 256 = 0 at hv
    omega
  have hdrop : (random ++ 0 :: message).dropWhile (· ≠ 0) = 0 :: message := by
    rw [List.dropWhile_append_of_pos (by simpa using hnonzero)]
    rfl
  simp only [unpad?, List.cons_append, hdrop]
  rw [if_pos]
  rw [List.length_append, List.length_cons]
  omega

/-! ## Keys -/

theorem two_pow_le_modulus {n : Nat} (hn : 0 < n) : 2 ^ (bitLength n - 1) ≤ n := by
  unfold bitLength
  rw [if_neg (by omega), Nat.add_sub_cancel]
  exact Nat.log2_self_le (by omega)

theorem lt_pow_sizeOf (n : Nat) : n < 256 ^ sizeOf n := by
  have hb : n < 2 ^ bitLength n := by
    unfold bitLength
    by_cases hn : n = 0
    · rw [hn]
      decide
    · rw [if_neg hn]
      exact Nat.lt_log2_self
  rw [show 256 = 2 ^ 8 by rfl, ← Nat.pow_mul]
  apply Nat.lt_of_lt_of_le hb
  apply Nat.pow_le_pow_right (by decide)
  unfold sizeOf
  omega

/-- A padded message is below the modulus, since its first byte is zero. -/
theorem ofBE_lt_modulus {n : Nat} (hn : 0 < n) {rest : Bytes} (hl : rest.length + 1 = sizeOf n) :
    Bytes.ofBE (0 :: rest) < n := by
  have hz : Bytes.ofBE (0 :: rest) = Bytes.ofBE rest := by
    rw [Bytes.ofBE_cons]
    exact Nat.zero_add _
  have hp : 256 ^ rest.length ≤ 2 ^ (bitLength n - 1) := by
    rw [show 256 = 2 ^ 8 by rfl, ← Nat.pow_mul]
    apply Nat.pow_le_pow_right (by decide)
    unfold sizeOf at hl
    omega
  rw [hz]
  exact Nat.lt_of_lt_of_le (Bytes.ofBE_lt rest) (hp.trans (two_pow_le_modulus hn))

theorem conceal_eq_ok {pub : PublicKey} {entropy : Entropy} {secret ciphertext : Bytes}
    (h : pub.conceal entropy secret = .ok ciphertext) :
    ∃ padded, pad? pub.size entropy secret = some padded ∧
      ciphertext = Bytes.be pub.size (powMod (Bytes.ofBE padded) pub.exponent pub.modulus) := by
  unfold PublicKey.conceal PublicKey.encrypt? at h
  cases hp : pad? pub.size entropy secret with
  | none => rw [hp] at h; cases h
  | some padded =>
    rw [hp] at h
    cases h
    exact ⟨padded, rfl, rfl⟩

/-- A secret that leaves room for the padding can be concealed. -/
theorem exists_conceal {pub : PublicKey} {secret : Bytes}
    (h : secret.length + paddingLength ≤ pub.size) (entropy : Entropy) :
    ∃ ciphertext, pub.conceal entropy secret = .ok ciphertext ∧ ciphertext.length = pub.size := by
  unfold PublicKey.conceal PublicKey.encrypt? pad?
  rw [if_pos h]
  exact ⟨_, rfl, Bytes.length_be _ _⟩

/-- The secret that was concealed with a public key is recovered with a matching private key. -/
theorem recover_conceal {pub : PublicKey} {priv : PrivateKey} (hk : Matching pub priv)
    {entropy : Entropy} {secret ciphertext : Bytes}
    (h : pub.conceal entropy secret = .ok ciphertext) : priv.recover ciphertext = .ok secret := by
  obtain ⟨padded, hpad, rfl⟩ := conceal_eq_ok h
  obtain ⟨hfits, hlen⟩ := length_pad? hpad
  obtain ⟨p, q, hp, hq, -, hn, -, -⟩ := hk.primes
  have hpos : 0 < pub.modulus := by rw [hn]; exact Nat.mul_pos hp.pos hq.pos
  have hsize : priv.size = pub.size := congrArg sizeOf hk.modulus_eq
  have hm : Bytes.ofBE padded < pub.modulus := by
    obtain ⟨rest, rfl⟩ : ∃ rest, padded = 0 :: rest := by
      unfold pad? at hpad
      rw [if_pos hfits] at hpad
      cases hpad
      exact ⟨_, rfl⟩
    exact ofBE_lt_modulus hpos hlen
  -- The ciphertext is as long as the modulus, so no digit of the number is lost.
  generalize hc : powMod (Bytes.ofBE padded) pub.exponent pub.modulus = c
  have hlt : c < pub.modulus := by rw [← hc, powMod_eq]; exact Nat.mod_lt _ hpos
  have hback : powMod c priv.exponent pub.modulus = Bytes.ofBE padded := by
    rw [← hc]
    exact powMod_powMod hk hm
  have hcode : Bytes.ofBE (Bytes.be pub.size c) = c := by
    have hs := lt_pow_sizeOf pub.modulus
    exact Bytes.ofBE_be (hlt.trans hs)
  have hdecrypt : priv.decrypt? (Bytes.be pub.size c) = some secret := by
    unfold PrivateKey.decrypt?
    simp only [hcode, hsize, hk.modulus_eq, hk.exponent_eq, hback, hc, Bytes.length_be]
    rw [if_pos ⟨trivial, by omega, hlt⟩, if_pos trivial, ← hlen, Bytes.be_ofBE]
    exact unpad?_pad? hpad
  unfold PrivateKey.recover
  rw [Bytes.length_be, hsize, if_neg (Nat.lt_irrefl _), Nat.sub_self]
  unfold Bytes.zeros
  rw [List.replicate_zero, List.nil_append, hdecrypt]

/-! ## A pair of keys -/

/-- A public key over two Mersenne primes. -/
def mersennePublic : PublicKey :=
  { modulus := (2 ^ 61 - 1) * (2 ^ 89 - 1), exponent := 65537 }

def mersennePrivate : PrivateKey where
  modulus := mersennePublic.modulus
  publicExponent := mersennePublic.exponent
  exponent := 0x87FF780087FF77F80807F770088FF770089

theorem matching_mersenne : Matching mersennePublic mersennePrivate where
  modulus_eq := rfl
  exponent_eq := rfl
  primes := by
    have hp : (mersenne 61).Prime := lucas_lehmer_sufficiency 61 (by norm_num) (by norm_num)
    have hq : (mersenne 89).Prime := lucas_lehmer_sufficiency 89 (by norm_num) (by norm_num)
    exact ⟨mersenne 61, mersenne 89, hp, hq, by decide, rfl, by decide, by decide⟩

end GameWire.Rsa
