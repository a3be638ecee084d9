import GameWire.Text.Utf8

/-!
# UTF-8 reads back

The bytes of one scalar take `scan` from one place between scalars to the next, so a text is read
back from its bytes.
-/

namespace GameWire.Utf8

/-! ## Continuation bytes -/

/-- The last continuation byte completes a scalar. -/
theorem scan_last {value low high d : Nat} (bs : Bytes) (hd : d < 64) (hlow : low ≤ d + 128)
    (hhigh : d + 128 ≤ high) :
    scan 1 value low high (UInt8.ofNat (d + 128) :: bs) =
      (scan 0 0 0 0 bs).map (Char.ofNat (value * 0x40 + d) :: ·) := by
  have hb : (UInt8.ofNat (d + 128)).toNat = d + 128 :=
    UInt8.toNat_ofNat_of_lt' (show d + 128 < 256 by omega)
  have hv : (d + 128) % 0x40 = d := by omega
  simp only [scan, hb, hv, hlow, hhigh, and_self, if_true]

/-- Any other continuation byte adds its six bits. -/
theorem scan_next {owed value low high d : Nat} (bs : Bytes) (hd : d < 64) (hlow : low ≤ d + 128)
    (hhigh : d + 128 ≤ high) :
    scan (owed + 2) value low high (UInt8.ofNat (d + 128) :: bs) =
      scan (owed + 1) (value * 0x40 + d) 0x80 0xBF bs := by
  have hb : (UInt8.ofNat (d + 128)).toNat = d + 128 :=
    UInt8.toNat_ofNat_of_lt' (show d + 128 < 256 by omega)
  have hv : (d + 128) % 0x40 = d := by omega
  have hne : ¬ owed + 1 = 0 := by omega
  simp only [scan, hb, hv, hlow, hhigh, and_self, if_true, hne, if_false]

/-- Two and three continuation bytes in a row; only the first one has a range of its own. -/
theorem scan_last_two {value low high d e : Nat} (bs : Bytes) (hd : d < 64) (he : e < 64)
    (hlow : low ≤ d + 128) (hhigh : d + 128 ≤ high) :
    scan 2 value low high (UInt8.ofNat (d + 128) :: UInt8.ofNat (e + 128) :: bs) =
      (scan 0 0 0 0 bs).map (Char.ofNat ((value * 0x40 + d) * 0x40 + e) :: ·) := by
  rw [scan_next _ hd hlow hhigh, scan_last _ he (by omega) (by omega)]

theorem scan_last_three {value low high d e f : Nat} (bs : Bytes) (hd : d < 64) (he : e < 64)
    (hf : f < 64) (hlow : low ≤ d + 128) (hhigh : d + 128 ≤ high) :
    scan 3 value low high
        (UInt8.ofNat (d + 128) :: UInt8.ofNat (e + 128) :: UInt8.ofNat (f + 128) :: bs) =
      (scan 0 0 0 0 bs).map (Char.ofNat (((value * 0x40 + d) * 0x40 + e) * 0x40 + f) :: ·) := by
  rw [scan_next _ hd hlow hhigh, scan_last_two _ he hf (by omega) (by omega)]

/-! ## One scalar -/

section Scalar

variable {n : Nat} (bs : Bytes)

theorem scan_one (hhigh : n ≤ 127) :
    scan 0 0 0 0 (UInt8.ofNat n :: bs) = (scan 0 0 0 0 bs).map (Char.ofNat n :: ·) := by
  have hb : (UInt8.ofNat n).toNat = n := UInt8.toNat_ofNat_of_lt' (show n < 256 by omega)
  have h₁ : n < 0x80 := by omega
  rw [scan]
  simp only [hb, h₁, if_true]

theorem scan_two (hlow : 127 < n) (hhigh : n ≤ 2047) :
    scan 0 0 0 0 (UInt8.ofNat (n / 64 % 32 + 192) :: UInt8.ofNat (n % 64 + 128) :: bs) =
      (scan 0 0 0 0 bs).map (Char.ofNat n :: ·) := by
  have hlead : n / 64 % 32 + 192 = n / 64 + 192 := by omega
  have hb : (UInt8.ofNat (n / 64 + 192)).toNat = n / 64 + 192 :=
    UInt8.toNat_ofNat_of_lt' (show n / 64 + 192 < 256 by omega)
  have h₁ : ¬ n / 64 + 192 < 0x80 := by omega
  have h₂ : ¬ n / 64 + 192 < 0xC2 := by omega
  have h₃ : n / 64 + 192 < 0xE0 := by omega
  have hv : (n / 64 + 192) % 0x20 * 0x40 + n % 64 = n := by omega
  rw [hlead, scan]
  simp only [hb, h₁, h₂, h₃, if_false, if_true]
  rw [scan_last _ (by omega) (by omega) (by omega), hv]

theorem scan_three (hlow : 2047 < n) (hhigh : n ≤ 65535) (hn : n < 0xD800 ∨ 0xDFFF < n) :
    scan 0 0 0 0 (UInt8.ofNat (n / 4096 % 16 + 224) :: UInt8.ofNat (n / 64 % 64 + 128) ::
        UInt8.ofNat (n % 64 + 128) :: bs) =
      (scan 0 0 0 0 bs).map (Char.ofNat n :: ·) := by
  have hlead : n / 4096 % 16 + 224 = n / 4096 + 224 := by omega
  have hb : (UInt8.ofNat (n / 4096 + 224)).toNat = n / 4096 + 224 :=
    UInt8.toNat_ofNat_of_lt' (show n / 4096 + 224 < 256 by omega)
  have h₁ : ¬ n / 4096 + 224 < 0x80 := by omega
  have h₂ : ¬ n / 4096 + 224 < 0xC2 := by omega
  have h₃ : ¬ n / 4096 + 224 < 0xE0 := by omega
  have h₆ : n / 4096 + 224 < 0xF0 := by omega
  have hv : (n / 4096 * 0x40 + n / 64 % 64) * 0x40 + n % 64 = n := by omega
  rw [hlead, scan]
  simp only [hb, h₁, h₂, h₃, h₆, if_false, if_true]
  -- The first range keeps out overlong forms, and the second one surrogates.
  by_cases h₄ : n / 4096 + 224 = 0xE0
  · have hz : n / 4096 = 0 := by omega
    rw [if_pos h₄, scan_last_two _ (by omega) (by omega) (by omega) (by omega), ← hz, hv]
  · rw [if_neg h₄]
    by_cases h₅ : n / 4096 + 224 = 0xED
    · have hz : n / 4096 = 0xD := by omega
      rw [if_pos h₅, scan_last_two _ (by omega) (by omega) (by omega) (by omega), ← hz, hv]
    · have hz : (n / 4096 + 224) % 0x10 = n / 4096 := by omega
      rw [if_neg h₅, scan_last_two _ (by omega) (by omega) (by omega) (by omega), hz, hv]

theorem scan_four (hlow : 65535 < n) (hhigh : n < 0x110000) :
    scan 0 0 0 0 (UInt8.ofNat (n / 262144 % 8 + 240) :: UInt8.ofNat (n / 4096 % 64 + 128) ::
        UInt8.ofNat (n / 64 % 64 + 128) :: UInt8.ofNat (n % 64 + 128) :: bs) =
      (scan 0 0 0 0 bs).map (Char.ofNat n :: ·) := by
  have hlead : n / 262144 % 8 + 240 = n / 262144 + 240 := by omega
  have hb : (UInt8.ofNat (n / 262144 + 240)).toNat = n / 262144 + 240 :=
    UInt8.toNat_ofNat_of_lt' (show n / 262144 + 240 < 256 by omega)
  have h₁ : ¬ n / 262144 + 240 < 0x80 := by omega
  have h₂ : ¬ n / 262144 + 240 < 0xC2 := by omega
  have h₃ : ¬ n / 262144 + 240 < 0xE0 := by omega
  have h₄ : ¬ n / 262144 + 240 = 0xE0 := by omega
  have h₅ : ¬ n / 262144 + 240 = 0xED := by omega
  have h₆ : ¬ n / 262144 + 240 < 0xF0 := by omega
  have hv : ((n / 262144 * 0x40 + n / 4096 % 64) * 0x40 + n / 64 % 64) * 0x40 + n % 64 = n := by
    omega
  rw [hlead, scan]
  simp only [hb, h₁, h₂, h₃, h₄, h₅, h₆, if_false]
  -- The smallest and the largest lead byte bound the byte behind them in their own way.
  by_cases h₇ : n / 262144 + 240 = 0xF0
  · have hz : n / 262144 = 0 := by omega
    rw [if_pos h₇,
      scan_last_three _ (by omega) (by omega) (by omega) (by omega) (by omega), ← hz, hv]
  · rw [if_neg h₇]
    by_cases h₈ : n / 262144 + 240 < 0xF4
    · have hz : (n / 262144 + 240) % 0x08 = n / 262144 := by omega
      rw [if_pos h₈,
        scan_last_three _ (by omega) (by omega) (by omega) (by omega) (by omega), hz, hv]
    · have hz : n / 262144 = 4 := by omega
      have h₉ : n / 262144 + 240 = 0xF4 := by omega
      rw [if_neg h₈, if_pos h₉,
        scan_last_three _ (by omega) (by omega) (by omega) (by omega) (by omega), ← hz, hv]

end Scalar

/-- The bytes of a scalar spell that scalar, whatever follows them. -/
theorem scan_utf8EncodeChar (c : Char) (bs : Bytes) :
    scan 0 0 0 0 (String.utf8EncodeChar c ++ bs) = (scan 0 0 0 0 bs).map (c :: ·) := by
  have hv : c.toNat < 0xD800 ∨ 0xDFFF < c.toNat ∧ c.toNat < 0x110000 := c.valid
  have hc : Char.ofNat c.toNat = c := Char.ofNat_toNat c
  unfold String.utf8EncodeChar
  change scan 0 0 0 0 ((if c.toNat ≤ 127 then _ else if c.toNat ≤ 2047 then _
    else if c.toNat ≤ 65535 then _ else _) ++ bs) = _
  by_cases h₁ : c.toNat ≤ 127
  · rw [if_pos h₁]
    exact (scan_one bs h₁).trans (by rw [hc])
  · rw [if_neg h₁]
    by_cases h₂ : c.toNat ≤ 2047
    · rw [if_pos h₂]
      exact (scan_two bs (by omega) h₂).trans (by rw [hc])
    · rw [if_neg h₂]
      by_cases h₃ : c.toNat ≤ 65535
      · rw [if_pos h₃]
        exact (scan_three bs (by omega) h₃ (by omega)).trans (by rw [hc])
      · rw [if_neg h₃]
        exact (scan_four (n := c.toNat) bs (by omega) (by omega)).trans (by rw [hc])

/-! ## Texts -/

theorem scan_flatMap_utf8EncodeChar (cs : List Char) :
    scan 0 0 0 0 (cs.flatMap String.utf8EncodeChar) = some cs := by
  induction cs with
  | nil => rfl
  | cons c cs ih => rw [List.flatMap_cons, scan_utf8EncodeChar, ih]; rfl

/-- A text is read back from its bytes. -/
theorem decode?_encode (s : String) : decode? (encode s) = some s := by
  unfold decode? encode
  rw [scan_flatMap_utf8EncodeChar]
  simp only [Option.map_some, String.ofList_toList]

end GameWire.Utf8
