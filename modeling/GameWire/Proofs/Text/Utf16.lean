import GameWire.Text.Utf16

/-!
# UTF-16 reads back

`scan` takes the units of one scalar off the front and yields that scalar, so a text is read back
from its units.  It takes nothing else, so the units that spell a text are those that the text is
written with.
-/

namespace GameWire.Utf16

/-! ## Classes of units -/

theorem isHigh_ofNat {n : Nat} (hn : n < 0x10000) :
    isHigh (UInt16.ofNat n) = decide (0xD800 ≤ n ∧ n ≤ 0xDBFF) := by
  have hu : (UInt16.ofNat n).toNat = n := UInt16.toNat_ofNat_of_lt' hn
  unfold isHigh
  rw [Bool.decide_and]
  congr 1 <;> rw [decide_eq_decide, UInt16.le_iff_toNat_le, hu] <;> rfl

theorem isLow_ofNat {n : Nat} (hn : n < 0x10000) :
    isLow (UInt16.ofNat n) = decide (0xDC00 ≤ n ∧ n ≤ 0xDFFF) := by
  have hu : (UInt16.ofNat n).toNat = n := UInt16.toNat_ofNat_of_lt' hn
  unfold isLow
  rw [Bool.decide_and]
  congr 1 <;> rw [decide_eq_decide, UInt16.le_iff_toNat_le, hu] <;> rfl

/-! ## One scalar -/

theorem toNat_valid (c : Char) :
    c.toNat < 0xD800 ∨ 0xDFFF < c.toNat ∧ c.toNat < 0x110000 :=
  c.valid

/-- The units of a scalar spell that scalar, whatever follows them. -/
theorem scan_unitsOf (c : Char) (us : List UInt16) :
    scan none (unitsOf c ++ us) = (scan none us).map (c :: ·) := by
  have hv := toNat_valid c
  by_cases hn : c.toNat < 0x10000
  · have hh : isHigh (UInt16.ofNat c.toNat) = false := by
      rw [isHigh_ofNat hn, decide_eq_false_iff_not]; omega
    have hl : isLow (UInt16.ofNat c.toNat) = false := by
      rw [isLow_ofNat hn, decide_eq_false_iff_not]; omega
    have hu : (UInt16.ofNat c.toNat).toNat = c.toNat := UInt16.toNat_ofNat_of_lt' hn
    simp only [unitsOf, if_pos hn, List.singleton_append, scan, hh, hl, hu, Bool.false_eq_true,
      if_false, Char.ofNat_toNat]
  · -- A pair holds ten bits of the scalar's distance from `0x10000` in each of its units.
    have hlt : 0xD800 + (c.toNat - 0x10000) / 0x400 < 0x10000 := by omega
    have llt : 0xDC00 + (c.toNat - 0x10000) % 0x400 < 0x10000 := by omega
    have hh : isHigh (UInt16.ofNat (0xD800 + (c.toNat - 0x10000) / 0x400)) = true := by
      rw [isHigh_ofNat hlt, decide_eq_true_eq]; omega
    have hl : isLow (UInt16.ofNat (0xDC00 + (c.toNat - 0x10000) % 0x400)) = true := by
      rw [isLow_ofNat llt, decide_eq_true_eq]; omega
    have hc : 0x10000 + (0xD800 + (c.toNat - 0x10000) / 0x400 - 0xD800) * 0x400 +
        (0xDC00 + (c.toNat - 0x10000) % 0x400 - 0xDC00) = c.toNat := by omega
    have hu : (UInt16.ofNat (0xD800 + (c.toNat - 0x10000) / 0x400)).toNat = _ :=
      UInt16.toNat_ofNat_of_lt' hlt
    have lu : (UInt16.ofNat (0xDC00 + (c.toNat - 0x10000) % 0x400)).toNat = _ :=
      UInt16.toNat_ofNat_of_lt' llt
    simp only [unitsOf, if_neg hn, List.cons_append, List.nil_append, scan, hh, hl, if_true, hu, lu,
      hc, Char.ofNat_toNat]

/-! ## Texts -/

theorem scan_flatMap_unitsOf (cs : List Char) : scan none (cs.flatMap unitsOf) = some cs := by
  induction cs with
  | nil => rfl
  | cons c cs ih => rw [List.flatMap_cons, scan_unitsOf, ih]; rfl

/-- A text is read back from its units. -/
theorem decode?_encode (s : String) : decode? (encode s) = some s := by
  unfold decode? encode
  rw [scan_flatMap_unitsOf]
  simp only [Option.map_some, String.ofList_toList]

/-! ## Units that spell a text -/

theorem isHigh_iff {u : UInt16} : isHigh u = true ↔ 0xD800 ≤ u.toNat ∧ u.toNat ≤ 0xDBFF := by
  have h := isHigh_ofNat u.toNat_lt
  rw [UInt16.ofNat_toNat] at h
  rw [h, decide_eq_true_eq]

theorem isLow_iff {u : UInt16} : isLow u = true ↔ 0xDC00 ≤ u.toNat ∧ u.toNat ≤ 0xDFFF := by
  have h := isLow_ofNat u.toNat_lt
  rw [UInt16.ofNat_toNat] at h
  rw [h, decide_eq_true_eq]

theorem toNat_ofNat_of_isValidChar {n : Nat} (h : n.isValidChar) : (Char.ofNat n).toNat = n := by
  rw [Char.ofNat, dif_pos h]
  rfl

theorem unitsOf_unit {u : UInt16} (hhigh : ¬isHigh u = true) (hlow : ¬isLow u = true) :
    unitsOf (Char.ofNat u.toNat) = [u] := by
  rw [isHigh_iff] at hhigh
  rw [isLow_iff] at hlow
  have hu := u.toNat_lt
  have hvalid : u.toNat.isValidChar := by
    unfold Nat.isValidChar
    omega
  simp only [unitsOf, toNat_ofNat_of_isValidChar hvalid, if_pos hu, UInt16.ofNat_toNat]

theorem unitsOf_pair {high low : UInt16} (hhigh : isHigh high = true) (hlow : isLow low = true) :
    unitsOf (Char.ofNat (0x10000 + (high.toNat - 0xD800) * 0x400 + (low.toNat - 0xDC00))) =
      [high, low] := by
  rw [isHigh_iff] at hhigh
  rw [isLow_iff] at hlow
  have hvalid : (0x10000 + (high.toNat - 0xD800) * 0x400 +
      (low.toNat - 0xDC00)).isValidChar := by
    unfold Nat.isValidChar
    omega
  have hh : 0xD800 + (0x10000 + (high.toNat - 0xD800) * 0x400 + (low.toNat - 0xDC00) - 0x10000) /
      0x400 = high.toNat := by omega
  have hl : 0xDC00 + (0x10000 + (high.toNat - 0xD800) * 0x400 + (low.toNat - 0xDC00) - 0x10000) %
      0x400 = low.toNat := by omega
  simp only [unitsOf, toNat_ofNat_of_isValidChar hvalid, hh, hl, UInt16.ofNat_toNat]
  rw [if_neg (by omega)]

/-- What `scan` has read is what the scalars that it found are written with. -/
theorem flatMap_unitsOf_of_scan {us : List UInt16} {pending : Option UInt16} {cs : List Char}
    (hpending : ∀ high ∈ pending, isHigh high = true) (h : scan pending us = some cs) :
    cs.flatMap unitsOf = pending.toList ++ us := by
  -- A high surrogate that waits is written back in front of the other units.
  induction us generalizing pending cs with
  | nil =>
    cases pending with
    | none => cases h; rfl
    | some high => cases h
  | cons u us ih =>
    cases pending with
    | none =>
      unfold scan at h
      by_cases hhigh : isHigh u = true
      · rw [if_pos hhigh] at h
        exact ih (by simpa using hhigh) h
      · rw [if_neg hhigh] at h
        by_cases hlow : isLow u = true
        · rw [if_pos hlow] at h
          cases h
        · rw [if_neg hlow] at h
          obtain ⟨rest, hrest, rfl⟩ := Option.map_eq_some_iff.1 h
          rw [List.flatMap_cons, unitsOf_unit hhigh hlow, ih (by simp) hrest]
          rfl
    | some high =>
      unfold scan at h
      by_cases hlow : isLow u = true
      · rw [if_pos hlow] at h
        obtain ⟨rest, hrest, rfl⟩ := Option.map_eq_some_iff.1 h
        rw [List.flatMap_cons, unitsOf_pair (hpending high rfl) hlow, ih (by simp) hrest]
        rfl
      · rw [if_neg hlow] at h
        cases h

theorem encode_of_decode? {us : List UInt16} {s : String} (h : decode? us = some s) :
    encode s = us := by
  obtain ⟨cs, hcs, rfl⟩ := Option.map_eq_some_iff.1 h
  unfold encode
  rw [String.toList_ofList]
  exact flatMap_unitsOf_of_scan (by simp) hcs

/-! ## NUL -/

theorem zero_eq_ofNat {n : Nat} (hn : n < 0x10000) : 0 = UInt16.ofNat n ↔ n = 0 := by
  rw [eq_comm, UInt16.ofNat_eq_iff_mod_eq_toNat, Nat.mod_eq_of_lt hn]
  rfl

theorem zero_mem_unitsOf {c : Char} : 0 ∈ unitsOf c ↔ c = '\x00' := by
  have hv := toNat_valid c
  have hc : c = '\x00' ↔ c.toNat = 0 := Char.toNat_inj.symm
  rw [hc]
  unfold unitsOf
  by_cases hn : c.toNat < 0x10000
  · simp only [if_pos hn, List.mem_singleton]
    exact zero_eq_ofNat hn
  · simp only [if_neg hn, List.mem_cons, List.not_mem_nil, or_false]
    rw [zero_eq_ofNat (by omega), zero_eq_ofNat (by omega)]
    omega

/-- A text has a NUL unit exactly where it has a NUL. -/
theorem zero_mem_encode {s : String} : 0 ∈ encode s ↔ '\x00' ∈ s.toList := by
  unfold encode
  rw [List.mem_flatMap]
  constructor
  · rintro ⟨c, hc, hzero⟩
    rwa [zero_mem_unitsOf.1 hzero] at hc
  · intro h
    exact ⟨_, h, zero_mem_unitsOf.2 rfl⟩

end GameWire.Utf16
