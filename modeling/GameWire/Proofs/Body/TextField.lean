import GameWire.Body.Layout
import GameWire.Proofs.Bytes
import GameWire.Proofs.Text.Utf16

/-!
# Text fields

A text is read from one field at the front of a body.  Such a field need not be one that was
written: its units may go on behind a NUL, and its padding may hold anything.  `read_eq_ok_iff` says
what a reading takes and yields, on all bodies.
-/

namespace GameWire

/-! ## Steps of a reader -/

namespace BodyReader

/-- A reader `r` becomes `r'` when it has taken the bytes `front`. -/
structure Advances (r : BodyReader) (front : Bytes) (r' : BodyReader) : Prop where
  rest_eq : r.rest = front ++ r'.rest
  context_eq : r'.context = r.context
  consumed_eq : r'.consumed = r.consumed + front.length

variable {r r' s : BodyReader} {front more : Bytes}

theorem Advances.exists_eq (h : r.Advances front r') :
    ∃ context consumed rest, r = ⟨context, consumed, front ++ rest⟩ ∧
      r' = ⟨context, consumed + front.length, rest⟩ := by
  obtain ⟨context, consumed, rest⟩ := r
  obtain ⟨context', consumed', rest'⟩ := r'
  obtain rfl : rest = front ++ rest' := h.rest_eq
  obtain rfl : context' = context := h.context_eq
  obtain rfl : consumed' = consumed + front.length := h.consumed_eq
  exact ⟨context', consumed, rest', rfl, rfl⟩

theorem Advances.eq_of_nil (h : r.Advances [] r') : r' = r := by
  obtain ⟨context, consumed, rest, rfl, rfl⟩ := h.exists_eq
  rfl

theorem Advances.trans (h : r.Advances front s) (h' : s.Advances more r') :
    r.Advances (front ++ more) r' where
  rest_eq := by rw [h.rest_eq, h'.rest_eq, List.append_assoc]
  context_eq := h'.context_eq.trans h.context_eq
  consumed_eq := by rw [h'.consumed_eq, h.consumed_eq, List.length_append, Nat.add_assoc]

theorem Advances.exists_between (h : r.Advances (front ++ more) r') :
    ∃ s, r.Advances front s ∧ s.Advances more r' := by
  refine ⟨⟨r.context, r.consumed + front.length, more ++ r'.rest⟩, ⟨?_, rfl, rfl⟩,
    ⟨rfl, h.context_eq, ?_⟩⟩
  · rw [h.rest_eq, List.append_assoc]
  · rw [h.consumed_eq, List.length_append, Nat.add_assoc]

/-- A step that leaves bytes alone leaves those behind them alone too. -/
theorem Advances.behind (h : r.Advances front r') (more : Bytes) :
    Advances { r with rest := r.rest ++ more } front { r' with rest := r'.rest ++ more } where
  rest_eq := by
    show r.rest ++ more = front ++ (r'.rest ++ more)
    rw [h.rest_eq, List.append_assoc]
  context_eq := h.context_eq
  consumed_eq := h.consumed_eq

theorem Advances.length_rest (h : r.Advances front r') :
    r.rest.length = front.length + r'.rest.length := by
  rw [h.rest_eq, List.length_append]

theorem bytes_eq_ok_iff {n : Nat} {bs : Bytes} :
    bytes n r = .ok bs r' ↔ bs.length = n ∧ r.Advances bs r' := by
  constructor
  · intro h
    unfold bytes at h
    by_cases hn : n ≤ r.rest.length
    · rw [if_pos hn] at h
      cases h
      have hlength : (r.rest.take n).length = n := List.length_take_of_le hn
      exact ⟨hlength, (List.take_append_drop n r.rest).symm, rfl, by rw [hlength]⟩
    · rw [if_neg hn] at h
      cases h
  · rintro ⟨rfl, h⟩
    obtain ⟨context, consumed, rest, rfl, rfl⟩ := h.exists_eq
    exact bytes_append context consumed bs rest

theorem skip_eq_ok_iff {n : Nat} :
    skip n r = .ok () r' ↔ ∃ gap : Bytes, gap.length = n ∧ r.Advances gap r' := by
  constructor
  · intro h
    obtain ⟨gap, s, hgap, hs⟩ := Reading.bind_eq_ok h
    cases hs
    exact ⟨gap, bytes_eq_ok_iff.1 hgap⟩
  · rintro ⟨gap, hgap⟩
    exact Reading.bind_ok (bytes_eq_ok_iff.2 hgap) _

theorem u32_eq_ok_iff {n : UInt32} :
    u32 r = .ok n r' ↔ r.Advances (Bytes.le 4 n.toNat) r' := by
  constructor
  · intro h
    obtain ⟨m, hm, rfl⟩ := Reading.map_eq_ok h
    obtain ⟨bs, s, hbs, hs⟩ := Reading.bind_eq_ok hm
    cases hs
    obtain ⟨hlength, hadvances⟩ := bytes_eq_ok_iff.1 hbs
    have hlt : Bytes.ofLE bs < 2 ^ 32 := by
      have := Bytes.ofLE_lt bs
      rwa [hlength] at this
    rwa [UInt32.toNat_ofNat_of_lt' hlt, ← hlength, Bytes.le_ofLE]
  · intro h
    obtain ⟨context, consumed, rest, rfl, rfl⟩ := h.exists_eq
    exact Layout.roundTrip_u32 n _ rfl context consumed rest

end BodyReader

namespace MaskedText

/-! ## Units in bytes -/

theorem length_bytesOfUnits (us : List UInt16) : (bytesOfUnits us).length = 2 * us.length := by
  induction us with
  | nil => rfl
  | cons u us ih =>
    show (Bytes.le 2 u.toNat ++ bytesOfUnits us).length = _
    rw [List.length_append, ih, Bytes.length_le, List.length_cons]
    omega

theorem unitsOfBytes_bytesOfUnits (us : List UInt16) : unitsOfBytes (bytesOfUnits us) = us := by
  induction us with
  | nil => rfl
  | cons u us ih =>
    have hu : Bytes.ofLE (Bytes.le 2 u.toNat) = u.toNat := Bytes.ofLE_le u.toNat_lt
    show UInt16.ofNat (Bytes.ofLE (Bytes.le 2 u.toNat)) :: unitsOfBytes (bytesOfUnits us) = _
    rw [hu, ih, UInt16.ofNat_toNat]

/-- No byte is dropped if there are two for each unit. -/
theorem bytesOfUnits_unitsOfBytes {bs : Bytes} (h : bs.length % 2 = 0) :
    bytesOfUnits (unitsOfBytes bs) = bs := by
  induction bs using unitsOfBytes.induct with
  | case1 a b bs ih =>
    have hlt : Bytes.ofLE [a, b] < 2 ^ 16 := by simpa using Bytes.ofLE_lt [a, b]
    have hunit : Bytes.le 2 (UInt16.ofNat (Bytes.ofLE [a, b])).toNat = [a, b] := by
      rw [UInt16.toNat_ofNat_of_lt' hlt]
      exact Bytes.le_ofLE [a, b]
    have hrest : bs.length % 2 = 0 := by
      simp only [List.length_cons] at h
      omega
    show Bytes.le 2 (UInt16.ofNat (Bytes.ofLE [a, b])).toNat ++ bytesOfUnits (unitsOfBytes bs) = _
    rw [hunit, ih hrest]
    rfl
  | case2 bs hbs =>
    cases bs with
    | nil => rfl
    | cons a bs =>
      cases bs with
      | nil => cases h
      | cons b bs => exact absurd rfl (hbs a b bs)

/-- The closing NUL ends a text without NULs, and nothing before it does. -/
theorem takeWhile_append_zero {us : List UInt16} (h : us.contains 0 = false) :
    (us ++ [0]).takeWhile (· ≠ 0) = us := by
  rw [List.takeWhile_append_of_pos]
  · simp
  · intro u hu
    have : u ≠ 0 := fun h0 => by simp [← h0, hu] at h
    simpa using this

-- The units with their NUL, and behind them the padding.
theorem bytesOfUnits_append_zeros (us : List UInt16) (pad : Nat) :
    bytesOfUnits us ++ Bytes.zeros (2 + pad) = bytesOfUnits (us ++ [0]) ++ Bytes.zeros pad := by
  have hz : bytesOfUnits [0] = Bytes.zeros 2 := by decide
  rw [bytesOfUnits, bytesOfUnits, List.flatMap_append, List.append_assoc]
  congr 1
  change Bytes.zeros (2 + pad) = bytesOfUnits [0] ++ Bytes.zeros pad
  rw [hz, Bytes.zeros, Bytes.zeros, Bytes.zeros, List.replicate_append_replicate]

/-! ## Fields -/

/-- A text field, written or not: a hidden count, the units that it counts, and half a word behind
an odd number of them. -/
structure Field (mask : LengthMask) where
  code : UInt32
  units : List UInt16
  padding : Bytes
  length_units : units.length = (mask.reveal code).toNat
  length_padding : padding.length = 2 * (units.length % 2)

namespace Field

variable {mask : LengthMask}

/-- The count that the first four bytes hide. -/
def count (f : Field mask) : Nat := (mask.reveal f.code).toNat

def bytes (f : Field mask) : Bytes :=
  Bytes.le 4 f.code.toNat ++ (bytesOfUnits f.units ++ f.padding)

theorem length_bytes (f : Field mask) : f.bytes.length = 4 + 2 * (f.count + f.count % 2) := by
  have hpadding := f.length_padding
  unfold bytes count
  rw [List.length_append, List.length_append, Bytes.length_le, length_bytesOfUnits, hpadding,
    f.length_units]
  omega

/-- A field spells a text if its units before the first NUL are those of the text. -/
def Spells (f : Field mask) (s : String) : Prop :=
  Utf16.encode s = f.units.takeWhile (· ≠ 0)

def empty (mask : LengthMask) : Field mask where
  code := mask.hide 0
  units := []
  padding := []
  length_units := by rw [LengthMask.reveal_hide]; rfl
  length_padding := rfl

/-- The field that is written for units, closed by a NUL that is counted with them. -/
def closed (mask : LengthMask) (us : List UInt16) (h : us.length + 1 < 2 ^ 32) : Field mask where
  code := mask.hide (UInt32.ofNat (us.length + 1))
  units := us ++ [0]
  padding := Bytes.zeros (2 * ((us.length + 1) % 2))
  length_units := by
    rw [LengthMask.reveal_hide, UInt32.toNat_ofNat_of_lt' h, List.length_append]
    rfl
  length_padding := by
    rw [Bytes.length_zeros, List.length_append]
    rfl

theorem bytes_closed {us : List UInt16} (h : us.length + 1 < 2 ^ 32) :
    (closed mask us h).bytes = Bytes.le 4 (mask.hide (UInt32.ofNat (us.length + 1))).toNat ++
      bytesOfUnits us ++ Bytes.zeros (2 + 2 * ((us.length + 1) % 2)) := by
  rw [List.append_assoc, bytesOfUnits_append_zeros]
  rfl

end Field

variable {mask : LengthMask} {s : String}

theorem exists_field_of_write {out : Bytes} (h : write mask s = .ok out) :
    ∃ f : Field mask, f.bytes = out ∧ f.Spells s := by
  unfold write at h
  by_cases hempty : (Utf16.encode s).isEmpty = true
  · rw [if_pos hempty] at h
    cases h
    exact ⟨.empty mask, List.append_nil _, List.isEmpty_iff.1 hempty⟩
  · rw [if_neg hempty] at h
    by_cases hzero : (Utf16.encode s).contains 0 = true
    · rw [if_pos hzero] at h
      cases h
    · rw [if_neg hzero] at h
      by_cases hcount : (Utf16.encode s).length + 1 < 2 ^ 32
      · rw [if_pos hcount] at h
        cases h
        have hspells : (Field.closed mask (Utf16.encode s) hcount).Spells s :=
          (takeWhile_append_zero (Bool.not_eq_true _ ▸ hzero)).symm
        exact ⟨.closed mask (Utf16.encode s) hcount, Field.bytes_closed hcount, hspells⟩
      · rw [if_neg hcount] at h
        cases h

/-! ## Readings -/

variable {r r' : BodyReader}

theorem exists_field_of_read (h : read mask r = .ok s r') :
    ∃ f : Field mask, f.Spells s ∧ r.Advances f.bytes r' := by
  unfold read at h
  obtain ⟨code, r₁, hcode, h⟩ := Reading.bind_eq_ok h
  rw [BodyReader.u32_eq_ok_iff] at hcode
  change (if (mask.reveal code).toNat = 0 then _ else _ : Reading String) r₁ = _ at h
  by_cases hzero : (mask.reveal code).toNat = 0
  · -- Nothing is read behind a count of zero, which is a field without units.
    rw [if_pos hzero] at h
    cases h
    refine ⟨⟨code, [], [], hzero.symm, rfl⟩, rfl, ?_⟩
    rwa [← List.append_nil (Bytes.le 4 code.toNat)] at hcode
  · rw [if_neg hzero] at h
    obtain ⟨raw, r₂, hraw, h⟩ := Reading.bind_eq_ok h
    obtain ⟨_, r₃, hgap, h⟩ := Reading.bind_eq_ok h
    obtain ⟨hlength, hraw⟩ := BodyReader.bytes_eq_ok_iff.1 hraw
    obtain ⟨gap, hpadding, hgap⟩ := BodyReader.skip_eq_ok_iff.1 hgap
    have hback : bytesOfUnits (unitsOfBytes raw) = raw := bytesOfUnits_unitsOfBytes (by omega)
    have hunits : (unitsOfBytes raw).length = (mask.reveal code).toNat := by
      have := length_bytesOfUnits (unitsOfBytes raw)
      rw [hback] at this
      omega
    cases hdecode : Utf16.decode? ((unitsOfBytes raw).takeWhile (· ≠ 0)) with
    | none =>
      rw [hdecode] at h
      cases h
    | some t =>
      rw [hdecode] at h
      cases h
      refine ⟨⟨code, unitsOfBytes raw, gap, hunits, by rw [hpadding, hunits]⟩,
        Utf16.encode_of_decode? hdecode, ?_⟩
      rw [Field.bytes, hback]
      exact hcode.trans (hraw.trans hgap)

theorem Field.Spells.read {f : Field mask} (h : f.Spells s) (hr : r.Advances f.bytes r') :
    read mask r = .ok s r' := by
  obtain ⟨r₁, hcode, hr⟩ := hr.exists_between
  obtain ⟨r₂, hraw, hgap⟩ := hr.exists_between
  have hunits := f.length_units
  refine (Reading.bind_ok (BodyReader.u32_eq_ok_iff.2 hcode) _).trans ?_
  show (if (mask.reveal f.code).toNat = 0 then _ else _ : Reading String) r₁ = _
  have hdecode : Utf16.decode? (f.units.takeWhile (· ≠ 0)) = some s := by
    rw [← h, Utf16.decode?_encode]
  by_cases hzero : (mask.reveal f.code).toNat = 0
  · -- The field is its count and nothing else.
    have hnil : f.units = [] := List.length_eq_zero_iff.1 (hunits.trans hzero)
    have hpadding : f.padding = [] :=
      List.length_eq_zero_iff.1 (by rw [f.length_padding, hnil]; rfl)
    rw [hnil] at hraw hdecode
    rw [hpadding] at hgap
    rw [if_pos hzero, hgap.eq_of_nil, BodyReader.Advances.eq_of_nil hraw]
    cases hdecode
    rfl
  · rw [if_neg hzero]
    have hlength : (bytesOfUnits f.units).length = 2 * (mask.reveal f.code).toNat := by
      rw [length_bytesOfUnits, hunits]
    refine (Reading.bind_ok (BodyReader.bytes_eq_ok_iff.2 ⟨hlength, hraw⟩) _).trans ?_
    have hskip := BodyReader.skip_eq_ok_iff.2 ⟨f.padding, f.length_padding, hgap⟩
    rw [hunits] at hskip
    refine (Reading.bind_ok hskip _).trans ?_
    rw [unitsOfBytes_bytesOfUnits, hdecode]
    rfl

/-- A reading takes the bytes of one field and yields the text that it spells. -/
theorem read_eq_ok_iff :
    read mask r = .ok s r' ↔ ∃ f : Field mask, f.Spells s ∧ r.Advances f.bytes r' :=
  ⟨exists_field_of_read, fun ⟨_, hs, hr⟩ => hs.read hr⟩

end MaskedText

end GameWire
