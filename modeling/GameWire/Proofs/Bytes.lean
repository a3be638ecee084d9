import GameWire.Bytes

/-!
# Byte strings: numbers, pieces and masks

A length field is found where it was put, and bytes that come behind it later change nothing about
it.  Whole pieces that are put together are cut apart the same way, and a mask put over a byte
string twice is gone.
-/

namespace GameWire.Bytes

/-- What holds of every number below 256 holds of every byte. -/
theorem forall_byte {P : UInt8 → Prop} (h : ∀ n : Fin 256, P (UInt8.ofNat n)) (b : UInt8) :
    P b := by
  have hb := h ⟨b.toNat, b.toNat_lt⟩
  rwa [UInt8.ofNat_toNat] at hb

/-! ## Numbers -/

theorem ofLE_append (a b : Bytes) : ofLE (a ++ b) = ofLE a + 256 ^ a.length * ofLE b := by
  induction a with
  | nil =>
    show ofLE b = 0 + 256 ^ 0 * ofLE b
    omega
  | cons x a ih =>
    show x.toNat + 256 * ofLE (a ++ b) = x.toNat + 256 * ofLE a + 256 ^ (a.length + 1) * ofLE b
    rw [ih, Nat.pow_succ, Nat.mul_add, Nat.mul_comm (256 ^ a.length) 256, Nat.mul_assoc,
      Nat.add_assoc]

theorem ofBE_cons (b : UInt8) (bs : Bytes) :
    ofBE (b :: bs) = 256 ^ bs.length * b.toNat + ofBE bs := by
  unfold ofBE
  rw [List.reverse_cons, ofLE_append, List.length_reverse, Nat.add_comm]
  rfl

theorem ofBE_lt (bs : Bytes) : ofBE bs < 256 ^ bs.length := by
  have h := ofLE_lt bs.reverse
  rwa [List.length_reverse] at h

theorem be_ofBE (bs : Bytes) : be bs.length (ofBE bs) = bs := by
  have h := le_ofLE bs.reverse
  rw [List.length_reverse] at h
  unfold be ofBE
  rw [h, List.reverse_reverse]

theorem eq_append_of_cut? {count : Nat} {bs front rest : Bytes}
    (h : cut? count bs = some (front, rest)) : front.length = count ∧ bs = front ++ rest := by
  unfold cut? at h
  split at h
  · rename_i hle
    cases h
    exact ⟨List.length_take_of_le hle, (List.take_append_drop count bs).symm⟩
  · cases h

/-- A number is found behind the bytes that it was put behind. -/
theorem u32At?_append (front rest : Bytes) {n : Nat} (hn : n < 2 ^ 32) :
    u32At? front.length (front ++ (le 4 n ++ rest)) = some n := by
  have hcut := cut?_append (le 4 n) rest
  rw [length_le] at hcut
  unfold u32At?
  rw [List.drop_left, hcut]
  exact congrArg some (ofLE_le hn)

/-- A number that is there stays there when more bytes come. -/
theorem u32At?_append_of_eq_some {offset n : Nat} {front : Bytes} (h : u32At? offset front = some n)
    (rest : Bytes) : u32At? offset (front ++ rest) = some n := by
  unfold u32At? cut? at h ⊢
  by_cases hl : 4 ≤ (front.drop offset).length
  · have ho : offset ≤ front.length := by rw [List.length_drop] at hl; omega
    rw [if_pos hl, Option.map_some] at h
    rw [List.drop_append_of_le_length ho, if_pos (by rw [List.length_append]; omega),
      Option.map_some, List.take_append_of_le_length hl]
    exact h
  · rw [if_neg hl] at h; cases h

/-- Only a byte string that ends too soon holds no number. -/
theorem length_lt_of_u32At?_eq_none {offset : Nat} {bs : Bytes} (h : u32At? offset bs = none) :
    bs.length < offset + 4 := by
  unfold u32At? cut? at h
  by_cases hl : 4 ≤ (bs.drop offset).length
  · rw [if_pos hl] at h
    cases h
  · rw [List.length_drop] at hl
    omega

/-! ## Pieces -/

theorem chunks_eq_cons {size : Nat} (hs : 0 < size) {bs : Bytes} (hb : bs ≠ []) :
    chunks size bs = bs.take size :: chunks size (bs.drop size) := by
  cases bs with
  | nil => exact absurd rfl hb
  | cons b bs =>
    obtain ⟨n, rfl⟩ : ∃ n, size = n + 1 := ⟨size - 1, by omega⟩
    unfold chunks
    rw [chunksOfSucc]
    rfl

/-- The first piece of whole pieces is cut off first. -/
theorem chunks_append_of_length {size : Nat} (hs : 0 < size) {piece : Bytes}
    (hp : piece.length = size) (rest : Bytes) :
    chunks size (piece ++ rest) = piece :: chunks size rest := by
  have hne : piece ++ rest ≠ [] := by
    intro h
    rw [(List.append_eq_nil_iff.1 h).1, List.length_nil] at hp
    omega
  rw [chunks_eq_cons hs hne, ← hp, List.take_left, List.drop_left]

theorem chunks_nil (size : Nat) : chunks size [] = [] := by
  unfold chunks
  rw [chunksOfSucc]

/-- Whole pieces that were put together are cut apart again. -/
theorem chunks_flatten {size : Nat} (hs : 0 < size) {pieces : List Bytes}
    (hp : ∀ piece ∈ pieces, piece.length = size) : chunks size pieces.flatten = pieces := by
  induction pieces with
  | nil => exact chunks_nil size
  | cons piece pieces ih =>
    have hrest : ∀ piece ∈ pieces, piece.length = size :=
      fun piece h => hp piece (List.mem_cons_of_mem _ h)
    rw [List.flatten_cons, chunks_append_of_length hs (hp piece (List.mem_cons_self ..)), ih hrest]

/-- A byte string of the length of whole pieces has no other pieces. -/
theorem length_of_mem_chunks {size : Nat} (hs : 0 < size) {bs piece : Bytes}
    (hd : size ∣ bs.length) (hp : piece ∈ chunks size bs) : piece.length = size := by
  obtain ⟨count, hc⟩ := hd
  induction count generalizing bs with
  | zero =>
    rw [Nat.mul_zero] at hc
    rw [List.eq_nil_of_length_eq_zero hc, chunks_nil] at hp
    cases hp
  | succ count ih =>
    rw [Nat.mul_succ] at hc
    have hfront : (bs.take size).length = size := by rw [List.length_take]; omega
    rw [← List.take_append_drop size bs, chunks_append_of_length hs hfront] at hp
    rcases List.mem_cons.1 hp with rfl | hp
    · exact hfront
    · exact ih hp (by rw [List.length_drop]; omega)

/-- Pieces of one length are that long together. -/
theorem length_flatten_of_length {size : Nat} {pieces : List Bytes}
    (hp : ∀ piece ∈ pieces, piece.length = size) :
    pieces.flatten.length = size * pieces.length := by
  induction pieces with
  | nil => rfl
  | cons piece pieces ih =>
    rw [List.flatten_cons, List.length_append, hp piece (List.mem_cons_self ..),
      ih fun piece h => hp piece (List.mem_cons_of_mem _ h), List.length_cons, Nat.mul_succ,
      Nat.add_comm]

/-! ## Masks -/

@[simp] theorem length_xor (a b : Bytes) : (xor a b).length = min a.length b.length :=
  List.length_zipWith

theorem length_xor_of_length {a b : Bytes} {n : Nat} (ha : a.length = n) (hb : b.length = n) :
    (xor a b).length = n := by
  rw [length_xor, ha, hb, Nat.min_self]

/-- A mask that is put over a byte string twice is gone. -/
theorem xor_xor_cancel {a mask : Bytes} (h : a.length ≤ mask.length) :
    xor (xor a mask) mask = a := by
  induction a generalizing mask with
  | nil => rfl
  | cons b a ih =>
    cases mask with
    | nil => rw [List.length_cons, List.length_nil] at h; omega
    | cons m mask =>
      rw [List.length_cons, List.length_cons] at h
      show (b ^^^ m ^^^ m) :: xor (xor a mask) mask = b :: a
      rw [UInt8.xor_assoc, UInt8.xor_self, UInt8.xor_zero, ih (by omega)]

end GameWire.Bytes
