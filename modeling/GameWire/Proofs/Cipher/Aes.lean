import GameWire.Proofs.Bytes
import GameWire.Proofs.Cipher.ByteField

/-!
# Blocks of AES-256 decrypted

Each step of a round has an inverse: the table of preimages takes the substitution back, the rows
are turned back, the two matrices are inverse to each other, and a round key cancels itself.  What
is left is that all round keys are as long as a block.
-/

namespace GameWire.Aes

open Bytes (forall_byte)

/-! ## Substitution -/

/-- The affine map behind the inversion of a byte. -/
def affine (i : UInt8) : UInt8 :=
  i ^^^ rotl i 1 ^^^ rotl i 2 ^^^ rotl i 3 ^^^ rotl i 4 ^^^ 0x63

theorem substitute_eq_affine (b : UInt8) : substitute b = affine (pow b 254) := rfl

theorem affine_injective : Function.Injective affine := by
  have h : ∀ i : UInt8, rotl (affine i) 1 ^^^ rotl (affine i) 3 ^^^ rotl (affine i) 6 ^^^ 5 = i :=
    forall_byte (by decide +kernel)
  intro i j hij
  rw [← h i, ← h j, hij]

theorem substitute_injective : Function.Injective substitute := by
  intro a b hab
  rw [substitute_eq_affine, substitute_eq_affine] at hab
  have h := congrArg (pow · 254) (affine_injective hab)
  rwa [pow_pow_254, pow_pow_254] at h

/-- Filling a table one place at a time leaves its size alone. -/
theorem size_foldl_setIfInBounds {α : Type} (places : Nat → Nat) (values : Nat → α) (is : List Nat)
    (table : Array α) :
    (is.foldl (fun table i => table.setIfInBounds (places i) (values i)) table).size =
      table.size := by
  induction is generalizing table with
  | nil => rfl
  | cons i is ih => rw [List.foldl_cons, ih, Array.size_setIfInBounds]

/-- Filling a table one place at a time puts each value in its place, if no two share one. -/
theorem getD_foldl_setIfInBounds {α : Type} (places : Nat → Nat) (values : Nat → α)
    (table : Array α) (default : α) {is : List Nat} {i : Nat} (hi : i ∈ is)
    (hsize : places i < table.size) (hinj : ∀ j ∈ is, places j = places i → j = i) :
    (is.foldl (fun table i => table.setIfInBounds (places i) (values i)) table).getD (places i)
      default = values i := by
  induction is using List.reverseRecOn with
  | nil => cases hi
  | append_singleton is j ih =>
    rw [List.foldl_append, List.foldl_cons, List.foldl_nil, Array.getD_eq_getD_getElem?,
      Array.getElem?_setIfInBounds, size_foldl_setIfInBounds]
    -- The value filled in last stands unless it went to another place.
    by_cases hj : places j = places i
    · rw [if_pos hj, if_pos (hj ▸ hsize), Option.getD_some, hinj j (by simp) hj]
    · rw [if_neg hj, ← Array.getD_eq_getD_getElem?]
      have hmem : i ∈ is := by
        rcases List.mem_append.1 hi with h | h
        · exact h
        · rw [List.mem_singleton] at h
          exact absurd (congrArg places h).symm hj
      exact ih hmem fun k hk => hinj k (List.mem_append_left _ hk)

theorem substitutes_getD (b : UInt8) : substitutes.getD b.toNat 0 = substitute b := by
  unfold substitutes
  rw [Array.getD_eq_getD_getElem?, Array.getElem?_ofFn, dif_pos b.toNat_lt, Option.getD_some,
    UInt8.ofNat_toNat]

theorem preimages_getD (b : UInt8) : preimages.getD (substitute b).toNat 0 = b := by
  have hinj : ∀ j ∈ List.range 256,
      (substitute (UInt8.ofNat j)).toNat = (substitute b).toNat → j = b.toNat := by
    intro j hj hplaces
    have hb := substitute_injective (UInt8.toNat_inj.1 hplaces)
    rw [← hb, UInt8.toNat_ofNat', Nat.mod_eq_of_lt (List.mem_range.1 hj)]
  have hsize : (substitute b).toNat < (Array.replicate 256 (0 : UInt8)).size := by
    rw [Array.size_replicate]
    exact UInt8.toNat_lt _
  have hmem : b.toNat ∈ List.range 256 := List.mem_range.2 b.toNat_lt
  have h := getD_foldl_setIfInBounds (fun i => (substitute (UInt8.ofNat i)).toNat) UInt8.ofNat
    (Array.replicate 256 0) 0 hmem
  simp only [UInt8.ofNat_toNat] at h
  exact h hsize hinj

theorem restore_substituteAll (block : Bytes) : restore (substituteAll block) = block := by
  unfold restore substituteAll
  induction block with
  | nil => rfl
  | cons b block ih =>
    rw [List.map_cons, List.map_cons, ih, substitutes_getD, preimages_getD]

@[simp] theorem length_substituteAll (block : Bytes) :
    (substituteAll block).length = block.length :=
  List.length_map _

/-! ## Rows and columns -/

theorem length_shiftRows (block : Bytes) : (shiftRows block).length = 16 := rfl

theorem unshiftRows_shiftRows {block : Bytes} (h : block.length = 16) :
    unshiftRows (shiftRows block) = block := by
  -- Each place gets back the byte that was moved from it.
  have hrange : block = (List.range 16).map fun i => block.getD i 0 := by
    apply List.ext_getElem
    · rw [List.length_map, List.length_range, h]
    · intro i hi _
      rw [List.getElem_map, List.getElem_range, List.getD_eq_getElem?_getD,
        List.getElem?_eq_getElem hi, Option.getD_some]
  exact hrange.symm

/-- Columns times two cyclic matrices, one after the other, are columns times their product, which
is cyclic again. -/
theorem mixColumn_mixColumn (a b c d a' b' c' d' w x y z : UInt8) :
    mixColumn a b c d (mixColumn a' b' c' d' [w, x, y, z]) =
      mixColumn (mul a a' ^^^ mul b d' ^^^ mul c c' ^^^ mul d b')
        (mul a b' ^^^ mul b a' ^^^ mul c d' ^^^ mul d c')
        (mul a c' ^^^ mul b b' ^^^ mul c a' ^^^ mul d d')
        (mul a d' ^^^ mul b c' ^^^ mul c b' ^^^ mul d a') [w, x, y, z] := by
  simp only [mixColumn, mul_xor, mul_xor_left, mul_assoc, List.cons.injEq, and_true]
  refine ⟨?_, ?_, ?_, ?_⟩ <;> ac_rfl

theorem length_mixColumn (a b c d : UInt8) (column : Bytes) :
    (mixColumn a b c d column).length = column.length := by
  unfold mixColumn
  split <;> rfl

/-- The two matrices are inverse to each other. -/
theorem unmixColumn_mixColumn {column : Bytes} (h : column.length = 4) :
    mixColumn 0x0E 0x0B 0x0D 0x09 (mixColumn 2 3 1 1 column) = column := by
  match column, h with
  | [w, x, y, z], _ =>
    rw [mixColumn_mixColumn]
    -- The product of the matrices is evaluated: it is the identity.
    have hone : mixColumn 1 0 0 0 [w, x, y, z] = [w, x, y, z] := by
      simp only [mixColumn, one_mul, zero_mul, UInt8.xor_zero, UInt8.zero_xor]
    exact hone

theorem length_of_mem_words {block word : Bytes} (h : 4 ∣ block.length) (hw : word ∈ words block) :
    word.length = 4 :=
  Bytes.length_of_mem_chunks (by decide) h hw

theorem length_mixColumns (block : Bytes) : (mixColumns block).length = block.length := by
  have h : (mixColumns block).length = (words block).flatten.length := by
    unfold mixColumns
    rw [List.length_flatMap, List.length_flatten]
    exact congrArg List.sum (List.map_congr_left fun word _ => length_mixColumn _ _ _ _ word)
  rwa [words, Bytes.flatten_chunks] at h

theorem unmixColumns_mixColumns {block : Bytes} (h : 4 ∣ block.length) :
    unmixColumns (mixColumns block) = block := by
  have hw : words (mixColumns block) = (words block).map (mixColumn 2 3 1 1) := by
    unfold mixColumns
    rw [List.flatMap_def]
    apply Bytes.chunks_flatten (by decide)
    intro column hc
    obtain ⟨word, hword, rfl⟩ := List.mem_map.1 hc
    rw [length_mixColumn, length_of_mem_words h hword]
  have hid : (words block).map (mixColumn 0x0E 0x0B 0x0D 0x09 ∘ mixColumn 2 3 1 1) =
      words block :=
    (List.map_congr_left fun word hword =>
      unmixColumn_mixColumn (length_of_mem_words h hword)).trans (List.map_id _)
  unfold unmixColumns
  rw [hw, List.flatMap_def, List.map_map, hid, words, Bytes.flatten_chunks]

/-! ## Rounds -/

theorem length_round (block : Bytes) {key : Bytes} (hk : key.length = 16) :
    (Bytes.xor (mixColumns (shiftRows (substituteAll block))) key).length = 16 := by
  apply Bytes.length_xor_of_length _ hk
  rw [length_mixColumns, length_shiftRows]

theorem restore_unshiftRows {block : Bytes} (h : block.length = 16) :
    restore (unshiftRows (shiftRows (substituteAll block))) = block := by
  rw [unshiftRows_shiftRows (by rw [length_substituteAll, h]), restore_substituteAll]

theorem decryptRounds_encryptRounds {block : Bytes} (h : block.length = 16) (keys : List Bytes)
    (hk : ∀ key ∈ keys, key.length = 16) :
    decryptRounds (encryptRounds block keys) keys = block := by
  induction keys generalizing block with
  | nil => rfl
  | cons key keys ih =>
    have hkey : key.length = 16 := hk key (List.mem_cons_self ..)
    cases keys with
    | nil =>
      -- The last round mixes no columns.
      show restore (unshiftRows (Bytes.xor (Bytes.xor (shiftRows (substituteAll block)) key)
        key)) = _
      rw [Bytes.xor_xor_cancel (by rw [length_shiftRows, hkey]), restore_unshiftRows h]
    | cons next keys =>
      have hrest := ih (length_round block hkey) fun k hmem => hk k (List.mem_cons_of_mem _ hmem)
      show restore (unshiftRows (unmixColumns (Bytes.xor (decryptRounds (encryptRounds
        (Bytes.xor (mixColumns (shiftRows (substituteAll block))) key) (next :: keys))
        (next :: keys)) key))) = block
      rw [hrest, Bytes.xor_xor_cancel (by rw [length_mixColumns, length_shiftRows, hkey]),
        unmixColumns_mixColumns (by rw [length_shiftRows]; decide), restore_unshiftRows h]

theorem length_encryptRounds {block : Bytes} (h : block.length = 16) (keys : List Bytes)
    (hk : ∀ key ∈ keys, key.length = 16) : (encryptRounds block keys).length = 16 := by
  induction keys generalizing block with
  | nil => exact h
  | cons key keys ih =>
    have hkey : key.length = 16 := hk key (List.mem_cons_self ..)
    cases keys with
    | nil =>
      show (Bytes.xor (shiftRows (substituteAll block)) key).length = 16
      exact Bytes.length_xor_of_length (length_shiftRows _) hkey
    | cons next keys =>
      exact ih (length_round block hkey) fun k hmem => hk k (List.mem_cons_of_mem _ hmem)

theorem length_encryptBlock {keys : List Bytes} (hk : ∀ key ∈ keys, key.length = 16)
    {block : Bytes} (h : block.length = 16) : (encryptBlock keys block).length = 16 := by
  cases keys with
  | nil => exact h
  | cons key keys =>
    have hkey : key.length = 16 := hk key (List.mem_cons_self ..)
    have hx : (Bytes.xor block key).length = 16 := Bytes.length_xor_of_length h hkey
    exact length_encryptRounds hx keys fun k hmem => hk k (List.mem_cons_of_mem _ hmem)

/-- A block that was encrypted is decrypted by the same round keys. -/
theorem decryptBlock_encryptBlock {keys : List Bytes} (hk : ∀ key ∈ keys, key.length = 16)
    {block : Bytes} (h : block.length = 16) :
    decryptBlock keys (encryptBlock keys block) = block := by
  cases keys with
  | nil => rfl
  | cons key keys =>
    have hkey : key.length = 16 := hk key (List.mem_cons_self ..)
    have hx : (Bytes.xor block key).length = 16 := Bytes.length_xor_of_length h hkey
    show Bytes.xor (decryptRounds (encryptRounds (Bytes.xor block key) keys) keys) key = block
    rw [decryptRounds_encryptRounds hx keys fun k hmem => hk k (List.mem_cons_of_mem _ hmem),
      Bytes.xor_xor_cancel (by rw [h, hkey])]

/-! ## Round keys -/

/-- The next words of a key are eight words again. -/
theorem nextWords_words (round : UInt8) {previous : List Bytes} (hl : previous.length = 8)
    (hw : ∀ word ∈ previous, word.length = 4) :
    (nextWords round previous).length = 8 ∧
      ∀ word ∈ nextWords round previous, word.length = 4 := by
  refine ⟨rfl, ?_⟩
  have hget : ∀ i < 8, (previous.getD i []).length = 4 := by
    intro i hi
    rw [List.getD_eq_getElem?_getD, List.getElem?_eq_getElem (by omega), Option.getD_some]
    exact hw _ (List.getElem_mem _)
  intro word hword
  simp only [nextWords, List.mem_cons, List.not_mem_nil, or_false] at hword
  -- Every one of the eight is a sum of words among the previous ones and a round constant.
  rcases hword with rfl | rfl | rfl | rfl | rfl | rfl | rfl | rfl <;>
    simp only [Bytes.length_xor, length_substituteAll, List.length_append, List.length_drop,
      List.length_take, List.length_cons, List.length_nil, hget 0 (by decide), hget 1 (by decide),
      hget 2 (by decide), hget 3 (by decide), hget 4 (by decide), hget 5 (by decide),
      hget 6 (by decide), hget 7 (by decide)] <;>
    rfl

theorem expandFrom_words (rounds : List UInt8) {previous : List Bytes} (hl : previous.length = 8)
    (hw : ∀ word ∈ previous, word.length = 4) :
    (expandFrom previous rounds).length = 8 * rounds.length ∧
      ∀ word ∈ expandFrom previous rounds, word.length = 4 := by
  induction rounds generalizing previous with
  | nil => exact ⟨rfl, fun word h => by cases h⟩
  | cons round rounds ih =>
    obtain ⟨hnl, hnw⟩ := nextWords_words round hl hw
    obtain ⟨hel, hew⟩ := ih hnl hnw
    constructor
    · show (nextWords round previous ++ expandFrom _ rounds).length = _
      rw [List.length_append, hnl, hel, List.length_cons, Nat.mul_succ, Nat.add_comm]
    · intro word h
      rcases List.mem_append.1 h with h | h
      · exact hnw word h
      · exact hew word h

/-- A key of 32 bytes is expanded to keys as long as a block. -/
theorem length_of_mem_roundKeys {key : Bytes} (hkey : key.length = 32) :
    ∀ k ∈ roundKeys key, k.length = 16 := by
  have hw : ∀ word ∈ words key, word.length = 4 := fun word =>
    length_of_mem_words (by rw [hkey]; decide)
  have hl : (words key).length = 8 := by
    have h := Bytes.length_flatten_of_length hw
    rw [words, Bytes.flatten_chunks, hkey] at h
    exact (Nat.eq_of_mul_eq_mul_left (by decide : 0 < 4) h).symm
  obtain ⟨hel, hew⟩ := expandFrom_words [0x01, 0x02, 0x04, 0x08, 0x10, 0x20, 0x40] hl hw
  intro k hk
  refine Bytes.length_of_mem_chunks (by decide) ?_ (List.mem_of_mem_take hk)
  rw [List.flatten_append, List.length_append, Bytes.length_flatten_of_length hw,
    Bytes.length_flatten_of_length hew, hl, hel]
  decide

end GameWire.Aes
