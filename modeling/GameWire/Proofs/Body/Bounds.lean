import GameWire.Proofs.Body.RoundTrip
import GameWire.Proofs.Packet.Serialized

/-!
# What a body can hold

A text is read up to its first NUL, from units that lie in the body with two bytes each.  In UTF-8
it has at most three bytes for each of these units, so no text in a packet is longer than one and a
half times the body that it was read from, no byte string is longer than the body, and a packet from
a body of less than `2 ^ 31` bytes fits into a serialized one.
-/

namespace GameWire

/-! ## Texts -/

namespace Utf16

theorem utf8Size_ofNat_le_three {n : Nat} (hn : n < 0x10000) : (Char.ofNat n).utf8Size ≤ 3 := by
  have hval : (Char.ofNat n).val ≤ 0xFFFF := by
    apply UInt32.le_iff_toNat_le.2
    by_cases hvalid : n.isValidChar
    · rw [Char.ofNat, dif_pos hvalid]
      exact Nat.le_of_lt_succ hn
    · rw [Char.ofNat, dif_neg hvalid]
      exact Nat.zero_le _
  unfold Char.utf8Size
  simp only
  split
  · decide
  · split
    · decide
    · exact Nat.le_of_eq (if_pos hval)

/-- A pair of surrogates is four bytes in UTF-8, and any other unit is at most three. -/
theorem length_flatMap_scan {us : List UInt16} {pending : Option UInt16} {cs : List Char}
    (h : scan pending us = some cs) :
    (cs.flatMap String.utf8EncodeChar).length ≤ 3 * (us.length + pending.toList.length) := by
  -- A pair of units makes four bytes at most, so three for each unit are enough.
  induction us generalizing pending cs with
  | nil =>
    cases pending with
    | none => cases h; exact Nat.zero_le _
    | some high => cases h
  | cons u us ih =>
    cases pending with
    | none =>
      unfold scan at h
      by_cases hhigh : isHigh u = true
      · rw [if_pos hhigh] at h
        exact ih h
      · rw [if_neg hhigh] at h
        by_cases hlow : isLow u = true
        · rw [if_pos hlow] at h
          cases h
        · rw [if_neg hlow] at h
          obtain ⟨rest, hrest, rfl⟩ := Option.map_eq_some_iff.1 h
          have hsize := utf8Size_ofNat_le_three u.toNat_lt
          have htail := ih hrest
          rw [List.flatMap_cons, List.length_append, String.length_utf8EncodeChar]
          simp only [List.length_cons, Option.toList_none, List.length_nil] at htail ⊢
          omega
    | some high =>
      unfold scan at h
      by_cases hlow : isLow u = true
      · rw [if_pos hlow] at h
        obtain ⟨rest, hrest, rfl⟩ := Option.map_eq_some_iff.1 h
        have hsize := Char.utf8Size_le_four
          (Char.ofNat (0x10000 + (high.toNat - 0xD800) * 0x400 + (u.toNat - 0xDC00)))
        have htail := ih hrest
        rw [List.flatMap_cons, List.length_append, String.length_utf8EncodeChar]
        simp only [List.length_cons, Option.toList_none, Option.toList_some, List.length_nil]
          at htail ⊢
        omega
      · rw [if_neg hlow] at h
        cases h

theorem length_utf8_le (s : String) : (Utf8.encode s).length ≤ 3 * (encode s).length :=
  length_flatMap_scan (scan_flatMap_unitsOf s.toList)

end Utf16

/-! ## The key block -/

theorem KeyBlock.length_decode_le (block : Bytes) : (decode block).length ≤ block.length := by
  have hbody : (block.take (block.length - trailerLength)).length ≤ block.length :=
    List.length_take_le' _ _
  have hfilled : ((block.take (block.length - trailerLength)).reverse.dropWhile (· = 0)).length ≤
      block.length := by
    have hrest := (List.dropWhile_sublist (· = 0)
      (l := (block.take (block.length - trailerLength)).reverse)).length_le
    rw [List.length_reverse] at hrest
    exact Nat.le_trans hrest hbody
  unfold decode
  simp only
  split
  · split
    · rw [List.length_reverse]
      exact Nat.le_trans (List.length_take_le' _ _) hbody
    · exact hfilled
  · exact hfilled

/-! ## Readings -/

/-- From at most `most` bytes a reading yields nothing but values with a property, and it leaves no
more bytes. -/
def Reading.Ensures {α : Type} (most : Nat) (read : Reading α) (P : α → Prop) : Prop :=
  ∀ r x r', r.rest.length ≤ most → read r = .ok x r' → P x ∧ r'.rest.length ≤ most

namespace Reading

variable {α β : Type} {most : Nat} {P : α → Prop} {Q : β → Prop}

theorem ensures_pure {x : α} (h : P x) : Ensures most (pure x) P := by
  intro r y r' hr hy
  cases hy
  exact ⟨h, hr⟩

theorem Ensures.bind {read : Reading α} {next : α → Reading β} (h : read.Ensures most P)
    (hnext : ∀ x, P x → (next x).Ensures most Q) : Ensures most (read >>= next) Q := by
  intro r y r' hr hy
  obtain ⟨x, s, hread, hy⟩ := bind_eq_ok hy
  obtain ⟨hx, hrest⟩ := h r x s hr hread
  exact hnext x hx s y r' hrest hy

theorem Ensures.imp {Q : α → Prop} {read : Reading α} (h : read.Ensures most P)
    (himp : ∀ x, P x → Q x) : read.Ensures most Q :=
  fun r x r' hr hx => ⟨himp x (h r x r' hr hx).1, (h r x r' hr hx).2⟩

theorem Ensures.map {read : Reading α} (h : read.Ensures most P) {f : α → β}
    (hf : ∀ x, P x → Q (f x)) : Ensures most (f <$> read) Q := by
  intro r y r' hr hy
  obtain ⟨x, hread, rfl⟩ := map_eq_ok hy
  obtain ⟨hx, hrest⟩ := h r x r' hr hread
  exact ⟨hf x hx, hrest⟩

end Reading

open Reading

section Fields

variable {most : Nat}

theorem BodyReader.ensures_bytes (n : Nat) :
    (bytes n).Ensures most fun bs => bs.length = n ∧ n ≤ most := by
  intro r bs r' hr h
  obtain ⟨hlength, hfront⟩ := bytes_eq_ok_iff.1 h
  have hrest := hfront.length_rest
  exact ⟨⟨hlength, by omega⟩, by omega⟩

theorem BodyReader.ensures_number (width : Nat) :
    (number width).Ensures most fun _ => True :=
  (ensures_bytes width).bind fun _ _ => ensures_pure trivial

theorem BodyReader.ensures_skip (n : Nat) : (skip n).Ensures most fun _ => True :=
  (ensures_bytes n).bind fun _ _ => ensures_pure trivial

theorem BodyReader.ensures_takeRest : takeRest.Ensures most fun bs => bs.length ≤ most := by
  intro r bs r' hr h
  cases h
  exact ⟨hr, Nat.zero_le most⟩

/-- A text that was read from at most `most` bytes. -/
def TextWithin (most : Nat) (s : String) : Prop := 2 * (Utf8.encode s).length ≤ 3 * most

/-- A text without a NUL that has room for its units in `most` bytes. -/
structure UnitsWithin (most : Nat) (s : String) : Prop where
  noNul : 0 ∉ Utf16.encode s
  length_le : 2 * (Utf16.encode s).length ≤ most

theorem UnitsWithin.textWithin {s : String} (h : UnitsWithin most s) : TextWithin most s := by
  have hlength := h.length_le
  have hbytes := Utf16.length_utf8_le s
  unfold TextWithin
  omega

theorem MaskedText.ensures_read (mask : LengthMask) :
    (read mask).Ensures most (UnitsWithin most) := by
  intro r s r' hr h
  obtain ⟨f, hs, hfront⟩ := exists_field_of_read h
  have hrest := hfront.length_rest
  have hlength := f.length_bytes
  have hunits := (List.takeWhile_prefix (· ≠ 0) (l := f.units)).length_le
  rw [f.length_units] at hunits
  refine ⟨⟨?_, ?_⟩, by omega⟩
  · rw [hs]
    intro hzero
    simpa using List.all_eq_true.1 List.all_takeWhile 0 hzero
  · rw [hs]
    unfold Field.count at hlength
    omega

namespace Layout

theorem ensures_u8 : u8.read.Ensures most fun _ => True :=
  (BodyReader.ensures_number 1).map fun _ _ => trivial

theorem ensures_u16 : u16.read.Ensures most fun _ => True :=
  (BodyReader.ensures_number 2).map fun _ _ => trivial

theorem ensures_u32 : u32.read.Ensures most fun _ => True :=
  (BodyReader.ensures_number 4).map fun _ _ => trivial

theorem ensures_u64 : u64.read.Ensures most fun _ => True :=
  (BodyReader.ensures_number 8).map fun _ _ => trivial

theorem ensures_fixed (n : Nat) : (fixed n).read.Ensures most fun _ => True :=
  (BodyReader.ensures_bytes n).bind fun _ _ => ensures_pure trivial

theorem ensures_text (mask : LengthMask) : (text mask).read.Ensures most (UnitsWithin most) :=
  MaskedText.ensures_read mask

variable {α β : Type} {a : Layout α} {b : Layout β} {P : α → Prop} {Q : β → Prop}

theorem ensures_both (ha : a.read.Ensures most P) (hb : b.read.Ensures most Q) :
    (a.both b).read.Ensures most fun x => P x.1 ∧ Q x.2 :=
  ha.bind fun _ hx => hb.bind fun _ hy => ensures_pure ⟨hx, hy⟩

theorem ensures_as (ha : a.read.Ensures most P) {decode : α → β} {encode : β → α}
    (h : ∀ x, P x → Q (decode x)) : (a.as decode encode).read.Ensures most Q :=
  ha.map h

theorem Built.ensures {l : Layout α} (h : l.Built) : l.read.Ensures most fun _ => True := by
  induction h with
  | u8 => exact ensures_u8
  | u16 => exact ensures_u16
  | u32 => exact ensures_u32
  | u64 => exact ensures_u64
  | fixed n => exact ensures_fixed n
  | gap n => exact BodyReader.ensures_skip n
  | text mask => exact (ensures_text mask).imp fun _ _ => trivial
  | both _ _ iha ihb => exact (ensures_both iha ihb).imp fun _ _ => trivial
  | as _ _ iha => exact ensures_as iha fun _ _ => trivial

/-! ## The layouts of the bodies

Only texts and byte strings are bounded.  Nothing is said about other fields, but that they are read
from the bytes that are there. -/

theorem ensures_chatMessage :
    chatMessage.read.Ensures most fun p => ∀ s ∈ [p.unk5, p.message], UnitsWithin most s := by
  apply ensures_as (ensures_both built_objectHeader.ensures <|
    ensures_both built_chatArea.ensures <|
    ensures_both ensures_u8 <| ensures_both ensures_u16 <|
    ensures_both (ensures_text .chat) (ensures_text .chat))
  intro x hx
  simpa using hx

theorem ensures_chatMessageNgs :
    chatMessageNgs.read.Ensures most fun p => ∀ s ∈ [p.unk7, p.message], UnitsWithin most s := by
  apply ensures_as (ensures_both built_objectHeader.ensures <|
    ensures_both built_chatArea.ensures <|
    ensures_both ensures_u8 <| ensures_both ensures_u16 <| ensures_both ensures_u16 <|
    ensures_both ensures_u16 <| ensures_both (ensures_text .chat) (ensures_text .chat))
  intro x hx
  simpa using hx

theorem ensures_systemMessage :
    systemMessage.read.Ensures most fun p => ∀ s ∈ [p.message, p.unk], UnitsWithin most s := by
  apply ensures_as (ensures_both (ensures_text .system) <| ensures_both (ensures_text .system) <|
    ensures_both built_messageType.ensures ensures_u32)
  intro x hx
  simpa using hx

theorem ensures_encryptionRequest :
    encryptionRequest.read.Ensures most fun p => p.rsaData.length ≤ most :=
  BodyReader.ensures_takeRest.bind fun block hblock =>
    ensures_pure (Nat.le_trans (KeyBlock.length_decode_le block) hblock)

theorem ensures_encryptionResponse :
    encryptionResponse.read.Ensures most fun p => p.data.length ≤ most :=
  BodyReader.ensures_takeRest.bind fun _ hdata => ensures_pure hdata

end Layout

end Fields

/-! ## Packets -/

namespace Packet

/-- A packet whose texts and byte strings were read from at most `most` bytes. -/
structure Bounded (most : Nat) (p : Packet) : Prop where
  texts : ∀ s ∈ p.texts, TextWithin most s
  byteStrings : ∀ bs ∈ p.byteStrings, bs.length ≤ most

variable {most : Nat} {p : Packet}

theorem Bounded.mono (h : p.Bounded most) {more : Nat} (hle : most ≤ more) : p.Bounded more where
  texts s hs := Nat.le_trans (h.texts s hs) (Nat.mul_le_mul_left 3 hle)
  byteStrings bs hbs := Nat.le_trans (h.byteStrings bs hbs) hle

theorem Bounded.fits (h : p.Bounded most) (hmost : most < 2 ^ 31) : p.Fits where
  texts s hs := by
    have hlength := h.texts s hs
    unfold TextWithin at hlength
    omega
  byteStrings bs hbs := by
    have hlength := h.byteStrings bs hbs
    omega

/-- A packet without texts and byte strings is bounded by anything. -/
theorem bounded_of_plain (htexts : p.texts = []) (hbytes : p.byteStrings = []) :
    p.Bounded most where
  texts s hs := by rw [htexts] at hs; cases hs
  byteStrings bs hbs := by rw [hbytes] at hbs; cases hbs

theorem bounded_of_texts (htexts : ∀ s ∈ p.texts, TextWithin most s)
    (hbytes : p.byteStrings = []) : p.Bounded most where
  texts := htexts
  byteStrings bs hbs := by rw [hbytes] at hbs; cases hbs

theorem bounded_of_byteString {bs : Bytes} (htexts : p.texts = []) (hbytes : p.byteStrings = [bs])
    (hlength : bs.length ≤ most) : p.Bounded most where
  texts s hs := by rw [htexts] at hs; cases hs
  byteStrings bs' hbs := by
    rw [hbytes] at hbs
    rw [List.mem_singleton.1 hbs]
    exact hlength

/-- A body yields packets of its kind only, whose texts and byte strings lie in it. -/
theorem ensures_readBody (kind : Kind) :
    (readBody kind).Ensures most fun p =>
      p.kind? = some kind ∧ (∀ s ∈ p.texts, UnitsWithin most s) ∧ p.Bounded most := by
  have hplain {α : Type} {l : Layout α} {make : α → Packet} (h : l.Built)
      (hmake : ∀ x, (make x).kind? = some kind ∧ (make x).texts = [] ∧
        (make x).byteStrings = []) :
      (make <$> l.read).Ensures most fun p =>
        p.kind? = some kind ∧ (∀ s ∈ p.texts, UnitsWithin most s) ∧ p.Bounded most :=
    h.ensures.map fun x _ => ⟨(hmake x).1, by rw [(hmake x).2.1]; simp,
      bounded_of_plain (hmake x).2.1 (hmake x).2.2⟩
  have htexts {p : Packet} (hkind : p.kind? = some kind) (hbytes : p.byteStrings = [])
      (h : ∀ s ∈ p.texts, UnitsWithin most s) :
      p.kind? = some kind ∧ (∀ s ∈ p.texts, UnitsWithin most s) ∧ p.Bounded most :=
    ⟨hkind, h, bounded_of_texts (fun s hs => (h s hs).textWithin) hbytes⟩
  -- Bodies without texts and byte strings carry no bound; the others carry those of their fields.
  cases kind with
  | initialLoad | loadingScreenTransition | serverPing | serverPong | finishLoading
  | unlockControls | questCounterRequest | clientGoodbye | settingsRequest =>
    exact ensures_pure (htexts rfl rfl fun _ hs => by cases hs)
  | serverHello => exact hplain Layout.built_serverHello fun _ => ⟨rfl, rfl, rfl⟩
  | serverHelloNgs => exact hplain Layout.built_serverHelloNgs fun _ => ⟨rfl, rfl, rfl⟩
  | mapLoaded => exact hplain Layout.built_mapLoaded fun _ => ⟨rfl, rfl, rfl⟩
  | setPlayerId => exact hplain Layout.built_setPlayerId fun _ => ⟨rfl, rfl, rfl⟩
  | clientPing => exact hplain Layout.built_clientPing fun _ => ⟨rfl, rfl, rfl⟩
  | clientPong => exact hplain Layout.built_clientPong fun _ => ⟨rfl, rfl, rfl⟩
  | lobbyMonitor => exact hplain Layout.built_lobbyMonitor fun _ => ⟨rfl, rfl, rfl⟩
  | chatMessage => exact Layout.ensures_chatMessage.map fun _ h => htexts rfl rfl h
  | chatMessageNgs => exact Layout.ensures_chatMessageNgs.map fun _ h => htexts rfl rfl h
  | systemMessage => exact Layout.ensures_systemMessage.map fun _ h => htexts rfl rfl h
  | encryptionRequest =>
    exact Layout.ensures_encryptionRequest.map fun _ h =>
      ⟨rfl, fun _ hs => (by cases hs), bounded_of_byteString rfl rfl h⟩
  | encryptionResponse =>
    exact Layout.ensures_encryptionResponse.map fun _ h =>
      ⟨rfl, fun _ hs => (by cases hs), bounded_of_byteString rfl rfl h⟩

theorem decodeBody_eq_ok {kind : Kind} {body : Bytes} (h : decodeBody kind body = .ok p) :
    p.kind? = some kind ∧ (∀ s ∈ p.texts, UnitsWithin body.length s) ∧ p.Bounded body.length := by
  obtain ⟨r, hread, -⟩ := BodyReader.run_eq_ok h
  exact (ensures_readBody kind _ _ _ (Nat.le_refl _) hread).1

end Packet

end GameWire
