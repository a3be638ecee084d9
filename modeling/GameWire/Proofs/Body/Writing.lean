import GameWire.Proofs.Body.RoundTrip
import GameWire.Proofs.Packet.Serialized

/-!
# Which bodies can be written

Whether a body can be written, and how long it becomes, is known from its packet.  Its texts must be
free of NULs and short enough to be counted, and the data of a key exchange request must fit into
its block; nothing else can fail.
-/

namespace GameWire

/-! ## Outcomes -/

/-- An outcome that is a success if and only if something is `possible`, and is of `size` bytes
then. -/
structure Written (outcome : Except ProtocolError Bytes) (possible : Prop) (size : Nat) : Prop where
  exists_ok : possible → ∃ out, outcome = .ok out
  of_ok : ∀ out, outcome = .ok out → possible ∧ out.length = size

theorem written_ok (out : Bytes) : Written (.ok out) True out.length where
  exists_ok _ := ⟨out, rfl⟩
  of_ok _ h := by
    cases h
    exact ⟨trivial, rfl⟩

theorem Written.congr {outcome : Except ProtocolError Bytes} {P Q : Prop} {m n : Nat}
    (h : Written outcome P m) (hP : P ↔ Q) (hsize : m = n) : Written outcome Q n where
  exists_ok hQ := h.exists_ok (hP.2 hQ)
  of_ok out hout := by
    obtain ⟨hp, hlength⟩ := h.of_ok out hout
    exact ⟨hP.1 hp, hlength.trans hsize⟩

/-! ## Texts -/

namespace MaskedText

/-- A text that a field can hold: it has no NUL, which would end it early, and its units and the
closing one can be counted in four bytes. -/
structure Writable (s : String) : Prop where
  noNul : '\x00' ∉ s.toList
  countable : (Utf16.encode s).length < 2 ^ 32 - 1

/-- How many bytes a text takes: those of its count, and unless it is empty those of its units, of
the closing one, and of the unit that fills up an odd count. -/
def size (s : String) : Nat :=
  let units := (Utf16.encode s).length
  if units = 0 then 4 else 4 + 2 * (units + 1 + (units + 1) % 2)

theorem written_write (mask : LengthMask) (s : String) :
    Written (write mask s) (Writable s) (size s) := by
  unfold write size
  by_cases hempty : (Utf16.encode s).isEmpty = true
  · have hnil := List.isEmpty_iff.1 hempty
    -- An empty text has no units, so that there is no NUL and nothing to count.
    have hs : Writable s := by
      constructor
      · rw [← Utf16.zero_mem_encode, hnil]
        exact List.not_mem_nil
      · rw [hnil]
        decide
    rw [if_pos hempty]
    apply (written_ok _).congr (iff_of_true trivial hs)
    rw [Bytes.length_le, hnil]
    rfl
  · have hpos : (Utf16.encode s).length ≠ 0 := fun h =>
      hempty (List.isEmpty_iff.2 (List.length_eq_zero_iff.1 h))
    rw [if_neg hempty]
    by_cases hzero : (Utf16.encode s).contains 0 = true
    · rw [if_pos hzero]
      have hnul : '\x00' ∈ s.toList := Utf16.zero_mem_encode.1 (List.contains_iff_mem.1 hzero)
      exact ⟨fun h => absurd hnul h.noNul, fun _ h => by cases h⟩
    · rw [if_neg hzero]
      have hnul : '\x00' ∉ s.toList := fun h =>
        hzero (List.contains_iff_mem.2 (Utf16.zero_mem_encode.2 h))
      by_cases hcount : (Utf16.encode s).length + 1 < 2 ^ 32
      · rw [if_pos hcount]
        have hs : Writable s := ⟨hnul, by omega⟩
        apply (written_ok _).congr (iff_of_true trivial hs)
        rw [if_neg hpos, List.length_append, List.length_append, Bytes.length_le,
          length_bytesOfUnits, Bytes.length_zeros]
        omega
      · rw [if_neg hcount]
        exact ⟨fun h => absurd h.countable (by omega), fun _ h => by cases h⟩

end MaskedText

/-! ## The key block -/

namespace KeyBlock

theorem length_le_of_encode {data block : Bytes} (h : encode data = .ok block) :
    data.length ≤ capacity := by
  unfold encode at h
  by_cases hc : data.length ≤ capacity
  · exact hc
  · rw [if_neg hc] at h
    cases h

theorem written_encode (data : Bytes) :
    Written (encode data) (data.length ≤ capacity) blockLength where
  exists_ok h := (exists_encode h).imp fun _ hblock => hblock.1
  of_ok _ h := ⟨length_le_of_encode h, length_encode h⟩

end KeyBlock

/-! ## Layouts -/

namespace Layout

section Combinators

variable {α β : Type} {a : Layout α} {b : Layout β} {P Q : Prop} {m n : Nat}

theorem written_both {x : α} {y : β} (ha : Written (a.write x) P m) (hb : Written (b.write y) Q n) :
    Written ((a.both b).write (x, y)) (P ∧ Q) (m + n) where
  exists_ok h := by
    obtain ⟨front, hfront⟩ := ha.exists_ok h.1
    obtain ⟨back, hback⟩ := hb.exists_ok h.2
    refine ⟨front ++ back, ?_⟩
    simp only [both, hfront, hback, bind, Except.bind, pure, Except.pure]
  of_ok out h := by
    obtain ⟨front, back, hfront, hback, rfl⟩ := both_write_eq_ok h
    obtain ⟨hP, hm⟩ := ha.of_ok front hfront
    obtain ⟨hQ, hn⟩ := hb.of_ok back hback
    exact ⟨⟨hP, hQ⟩, by rw [List.length_append, hm, hn]⟩

/-- A layout that writes every value in the same number of bytes. -/
def Sized {α : Type} (l : Layout α) (size : Nat) : Prop :=
  ∀ x, Written (l.write x) True size

theorem sized_both (ha : a.Sized m) (hb : b.Sized n) : (a.both b).Sized (m + n) :=
  fun (x, y) => (written_both (ha x) (hb y)).congr (iff_of_true ⟨trivial, trivial⟩ trivial) rfl

theorem sized_as (ha : a.Sized m) {decode : α → β} {encode : β → α} :
    (a.as decode encode).Sized m :=
  fun y => ha (encode y)

theorem sized_gap (n : Nat) : (gap n).Sized n :=
  fun _ => (written_ok _).congr Iff.rfl (Bytes.length_zeros n)

theorem sized_after (n : Nat) (ha : a.Sized m) : (a.after n).Sized (n + m) :=
  sized_as (sized_both (sized_gap n) ha)

end Combinators

theorem sized_u8 : u8.Sized 1 :=
  fun n => written_ok [n]

theorem sized_u16 : u16.Sized 2 :=
  fun _ => (written_ok _).congr Iff.rfl (Bytes.length_le _ _)

theorem sized_u32 : u32.Sized 4 :=
  fun _ => (written_ok _).congr Iff.rfl (Bytes.length_le _ _)

theorem sized_u64 : u64.Sized 8 :=
  fun _ => (written_ok _).congr Iff.rfl (Bytes.length_le _ _)

theorem sized_fixed (n : Nat) : (fixed n).Sized n :=
  fun f => (written_ok _).congr Iff.rfl f.length_eq

theorem sized_entityType : entityType.Sized 2 :=
  sized_as sized_u16

theorem sized_chatArea : chatArea.Sized 1 :=
  sized_as sized_u8

theorem sized_messageType : messageType.Sized 4 :=
  sized_as sized_u32

theorem sized_objectHeader : objectHeader.Sized 12 :=
  sized_as (sized_both sized_u32 <| sized_both sized_u32 <| sized_both sized_entityType sized_u16)

theorem sized_serverHello : serverHello.Sized 12 :=
  sized_as (sized_both sized_u16 <| sized_both sized_u16 <| sized_after 4 sized_u32)

theorem sized_serverHelloNgs : serverHelloNgs.Sized 16 :=
  sized_as (sized_both sized_u16 <| sized_both sized_u16 <|
    sized_after 4 (sized_both sized_u32 sized_u32))

theorem sized_mapLoaded : mapLoaded.Sized 44 :=
  sized_as (sized_both sized_objectHeader (sized_fixed 0x20))

theorem sized_setPlayerId : setPlayerId.Sized 12 :=
  sized_as (sized_both sized_u32 <| sized_both sized_u32 sized_u32)

theorem sized_clientPing : clientPing.Sized 8 :=
  sized_as sized_u64

theorem sized_clientPong : clientPong.Sized 20 :=
  sized_as (sized_both sized_u64 <| sized_both sized_u64 sized_u32)

theorem sized_lobbyMonitor : lobbyMonitor.Sized 4 :=
  sized_as sized_u32

theorem written_text (mask : LengthMask) (s : String) :
    Written ((text mask).write s) (MaskedText.Writable s) (MaskedText.size s) :=
  MaskedText.written_write mask s

theorem written_chatMessage (p : ChatMessage) :
    Written (chatMessage.write p) (∀ s ∈ [p.unk5, p.message], MaskedText.Writable s)
      (16 + MaskedText.size p.unk5 + MaskedText.size p.message) := by
  have h := written_both (sized_objectHeader p.object) <| written_both (sized_chatArea p.area) <|
    written_both (sized_u8 p.unk3) <| written_both (sized_u16 p.unk4) <|
    written_both (written_text .chat p.unk5) (written_text .chat p.message)
  exact h.congr (by simp) (by omega)

theorem written_chatMessageNgs (p : ChatMessageNgs) :
    Written (chatMessageNgs.write p) (∀ s ∈ [p.unk7, p.message], MaskedText.Writable s)
      (20 + MaskedText.size p.unk7 + MaskedText.size p.message) := by
  have h := written_both (sized_objectHeader p.object) <| written_both (sized_chatArea p.area) <|
    written_both (sized_u8 p.unk3) <| written_both (sized_u16 p.unk4) <|
    written_both (sized_u16 p.unk5) <| written_both (sized_u16 p.unk6) <|
    written_both (written_text .chat p.unk7) (written_text .chat p.message)
  exact h.congr (by simp) (by omega)

theorem written_systemMessage (p : SystemMessage) :
    Written (systemMessage.write p) (∀ s ∈ [p.message, p.unk], MaskedText.Writable s)
      (8 + MaskedText.size p.message + MaskedText.size p.unk) := by
  have h := written_both (written_text .system p.message) <|
    written_both (written_text .system p.unk) <|
    written_both (sized_messageType p.msgType) (sized_u32 p.msgNum)
  exact h.congr (by simp) (by omega)

end Layout

/-! ## Bodies -/

namespace Packet

/-- How many bytes the body of a packet takes. -/
def bodyLength : Packet → Nat
  | empty | initialLoad | loadingScreenTransition | serverPing | serverPong | finishLoading
  | unlockControls | questCounterRequest | clientGoodbye | settingsRequest => 0
  | serverHello _ => 12
  | serverHelloNgs _ => 16
  | mapLoaded _ => 44
  | setPlayerId _ => 12
  | chatMessage p => 16 + MaskedText.size p.unk5 + MaskedText.size p.message
  | chatMessageNgs p => 20 + MaskedText.size p.unk7 + MaskedText.size p.message
  | encryptionRequest _ => KeyBlock.blockLength
  | encryptionResponse p => p.data.length
  | clientPing _ => 8
  | clientPong _ => 20
  | systemMessage p => 8 + MaskedText.size p.message + MaskedText.size p.unk
  | lobbyMonitor _ => 4
  | unknown p => p.data.length
  | raw data => data.length

/-- A packet whose texts and key exchange data have a place in a body. -/
structure Writable (p : Packet) : Prop where
  texts : ∀ s ∈ p.texts, MaskedText.Writable s
  keyData : ∀ request, p = encryptionRequest request → request.rsaData.length ≤ KeyBlock.capacity

theorem writable_iff_texts {p : Packet} (hp : ∀ request, p ≠ encryptionRequest request) :
    (∀ s ∈ p.texts, MaskedText.Writable s) ↔ p.Writable :=
  ⟨fun h => ⟨h, fun request hrequest => absurd hrequest (hp request)⟩, Writable.texts⟩

/-- A body can be written if and only if its packet is writable, and its length is known before. -/
theorem written_encodeBody (p : Packet) : Written p.encodeBody p.Writable p.bodyLength := by
  have htexts (hp : ∀ request, p ≠ encryptionRequest request) :
      (∀ s ∈ p.texts, MaskedText.Writable s) ↔ p.Writable := writable_iff_texts hp
  have hplain (hnone : p.texts = []) (hp : ∀ request, p ≠ encryptionRequest request) :
      True ↔ p.Writable := by
    rw [← htexts hp, hnone]
    simp
  -- Only texts and key exchange data can make a body impossible.
  cases p with
  | empty | initialLoad | loadingScreenTransition | serverPing | serverPong | finishLoading
  | unlockControls | questCounterRequest | clientGoodbye | settingsRequest =>
    exact (written_ok []).congr (hplain rfl (by simp)) rfl
  | serverHello p => exact (Layout.sized_serverHello p).congr (hplain rfl (by simp)) rfl
  | serverHelloNgs p => exact (Layout.sized_serverHelloNgs p).congr (hplain rfl (by simp)) rfl
  | mapLoaded p => exact (Layout.sized_mapLoaded p).congr (hplain rfl (by simp)) rfl
  | setPlayerId p => exact (Layout.sized_setPlayerId p).congr (hplain rfl (by simp)) rfl
  | clientPing p => exact (Layout.sized_clientPing p).congr (hplain rfl (by simp)) rfl
  | clientPong p => exact (Layout.sized_clientPong p).congr (hplain rfl (by simp)) rfl
  | lobbyMonitor p => exact (Layout.sized_lobbyMonitor p).congr (hplain rfl (by simp)) rfl
  | chatMessage p => exact (Layout.written_chatMessage p).congr (htexts (by simp)) rfl
  | chatMessageNgs p => exact (Layout.written_chatMessageNgs p).congr (htexts (by simp)) rfl
  | systemMessage p => exact (Layout.written_systemMessage p).congr (htexts (by simp)) rfl
  | encryptionRequest p =>
    apply (KeyBlock.written_encode p.rsaData).congr _ rfl
    constructor
    · intro hlength
      refine ⟨by simp [texts], ?_⟩
      rintro request ⟨rfl⟩
      exact hlength
    · intro h
      exact h.keyData p rfl
  | encryptionResponse p => exact (written_ok p.data).congr (hplain rfl (by simp)) rfl
  | unknown p => exact (written_ok p.data).congr (hplain rfl (by simp)) rfl
  | raw data => exact (written_ok data).congr (hplain rfl (by simp)) rfl

end Packet

end GameWire
