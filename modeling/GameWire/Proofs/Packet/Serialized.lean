import GameWire.Packet.Shape
import GameWire.Proofs.Serial.Shape

/-!
# Packets and what is found of them

The shape of every body is lawful, so a packet is recognised in what is found where it was outlined.
-/

namespace GameWire

namespace SerialShape

/-! ## Field types -/

section FieldTypes

variable {depth : Nat}

theorem lawful_entityType : entityType.Lawful (fun _ => True) (depth + 1) :=
  lawful_choice (fun x => by cases x <;> rfl) fun x => by cases x <;> decide

theorem lawful_chatArea : chatArea.Lawful (fun _ => True) (depth + 1) :=
  lawful_choice (fun x => by cases x <;> rfl) fun x => by cases x <;> decide

theorem lawful_messageType : messageType.Lawful (fun _ => True) (depth + 1) :=
  lawful_choice (fun x => by cases x <;> rfl) fun x => by cases x <;> decide

theorem lawful_objectHeader : objectHeader.Lawful (fun _ => True) (depth + 2) := by
  refine (lawful_record (.as (.both (.required lawful_u32) <| .both (.required lawful_u32) <|
    .both (.required lawful_entityType) <| .required lawful_u16) fun _ => rfl) (by decide)).imp ?_
  simp

theorem lawful_frameHeader : frameHeader.Lawful (fun _ => True) (depth + 3) := by
  refine (lawful_record (.as (.both (.required lawful_u8) <| .both (.required lawful_u8) <|
    .optional (lawful_fixed (by decide))) fun _ => rfl) (by decide)).imp ?_
  simp

end FieldTypes

/-! ## Bodies

Every body is put together from the shapes of its fields, of which only texts and byte strings have
a length that must fit. -/

theorem lawful_serverHello : serverHello.Lawful (fun _ => True) 4 := by
  refine (lawful_record (.as (.both (.optional lawful_u16) <| .both (.optional lawful_u16) <|
    .optional lawful_u32) fun _ => rfl) (by decide)).imp ?_
  simp

theorem lawful_serverHelloNgs : serverHelloNgs.Lawful (fun _ => True) 4 := by
  refine (lawful_record (.as (.both (.optional lawful_u16) <| .both (.optional lawful_u16) <|
    .both (.optional lawful_u32) <| .optional lawful_u32) fun _ => rfl) (by decide)).imp ?_
  simp

theorem lawful_mapLoaded : mapLoaded.Lawful (fun _ => True) 4 := by
  refine (lawful_record (.as (.both (.optional lawful_objectHeader) <|
    .optional (lawful_fixed (by decide))) fun _ => rfl) (by decide)).imp ?_
  simp

theorem lawful_setPlayerId : setPlayerId.Lawful (fun _ => True) 4 := by
  refine (lawful_record (.as (.both (.optional lawful_u32) <| .both (.optional lawful_u32) <|
    .optional lawful_u32) fun _ => rfl) (by decide)).imp ?_
  simp

theorem lawful_chatMessage :
    chatMessage.Lawful (fun p => ∀ s ∈ [p.unk5, p.message], (Utf8.encode s).length < 2 ^ 32)
      4 := by
  refine (lawful_record (.as (.both (.optional lawful_objectHeader) <|
    .both (.optional lawful_chatArea) <| .both (.optional lawful_u8) <|
    .both (.optional lawful_u16) <| .both (.optional lawful_text) <| .optional lawful_text)
    fun _ => rfl) (by decide)).imp ?_
  intro p h
  simpa using h

theorem lawful_chatMessageNgs :
    chatMessageNgs.Lawful (fun p => ∀ s ∈ [p.unk7, p.message], (Utf8.encode s).length < 2 ^ 32)
      4 := by
  refine (lawful_record (.as (.both (.optional lawful_objectHeader) <|
    .both (.optional lawful_chatArea) <| .both (.optional lawful_u8) <|
    .both (.optional lawful_u16) <| .both (.optional lawful_u16) <| .both (.optional lawful_u16) <|
    .both (.optional lawful_text) <| .optional lawful_text) fun _ => rfl) (by decide)).imp ?_
  intro p h
  simpa using h

theorem lawful_encryptionRequest :
    encryptionRequest.Lawful (fun p => p.rsaData.length < 2 ^ 32) 4 :=
  lawful_record (.as (.optional lawful_bytes) fun _ => rfl) (by decide)

theorem lawful_encryptionResponse : encryptionResponse.Lawful (fun p => p.data.length < 2 ^ 32) 4 :=
  lawful_record (.as (.optional lawful_bytes) fun _ => rfl) (by decide)

theorem lawful_clientPing : clientPing.Lawful (fun _ => True) 4 :=
  lawful_record (.as (.optional lawful_u64) fun _ => rfl) (by decide)

theorem lawful_clientPong : clientPong.Lawful (fun _ => True) 4 := by
  refine (lawful_record (.as (.both (.optional lawful_u64) <| .both (.optional lawful_u64) <|
    .optional lawful_u32) fun _ => rfl) (by decide)).imp ?_
  simp

theorem lawful_systemMessage :
    systemMessage.Lawful (fun p => ∀ s ∈ [p.message, p.unk], (Utf8.encode s).length < 2 ^ 32)
      4 := by
  refine (lawful_record (.as (.both (.optional lawful_text) <| .both (.optional lawful_text) <|
    .both (.optional lawful_messageType) <| .optional lawful_u32) fun _ => rfl) (by decide)).imp ?_
  intro p h
  simpa using h

theorem lawful_lobbyMonitor : lobbyMonitor.Lawful (fun _ => True) 4 :=
  lawful_record (.as (.optional lawful_u32) fun _ => rfl) (by decide)

theorem lawful_unknownFrame : unknownFrame.Lawful (fun p => p.data.length < 2 ^ 32) 4 := by
  refine (lawful_record (.as (.both (.optional lawful_frameHeader) <| .optional lawful_bytes)
    fun _ => rfl) (by decide)).imp ?_
  intro p h
  exact ⟨trivial, h⟩

theorem lawful_bare : bare.Lawful (fun _ => True) 4 :=
  lawful_record .none (by decide)

end SerialShape

namespace Packet

/-! ## Packets -/

def texts : Packet → List String
  | chatMessage p => [p.unk5, p.message]
  | chatMessageNgs p => [p.unk7, p.message]
  | systemMessage p => [p.message, p.unk]
  | _ => []

/-- The byte strings of any length in a packet. -/
def byteStrings : Packet → List Bytes
  | encryptionRequest p => [p.rsaData]
  | encryptionResponse p => [p.data]
  | unknown p => [p.data]
  | raw data => [data]
  | _ => []

/-- Whether every text and byte string in a packet has a length that can be written down. -/
structure Fits (p : Packet) : Prop where
  texts : ∀ s ∈ p.texts, (Utf8.encode s).length < 2 ^ 32
  byteStrings : ∀ bs ∈ p.byteStrings, bs.length < 2 ^ 32

/-- A body is recognised in what is found where it was outlined. -/
theorem ofPayload?_tree (f : SerialFormat) (p : Packet) :
    ofPayload? p.variant (p.payload.tree f) = some p := by
  cases p with
  | empty | initialLoad | loadingScreenTransition | serverPing | serverPong | finishLoading
  | unlockControls | questCounterRequest | clientGoodbye | settingsRequest =>
    exact SerialShape.lawful_bare.map_read?_tree (fun _ => _) f ()
  | serverHello p => exact SerialShape.lawful_serverHello.map_read?_tree _ f p
  | serverHelloNgs p => exact SerialShape.lawful_serverHelloNgs.map_read?_tree _ f p
  | mapLoaded p => exact SerialShape.lawful_mapLoaded.map_read?_tree _ f p
  | setPlayerId p => exact SerialShape.lawful_setPlayerId.map_read?_tree _ f p
  | chatMessage p => exact SerialShape.lawful_chatMessage.map_read?_tree _ f p
  | chatMessageNgs p => exact SerialShape.lawful_chatMessageNgs.map_read?_tree _ f p
  | encryptionRequest p => exact SerialShape.lawful_encryptionRequest.map_read?_tree _ f p
  | encryptionResponse p => exact SerialShape.lawful_encryptionResponse.map_read?_tree _ f p
  | clientPing p => exact SerialShape.lawful_clientPing.map_read?_tree _ f p
  | clientPong p => exact SerialShape.lawful_clientPong.map_read?_tree _ f p
  | systemMessage p => exact SerialShape.lawful_systemMessage.map_read?_tree _ f p
  | lobbyMonitor p => exact SerialShape.lawful_lobbyMonitor.map_read?_tree _ f p
  | unknown p => exact SerialShape.lawful_unknownFrame.map_read?_tree _ f p
  | raw data =>
    exact (SerialShape.lawful_bytes : SerialShape.bytes.Lawful _ 4).map_read?_tree _ f data

theorem Fits.within_payload {p : Packet} (h : p.Fits) : p.payload.Within 4 := by
  cases p with
  | empty | initialLoad | loadingScreenTransition | serverPing | serverPong | finishLoading
  | unlockControls | questCounterRequest | clientGoodbye | settingsRequest =>
    exact SerialShape.lawful_bare.within () trivial
  | serverHello p => exact SerialShape.lawful_serverHello.within p trivial
  | serverHelloNgs p => exact SerialShape.lawful_serverHelloNgs.within p trivial
  | mapLoaded p => exact SerialShape.lawful_mapLoaded.within p trivial
  | setPlayerId p => exact SerialShape.lawful_setPlayerId.within p trivial
  | chatMessage p => exact SerialShape.lawful_chatMessage.within p h.texts
  | chatMessageNgs p => exact SerialShape.lawful_chatMessageNgs.within p h.texts
  | encryptionRequest p =>
    exact SerialShape.lawful_encryptionRequest.within p (h.byteStrings _ List.mem_cons_self)
  | encryptionResponse p =>
    exact SerialShape.lawful_encryptionResponse.within p (h.byteStrings _ List.mem_cons_self)
  | clientPing p => exact SerialShape.lawful_clientPing.within p trivial
  | clientPong p => exact SerialShape.lawful_clientPong.within p trivial
  | systemMessage p => exact SerialShape.lawful_systemMessage.within p h.texts
  | lobbyMonitor p => exact SerialShape.lawful_lobbyMonitor.within p trivial
  | unknown p => exact SerialShape.lawful_unknownFrame.within p (h.byteStrings _ List.mem_cons_self)
  | raw data => exact SerialShape.lawful_bytes.within data (h.byteStrings _ List.mem_cons_self)

/-- A tag is found at the place of its variant. -/
theorem getElem?_findIdx?_name (v : Variant) :
    ((Variant.all.map Variant.name).findIdx? (· == v.name)).bind (Variant.all[·]?) = some v := by
  cases v with
  | ofKind kind => cases kind <;> rfl
  | _ => rfl

/-- A packet is recognised in what is found where it was outlined. -/
theorem ofTree?_tree (f : SerialFormat) (p : Packet) : ofTree? (p.outline.tree f) = some p := by
  have hplace := getElem?_findIdx?_name p.variant
  show ((some ((Variant.all.map Variant.name).findIdx? (· == p.variant.name))).join >>= fun place =>
    Variant.all[place]? >>= fun v => ofPayload? v (p.payload.tree f)) = _
  cases hfound : (Variant.all.map Variant.name).findIdx? (· == p.variant.name) with
  | none =>
    rw [hfound] at hplace
    cases hplace
  | some place =>
    rw [hfound] at hplace
    show (Variant.all[place]? >>= _) = _
    rw [show Variant.all[place]? = some p.variant from hplace]
    exact ofPayload?_tree f p

theorem Fits.within_outline {p : Packet} (h : p.Fits) : p.outline.Within 5 := by
  refine ⟨?_, h.within_payload⟩
  show (Utf8.encode p.variant.name).length < 2 ^ 32
  cases p.variant with
  | ofKind kind => cases kind <;> decide
  | _ => decide

end Packet

end GameWire
