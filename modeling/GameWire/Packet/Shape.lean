import GameWire.Packet
import GameWire.Serial.Shape

/-!
# The shapes of packets

A serialized packet is its body under its tag. Fields of a body may be left out, except those of an
object header, and of a frame header all but the reserved bytes.
-/

namespace GameWire

namespace SerialShape

/-! ## Field types -/

def entityType : SerialShape EntityType := choice EntityType.all EntityType.name

def chatArea : SerialShape ChatArea := choice ChatArea.all ChatArea.name

def messageType : SerialShape MessageType := choice MessageType.all MessageType.name

/-- No field of an object header may be left out. -/
def objectHeader : SerialShape ObjectHeader :=
  record <| ((Fields.required "id" u32).both ((Fields.required "unk" u32).both
    ((Fields.required "entity_type" entityType).both (Fields.required "unk2" u16)))).as
    (fun (id, unk, entityType, unk2) => { id, unk, entityType, unk2 })
    fun o => (o.id, o.unk, o.entityType, o.unk2)

/-- Only the reserved bytes of a frame header may be left out. -/
def frameHeader : SerialShape FrameHeader :=
  record <| ((Fields.required "category" u8).both ((Fields.required "subtype" u8).both
    (Fields.optional "reserved" (fixed 2) (.zero 2)))).as
    (fun (category, subtype, reserved) => { category, subtype, reserved })
    fun h => (h.category, h.subtype, h.reserved)

/-! ## Bodies -/

def serverHello : SerialShape ServerHello :=
  record <| ((Fields.optional "unk1" u16 0).both ((Fields.optional "blockid" u16 0).both
    (Fields.optional "unk2" u32 0))).as
    (fun (unk1, blockId, unk2) => { unk1, blockId, unk2 })
    fun p => (p.unk1, p.blockId, p.unk2)

def serverHelloNgs : SerialShape ServerHelloNgs :=
  record <| ((Fields.optional "unk1" u16 0).both ((Fields.optional "blockid" u16 0).both
    ((Fields.optional "unk2" u32 0).both (Fields.optional "unk3" u32 0)))).as
    (fun (unk1, blockId, unk2, unk3) => { unk1, blockId, unk2, unk3 })
    fun p => (p.unk1, p.blockId, p.unk2, p.unk3)

def mapLoaded : SerialShape MapLoaded :=
  record <| ((Fields.optional "map_object" objectHeader {}).both
    (Fields.optional "unk" (fixed 0x20) (.zero 0x20))).as
    (fun (mapObject, unk) => { mapObject, unk })
    fun p => (p.mapObject, p.unk)

def setPlayerId : SerialShape SetPlayerId :=
  record <| ((Fields.optional "player_id" u32 0).both ((Fields.optional "unk1" u32 0).both
    (Fields.optional "unk2" u32 0))).as
    (fun (playerId, unk1, unk2) => { playerId, unk1, unk2 })
    fun p => (p.playerId, p.unk1, p.unk2)

def chatMessage : SerialShape ChatMessage :=
  record <| ((Fields.optional "object" objectHeader {}).both
    ((Fields.optional "area" chatArea default).both
    ((Fields.optional "unk3" u8 0).both ((Fields.optional "unk4" u16 0).both
    ((Fields.optional "unk5" text "").both (Fields.optional "message" text "")))))).as
    (fun (object, area, unk3, unk4, unk5, message) =>
      { object, area, unk3, unk4, unk5, message })
    fun p => (p.object, p.area, p.unk3, p.unk4, p.unk5, p.message)

def chatMessageNgs : SerialShape ChatMessageNgs :=
  record <| ((Fields.optional "object" objectHeader {}).both
    ((Fields.optional "area" chatArea default).both
    ((Fields.optional "unk3" u8 0).both ((Fields.optional "unk4" u16 0).both
    ((Fields.optional "unk5" u16 0).both ((Fields.optional "unk6" u16 0).both
    ((Fields.optional "unk7" text "").both (Fields.optional "message" text "")))))))).as
    (fun (object, area, unk3, unk4, unk5, unk6, unk7, message) =>
      { object, area, unk3, unk4, unk5, unk6, unk7, message })
    fun p => (p.object, p.area, p.unk3, p.unk4, p.unk5, p.unk6, p.unk7, p.message)

def encryptionRequest : SerialShape EncryptionRequest :=
  record <| (Fields.optional "rsa_data" bytes []).as (fun rsaData => { rsaData })
    fun p => p.rsaData

def encryptionResponse : SerialShape EncryptionResponse :=
  record <| (Fields.optional "data" bytes []).as (fun data => { data }) fun p => p.data

def clientPing : SerialShape ClientPing :=
  record <| (Fields.optional "time" u64 0).as (fun time => { time }) fun p => p.time

def clientPong : SerialShape ClientPong :=
  record <| ((Fields.optional "client_time" u64 0).both ((Fields.optional "server_time" u64 0).both
    (Fields.optional "unk1" u32 0))).as
    (fun (clientTime, serverTime, unk1) => { clientTime, serverTime, unk1 })
    fun p => (p.clientTime, p.serverTime, p.unk1)

def systemMessage : SerialShape SystemMessage :=
  record <| ((Fields.optional "message" text "").both ((Fields.optional "unk" text "").both
    ((Fields.optional "msg_type" messageType default).both
    (Fields.optional "msg_num" u32 0)))).as
    (fun (message, unk, msgType, msgNum) => { message, unk, msgType, msgNum })
    fun p => (p.message, p.unk, p.msgType, p.msgNum)

def lobbyMonitor : SerialShape LobbyMonitor :=
  record <| (Fields.optional "video_id" u32 0).as (fun videoId => { videoId })
    fun p => p.videoId

def unknownFrame : SerialShape UnknownFrame :=
  record <| ((Fields.optional "header" frameHeader {}).both (Fields.optional "data" bytes [])).as
    (fun (header, data) => { header, data })
    fun p => (p.header, p.data)

/-- The body of a packet without fields: a record that has none. -/
def bare : SerialShape Unit := record Fields.none

end SerialShape

namespace Packet

/-! ## Packets -/

def payload : Packet → Outline
  | empty | initialLoad | loadingScreenTransition | serverPing | serverPong | finishLoading
  | unlockControls | questCounterRequest | clientGoodbye | settingsRequest =>
    SerialShape.bare.outline ()
  | serverHello p => SerialShape.serverHello.outline p
  | serverHelloNgs p => SerialShape.serverHelloNgs.outline p
  | mapLoaded p => SerialShape.mapLoaded.outline p
  | setPlayerId p => SerialShape.setPlayerId.outline p
  | chatMessage p => SerialShape.chatMessage.outline p
  | chatMessageNgs p => SerialShape.chatMessageNgs.outline p
  | encryptionRequest p => SerialShape.encryptionRequest.outline p
  | encryptionResponse p => SerialShape.encryptionResponse.outline p
  | clientPing p => SerialShape.clientPing.outline p
  | clientPong p => SerialShape.clientPong.outline p
  | systemMessage p => SerialShape.systemMessage.outline p
  | lobbyMonitor p => SerialShape.lobbyMonitor.outline p
  | unknown p => SerialShape.unknownFrame.outline p
  | raw data => SerialShape.bytes.outline data

def ofPayload? (v : Variant) (t : Tree) : Option Packet :=
  match v with
  | .empty => (fun _ => empty) <$> SerialShape.bare.read? t
  | .ofKind .initialLoad => (fun _ => initialLoad) <$> SerialShape.bare.read? t
  | .ofKind .loadingScreenTransition =>
    (fun _ => loadingScreenTransition) <$> SerialShape.bare.read? t
  | .ofKind .serverPing => (fun _ => serverPing) <$> SerialShape.bare.read? t
  | .ofKind .serverPong => (fun _ => serverPong) <$> SerialShape.bare.read? t
  | .ofKind .finishLoading => (fun _ => finishLoading) <$> SerialShape.bare.read? t
  | .ofKind .unlockControls => (fun _ => unlockControls) <$> SerialShape.bare.read? t
  | .ofKind .questCounterRequest => (fun _ => questCounterRequest) <$> SerialShape.bare.read? t
  | .ofKind .clientGoodbye => (fun _ => clientGoodbye) <$> SerialShape.bare.read? t
  | .ofKind .settingsRequest => (fun _ => settingsRequest) <$> SerialShape.bare.read? t
  | .ofKind .serverHello => serverHello <$> SerialShape.serverHello.read? t
  | .ofKind .serverHelloNgs => serverHelloNgs <$> SerialShape.serverHelloNgs.read? t
  | .ofKind .mapLoaded => mapLoaded <$> SerialShape.mapLoaded.read? t
  | .ofKind .setPlayerId => setPlayerId <$> SerialShape.setPlayerId.read? t
  | .ofKind .chatMessage => chatMessage <$> SerialShape.chatMessage.read? t
  | .ofKind .chatMessageNgs => chatMessageNgs <$> SerialShape.chatMessageNgs.read? t
  | .ofKind .encryptionRequest => encryptionRequest <$> SerialShape.encryptionRequest.read? t
  | .ofKind .encryptionResponse => encryptionResponse <$> SerialShape.encryptionResponse.read? t
  | .ofKind .clientPing => clientPing <$> SerialShape.clientPing.read? t
  | .ofKind .clientPong => clientPong <$> SerialShape.clientPong.read? t
  | .ofKind .systemMessage => systemMessage <$> SerialShape.systemMessage.read? t
  | .ofKind .lobbyMonitor => lobbyMonitor <$> SerialShape.lobbyMonitor.read? t
  | .unknown => unknown <$> SerialShape.unknownFrame.read? t
  | .raw => raw <$> SerialShape.bytes.read? t

/-- A packet as it is written: its body under its tag. -/
def outline (p : Packet) : Outline := .tagged p.name p.payload

/-- The packet a serialized value stands for: a table with one entry, the tag and the body. -/
def ofTree? : Tree → Option Packet
  | .table [(key, payload)] => do
    let place ← (key.place? (Variant.all.map Variant.name)).join
    let v ← Variant.all[place]?
    ofPayload? v payload
  | _ => none

end Packet

end GameWire
