import GameWire.Body.KeyBlock
import GameWire.Body.Layout
import GameWire.Packet

/-!
# Bodies

The body layout of every packet kind. `Packet.decodeBody` reads a body under a kind's layout and
accepts it only whole; `Packet.encodeBody` writes the body of a packet.
-/

namespace GameWire

/-! ## Layouts of the bodies -/

namespace Layout

def entityType : Layout EntityType := u16.as EntityType.ofCode EntityType.code

def chatArea : Layout ChatArea := u8.as ChatArea.ofCode ChatArea.code

def messageType : Layout MessageType := u32.as MessageType.ofCode MessageType.code

def objectHeader : Layout ObjectHeader :=
  (u32.both (u32.both (entityType.both u16))).as
    (fun (id, unk, entityType, unk2) => { id, unk, entityType, unk2 })
    fun o => (o.id, o.unk, o.entityType, o.unk2)

/-- Four bytes between the block id and what follows mean nothing. -/
def serverHello : Layout ServerHello :=
  (u16.both (u16.both (u32.after 4))).as
    (fun (unk1, blockId, unk2) => { unk1, blockId, unk2 })
    fun p => (p.unk1, p.blockId, p.unk2)

def serverHelloNgs : Layout ServerHelloNgs :=
  (u16.both (u16.both ((u32.both u32).after 4))).as
    (fun (unk1, blockId, unk2, unk3) => { unk1, blockId, unk2, unk3 })
    fun p => (p.unk1, p.blockId, p.unk2, p.unk3)

def mapLoaded : Layout MapLoaded :=
  (objectHeader.both (fixed 0x20)).as
    (fun (mapObject, unk) => { mapObject, unk })
    fun p => (p.mapObject, p.unk)

def setPlayerId : Layout SetPlayerId :=
  (u32.both (u32.both u32)).as
    (fun (playerId, unk1, unk2) => { playerId, unk1, unk2 })
    fun p => (p.playerId, p.unk1, p.unk2)

def chatMessage : Layout ChatMessage :=
  (objectHeader.both (chatArea.both (u8.both (u16.both ((text .chat).both (text .chat)))))).as
    (fun (object, area, unk3, unk4, unk5, message) =>
      { object, area, unk3, unk4, unk5, message })
    fun p => (p.object, p.area, p.unk3, p.unk4, p.unk5, p.message)

def chatMessageNgs : Layout ChatMessageNgs :=
  (objectHeader.both (chatArea.both (u8.both (u16.both (u16.both (u16.both
    ((text .chat).both (text .chat)))))))).as
    (fun (object, area, unk3, unk4, unk5, unk6, unk7, message) =>
      { object, area, unk3, unk4, unk5, unk6, unk7, message })
    fun p => (p.object, p.area, p.unk3, p.unk4, p.unk5, p.unk6, p.unk7, p.message)

def encryptionRequest : Layout EncryptionRequest where
  read := do
    let block ← BodyReader.takeRest
    pure { rsaData := KeyBlock.decode block }
  write := fun p => KeyBlock.encode p.rsaData

def encryptionResponse : Layout EncryptionResponse where
  read := do
    let data ← BodyReader.takeRest
    pure { data }
  write := fun p => .ok p.data

def clientPing : Layout ClientPing :=
  u64.as (fun time => { time }) fun p => p.time

def clientPong : Layout ClientPong :=
  (u64.both (u64.both u32)).as
    (fun (clientTime, serverTime, unk1) => { clientTime, serverTime, unk1 })
    fun p => (p.clientTime, p.serverTime, p.unk1)

def systemMessage : Layout SystemMessage :=
  ((text .system).both ((text .system).both (messageType.both u32))).as
    (fun (message, unk, msgType, msgNum) => { message, unk, msgType, msgNum })
    fun p => (p.message, p.unk, p.msgType, p.msgNum)

def lobbyMonitor : Layout LobbyMonitor :=
  u32.as (fun videoId => { videoId }) fun p => p.videoId

end Layout

namespace Packet

/-! ## Whole bodies -/

def readBody : Kind → Reading Packet
  | .initialLoad => pure initialLoad
  | .loadingScreenTransition => pure loadingScreenTransition
  | .serverPing => pure serverPing
  | .serverPong => pure serverPong
  | .finishLoading => pure finishLoading
  | .unlockControls => pure unlockControls
  | .questCounterRequest => pure questCounterRequest
  | .clientGoodbye => pure clientGoodbye
  | .settingsRequest => pure settingsRequest
  | .serverHello => serverHello <$> Layout.serverHello.read
  | .serverHelloNgs => serverHelloNgs <$> Layout.serverHelloNgs.read
  | .mapLoaded => mapLoaded <$> Layout.mapLoaded.read
  | .setPlayerId => setPlayerId <$> Layout.setPlayerId.read
  | .chatMessage => chatMessage <$> Layout.chatMessage.read
  | .chatMessageNgs => chatMessageNgs <$> Layout.chatMessageNgs.read
  | .encryptionRequest => encryptionRequest <$> Layout.encryptionRequest.read
  | .encryptionResponse => encryptionResponse <$> Layout.encryptionResponse.read
  | .clientPing => clientPing <$> Layout.clientPing.read
  | .clientPong => clientPong <$> Layout.clientPong.read
  | .systemMessage => systemMessage <$> Layout.systemMessage.read
  | .lobbyMonitor => lobbyMonitor <$> Layout.lobbyMonitor.read

def decodeBody (kind : Kind) (body : Bytes) : Except ProtocolError Packet :=
  BodyReader.run kind.name (readBody kind) body

def encodeBody : Packet → Except ProtocolError Bytes
  | empty | initialLoad | loadingScreenTransition | serverPing | serverPong | finishLoading
  | unlockControls | questCounterRequest | clientGoodbye | settingsRequest => .ok []
  | serverHello p => Layout.serverHello.write p
  | serverHelloNgs p => Layout.serverHelloNgs.write p
  | mapLoaded p => Layout.mapLoaded.write p
  | setPlayerId p => Layout.setPlayerId.write p
  | chatMessage p => Layout.chatMessage.write p
  | chatMessageNgs p => Layout.chatMessageNgs.write p
  | encryptionRequest p => Layout.encryptionRequest.write p
  | encryptionResponse p => Layout.encryptionResponse.write p
  | clientPing p => Layout.clientPing.write p
  | clientPong p => Layout.clientPong.write p
  | systemMessage p => Layout.systemMessage.write p
  | lobbyMonitor p => Layout.lobbyMonitor.write p
  | unknown p => .ok p.data
  | raw data => .ok data

end Packet

end GameWire
