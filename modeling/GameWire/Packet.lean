import GameWire.Bytes
import GameWire.Dialect
import GameWire.Error

/-!
# Packets

A `Packet` is one message of the game protocol, whatever bytes carry it. Most messages have a
`Packet.Kind` that selects their body layout; the empty packet, frames with an unknown tag and
frames of the raw dialect have none. A `Model` is a packet together with the dialect it belongs to.
-/

namespace GameWire

/-! ## Field types -/

inductive EntityType where
  | unknown
  | player
  | map
  | object
  | unk1
  | unk2
  /-- Every number without a meaning of its own. -/
  | undefined
  deriving DecidableEq, Repr

namespace EntityType

instance : Inhabited EntityType := ⟨unknown⟩

def all : List EntityType := [unknown, player, map, object, unk1, unk2, undefined]

def name : EntityType → String
  | unknown => "Unknown"
  | player => "Player"
  | map => "Map"
  | object => "Object"
  | unk1 => "Unk1"
  | unk2 => "Unk2"
  | undefined => "Undefined"

def code : EntityType → UInt16
  | unknown => 0
  | player => 4
  | map => 5
  | object => 6
  | unk1 => 7
  | unk2 => 22
  | undefined => 0xFFFF

def ofCode (n : UInt16) : EntityType :=
  (all.find? (·.code == n)).getD undefined

theorem ofCode_code (e : EntityType) : ofCode e.code = e := by cases e <;> rfl

end EntityType

/-- Who gets to read a chat message. -/
inductive ChatArea where
  | map
  | party
  | alliance
  | whisper
  | group
  /-- Every number without a meaning of its own. -/
  | undefined
  deriving DecidableEq, Repr

namespace ChatArea

instance : Inhabited ChatArea := ⟨map⟩

def all : List ChatArea := [map, party, alliance, whisper, group, undefined]

def name : ChatArea → String
  | map => "Map"
  | party => "Party"
  | alliance => "Alliance"
  | whisper => "Whisper"
  | group => "Group"
  | undefined => "Undefined"

def code : ChatArea → UInt8
  | map => 0
  | party => 1
  | alliance => 2
  | whisper => 3
  | group => 4
  | undefined => 0xFF

def ofCode (n : UInt8) : ChatArea :=
  (all.find? (·.code == n)).getD undefined

theorem ofCode_code (a : ChatArea) : ofCode a.code = a := by cases a <;> rfl

end ChatArea

/-- How a system message is shown. -/
inductive MessageType where
  | adminMessage
  | adminMessageInstant
  | systemMessage
  | goldenMessage
  | eventInformationYellow
  | eventInformationGreen
  | importantMessage
  | popupMessage
  /-- Every number without a meaning of its own. -/
  | undefined
  deriving DecidableEq, Repr

namespace MessageType

instance : Inhabited MessageType := ⟨systemMessage⟩

def all : List MessageType :=
  [adminMessage, adminMessageInstant, systemMessage, goldenMessage, eventInformationYellow,
    eventInformationGreen, importantMessage, popupMessage, undefined]

def name : MessageType → String
  | adminMessage => "AdminMessage"
  | adminMessageInstant => "AdminMessageInstant"
  | systemMessage => "SystemMessage"
  | goldenMessage => "GoldenMessage"
  | eventInformationYellow => "EventInformationYellow"
  | eventInformationGreen => "EventInformationGreen"
  | importantMessage => "ImportantMessage"
  | popupMessage => "PopupMessage"
  | undefined => "Undefined"

def code : MessageType → UInt32
  | adminMessage => 1
  | adminMessageInstant => 2
  | systemMessage => 3
  | goldenMessage => 4
  | eventInformationYellow => 5
  | eventInformationGreen => 6
  | importantMessage => 7
  | popupMessage => 8
  | undefined => 0xFFFFFFFF

def ofCode (n : UInt32) : MessageType :=
  (all.find? (·.code == n)).getD undefined

theorem ofCode_code (t : MessageType) : ofCode t.code = t := by cases t <;> rfl

end MessageType

structure ObjectHeader where
  id : UInt32 := 0
  unk : UInt32 := 0
  entityType : EntityType := default
  unk2 : UInt16 := 0
  deriving DecidableEq, Repr, Inhabited

/-- The part of a frame's header that says what the frame is. -/
structure FrameHeader where
  category : UInt8 := 0
  subtype : UInt8 := 0
  /-- Kept as found, so that frames with an unknown tag come out byte for byte as they went in. -/
  reserved : FixedBytes 2 := .zero 2
  deriving DecidableEq, Repr, Inhabited

/-! ## Bodies -/

structure ServerHello where
  unk1 : UInt16 := 0
  blockId : UInt16 := 0
  unk2 : UInt32 := 0
  deriving DecidableEq, Repr, Inhabited

structure ServerHelloNgs where
  unk1 : UInt16 := 0
  blockId : UInt16 := 0
  unk2 : UInt32 := 0
  unk3 : UInt32 := 0
  deriving DecidableEq, Repr, Inhabited

structure MapLoaded where
  mapObject : ObjectHeader := {}
  unk : FixedBytes 0x20 := .zero 0x20
  deriving DecidableEq, Repr, Inhabited

structure SetPlayerId where
  playerId : UInt32 := 0
  unk1 : UInt32 := 0
  unk2 : UInt32 := 0
  deriving DecidableEq, Repr, Inhabited

structure ChatMessage where
  object : ObjectHeader := {}
  area : ChatArea := default
  unk3 : UInt8 := 0
  unk4 : UInt16 := 0
  unk5 : String := ""
  message : String := ""
  deriving DecidableEq, Repr, Inhabited

structure ChatMessageNgs where
  object : ObjectHeader := {}
  area : ChatArea := default
  unk3 : UInt8 := 0
  unk4 : UInt16 := 0
  unk5 : UInt16 := 0
  unk6 : UInt16 := 0
  unk7 : String := ""
  message : String := ""
  deriving DecidableEq, Repr, Inhabited

/-- Key exchange request: the session secret, encrypted while it travels and in plain text once it
has been opened. -/
structure EncryptionRequest where
  rsaData : Bytes := []
  deriving DecidableEq, Repr, Inhabited

structure EncryptionResponse where
  data : Bytes := []
  deriving DecidableEq, Repr, Inhabited

/-- Client ping, with the time in milliseconds of the game's epoch. -/
structure ClientPing where
  time : UInt64 := 0
  deriving DecidableEq, Repr, Inhabited

structure ClientPong where
  clientTime : UInt64 := 0
  serverTime : UInt64 := 0
  unk1 : UInt32 := 0
  deriving DecidableEq, Repr, Inhabited

structure SystemMessage where
  message : String := ""
  unk : String := ""
  msgType : MessageType := default
  msgNum : UInt32 := 0
  deriving DecidableEq, Repr, Inhabited

/-- Choice of the lobby's video. -/
structure LobbyMonitor where
  videoId : UInt32 := 0
  deriving DecidableEq, Repr, Inhabited

/-- A frame whose tag means nothing in its dialect, kept as found. -/
structure UnknownFrame where
  header : FrameHeader := {}
  data : Bytes := []
  deriving DecidableEq, Repr, Inhabited

/-! ## Packets and their kinds -/

inductive Packet where
  /-- No message at all; it travels as zero bytes. -/
  | empty
  | initialLoad
  | loadingScreenTransition
  | serverHello (body : ServerHello)
  | serverHelloNgs (body : ServerHelloNgs)
  | serverPing
  | serverPong
  | mapLoaded (body : MapLoaded)
  | finishLoading
  | unlockControls
  | setPlayerId (body : SetPlayerId)
  | chatMessage (body : ChatMessage)
  | chatMessageNgs (body : ChatMessageNgs)
  | questCounterRequest
  | encryptionRequest (body : EncryptionRequest)
  | encryptionResponse (body : EncryptionResponse)
  | clientPing (body : ClientPing)
  | clientPong (body : ClientPong)
  | clientGoodbye
  | systemMessage (body : SystemMessage)
  | lobbyMonitor (body : LobbyMonitor)
  | settingsRequest
  /-- A frame with a tag that its dialect does not define. -/
  | unknown (frame : UnknownFrame)
  | raw (data : Bytes)
  deriving DecidableEq, Repr

namespace Packet

instance : Inhabited Packet := ⟨empty⟩

inductive Kind where
  | initialLoad
  | loadingScreenTransition
  | serverHello
  | serverHelloNgs
  | serverPing
  | serverPong
  | mapLoaded
  | finishLoading
  | unlockControls
  | setPlayerId
  | chatMessage
  | chatMessageNgs
  | questCounterRequest
  | encryptionRequest
  | encryptionResponse
  | clientPing
  | clientPong
  | clientGoodbye
  | systemMessage
  | lobbyMonitor
  | settingsRequest
  deriving DecidableEq, Repr

namespace Kind

def all : List Kind :=
  [initialLoad, loadingScreenTransition, serverHello, serverHelloNgs, serverPing, serverPong,
    mapLoaded, finishLoading, unlockControls, setPlayerId, chatMessage, chatMessageNgs,
    questCounterRequest, encryptionRequest, encryptionResponse, clientPing, clientPong,
    clientGoodbye, systemMessage, lobbyMonitor, settingsRequest]

theorem mem_all (k : Kind) : k ∈ all := by cases k <;> decide

/-- The name of a kind, which is also its tag in serialized packets. -/
def name : Kind → String
  | initialLoad => "InitialLoad"
  | loadingScreenTransition => "LoadingScreenTransition"
  | serverHello => "ServerHello"
  | serverHelloNgs => "ServerHelloNGS"
  | serverPing => "ServerPing"
  | serverPong => "ServerPong"
  | mapLoaded => "MapLoaded"
  | finishLoading => "FinishLoading"
  | unlockControls => "UnlockControls"
  | setPlayerId => "SetPlayerId"
  | chatMessage => "ChatMessage"
  | chatMessageNgs => "ChatMessageNGS"
  | questCounterRequest => "QuestCounterRequest"
  | encryptionRequest => "EncryptionRequest"
  | encryptionResponse => "EncryptionResponse"
  | clientPing => "ClientPing"
  | clientPong => "ClientPong"
  | clientGoodbye => "ClientGoodbye"
  | systemMessage => "SystemMessage"
  | lobbyMonitor => "LobbyMonitor"
  | settingsRequest => "SettingsRequest"

end Kind

/-- Tells packets apart by what they are called. -/
inductive Variant where
  | empty
  | ofKind (kind : Kind)
  | unknown
  | raw
  deriving DecidableEq, Repr

namespace Variant

/-- Every variant, in the order in which serialized packets number them. -/
def all : List Variant :=
  empty :: Kind.all.map ofKind ++ [unknown, raw]

theorem mem_all (v : Variant) : v ∈ all := by
  cases v with
  | empty => decide
  | ofKind k => cases k <;> decide
  | unknown => decide
  | raw => decide

def name : Variant → String
  | empty => "None"
  | ofKind kind => kind.name
  | unknown => "Unknown"
  | raw => "Raw"

/-- The body layout of a variant that has one. -/
def kind? : Variant → Option Kind
  | ofKind kind => some kind
  | empty | unknown | raw => none

end Variant

def variant : Packet → Variant
  | empty => .empty
  | initialLoad => .ofKind .initialLoad
  | loadingScreenTransition => .ofKind .loadingScreenTransition
  | serverHello _ => .ofKind .serverHello
  | serverHelloNgs _ => .ofKind .serverHelloNgs
  | serverPing => .ofKind .serverPing
  | serverPong => .ofKind .serverPong
  | mapLoaded _ => .ofKind .mapLoaded
  | finishLoading => .ofKind .finishLoading
  | unlockControls => .ofKind .unlockControls
  | setPlayerId _ => .ofKind .setPlayerId
  | chatMessage _ => .ofKind .chatMessage
  | chatMessageNgs _ => .ofKind .chatMessageNgs
  | questCounterRequest => .ofKind .questCounterRequest
  | encryptionRequest _ => .ofKind .encryptionRequest
  | encryptionResponse _ => .ofKind .encryptionResponse
  | clientPing _ => .ofKind .clientPing
  | clientPong _ => .ofKind .clientPong
  | clientGoodbye => .ofKind .clientGoodbye
  | systemMessage _ => .ofKind .systemMessage
  | lobbyMonitor _ => .ofKind .lobbyMonitor
  | settingsRequest => .ofKind .settingsRequest
  | unknown _ => .unknown
  | raw _ => .raw

def kind? (p : Packet) : Option Kind := p.variant.kind?

def name (p : Packet) : String := p.variant.name

/-- Whether `name` is the tag of some serialized packet. -/
def isTagName (name : String) : Bool :=
  Variant.all.any (·.name == name)

theorem isTagName_variant (v : Variant) : isTagName v.name = true :=
  List.any_eq_true.2 ⟨v, v.mem_all, by simp⟩

end Packet

end GameWire
