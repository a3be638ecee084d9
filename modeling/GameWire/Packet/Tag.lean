import GameWire.Packet

/-!
# Wire tags

A tag is the (category, subtype) pair of a frame header. Each layout family assigns tags to packet
kinds: tags that every family shares stand in one table, and a family's own table goes before it.
-/

namespace GameWire

structure TagEntry where
  category : UInt8
  subtype : UInt8
  kind : Packet.Kind
  deriving DecidableEq, Repr

namespace LayoutFamily

/-- Tags with the same meaning in every family that has any. -/
def sharedTags : List TagEntry :=
  [⟨0x03, 0x03, .initialLoad⟩,
    ⟨0x03, 0x04, .loadingScreenTransition⟩,
    ⟨0x03, 0x0B, .serverPing⟩,
    ⟨0x03, 0x0C, .serverPong⟩,
    ⟨0x03, 0x10, .mapLoaded⟩,
    ⟨0x03, 0x23, .finishLoading⟩,
    ⟨0x03, 0x2B, .unlockControls⟩,
    ⟨0x06, 0x00, .setPlayerId⟩,
    ⟨0x0B, 0x30, .questCounterRequest⟩,
    ⟨0x11, 0x0B, .encryptionRequest⟩,
    ⟨0x11, 0x0C, .encryptionResponse⟩,
    ⟨0x11, 0x0D, .clientPing⟩,
    ⟨0x11, 0x0E, .clientPong⟩,
    ⟨0x11, 0x2B, .clientGoodbye⟩,
    ⟨0x19, 0x01, .systemMessage⟩,
    ⟨0x19, 0x0F, .lobbyMonitor⟩,
    ⟨0x2B, 0x00, .settingsRequest⟩]

/-- All tags of a family, its own first. -/
def tags : LayoutFamily → List TagEntry
  | base => ⟨0x03, 0x08, .serverHello⟩ :: ⟨0x07, 0x00, .chatMessage⟩ :: sharedTags
  | ngs => ⟨0x03, 0x08, .serverHelloNgs⟩ :: ⟨0x07, 0x00, .chatMessageNgs⟩ :: sharedTags
  | blank => []

end LayoutFamily

namespace Dialect

def lookup? (d : Dialect) (category subtype : UInt8) : Option Packet.Kind :=
  (d.family.tags.find? fun e => e.category == category && e.subtype == subtype).map (·.kind)

def tagFor? (d : Dialect) (kind : Packet.Kind) : Option (UInt8 × UInt8) :=
  (d.family.tags.find? fun e => e.kind == kind).map fun e => (e.category, e.subtype)

/-- A tag leads back to the kind it was given for. -/
theorem lookup?_of_tagFor? {d : Dialect} {kind : Packet.Kind} {category subtype : UInt8}
    (h : d.tagFor? kind = some (category, subtype)) : d.lookup? category subtype = some kind := by
  cases d <;> cases kind <;> revert h <;>
    simp only [tagFor?, lookup?, family, LayoutFamily.tags, LayoutFamily.sharedTags] <;>
    intro h <;> cases h <;> rfl

end Dialect

def Packet.isValidFor (p : Packet) (d : Dialect) : Bool :=
  match p with
  | .empty => true
  | .raw _ => d.isRaw
  | .unknown _ => !d.isRaw
  | p => (p.kind?.bind d.tagFor?).isSome

/-! ## Packets with their dialect -/

structure Model where
  dialect : Dialect := default
  packet : Packet := .empty
  deriving DecidableEq, Repr, Inhabited

namespace Model

def tag? (m : Model) : Option (UInt8 × UInt8) :=
  match m.packet with
  | .unknown frame => some (frame.header.category, frame.header.subtype)
  | packet => packet.kind?.bind m.dialect.tagFor?

/-- Fails unless the packet belongs to the expected dialect. -/
def ensureDialect (m : Model) (expected : Dialect) : Except ProtocolError Unit :=
  if m.dialect = expected then .ok () else .error (.dialectMismatch m.dialect expected)

end Model

end GameWire
