import GameWire.Packet.Shape
import GameWire.Serial.Json
import GameWire.Serial.MessagePack

/-!
# Serialized packets

A packet can be written as JSON or as MessagePack, there with its fields in order or by name.
Reading recognises both MessagePack forms whichever is asked for. A packet under a tag that does not
exist is told apart from one that is malformed: `outerTag?` reads no more than the tag.
-/

namespace GameWire

inductive SerialFormat where
  | json
  /-- MessagePack with fields in order. -/
  | messagePack
  /-- MessagePack with fields by name. -/
  | messagePackNamed
  deriving DecidableEq, Repr

namespace SerialFormat

instance : Inhabited SerialFormat := ⟨json⟩

def all : List SerialFormat := [json, messagePack, messagePackNamed]

theorem mem_all (f : SerialFormat) : f ∈ all := by cases f <;> decide

def name : SerialFormat → String
  | json => "JSON"
  | messagePack => "MessagePack"
  | messagePackNamed => "MessagePackNamed"

def key : SerialFormat → String
  | json => "json"
  | messagePack => "msgpack"
  | messagePackNamed => "msgpack_named"

def ofKey? (s : String) : Option SerialFormat :=
  all.find? fun f => f.key == s

theorem ofKey?_key (f : SerialFormat) : ofKey? f.key = some f := by cases f <;> decide

def write : SerialFormat → Outline → Bytes
  | json, o => Json.write o
  | messagePack, o => MessagePack.write false o
  | messagePackNamed, o => MessagePack.write true o

def read? : SerialFormat → Bytes → Option Tree
  | json, bs => Json.read? bs
  | messagePack, bs | messagePackNamed, bs => MessagePack.read? bs

end SerialFormat

namespace Packet

def serialize (f : SerialFormat) (p : Packet) : Bytes :=
  f.write p.outline

def read? (f : SerialFormat) (bs : Bytes) : Option Packet :=
  (f.read? bs).bind ofTree?

/-- The tag of a serialized packet, whether or not it is the tag of some packet. -/
def outerTag? (f : SerialFormat) (bs : Bytes) : Option String :=
  (f.read? bs).bind Tree.tag?

/-- The packet that a byte string holds; every failure is the same one. -/
def deserializePlain (f : SerialFormat) (bs : Bytes) : Except ProtocolError Packet :=
  match read? f bs with
  | some p => .ok p
  | none => .error (.deserialize "malformed packet")

/-- The packet that a byte string holds. A tag that does not exist is an error of its own. -/
def deserialize (f : SerialFormat) (bs : Bytes) : Except ProtocolError Packet :=
  match read? f bs, outerTag? f bs with
  | some p, _ => .ok p
  | none, some tag =>
    if isTagName tag then .error (.deserialize "malformed packet")
    else .error (.unknownVariant tag)
  | none, none => .error (.deserialize "malformed packet")

end Packet

end GameWire
