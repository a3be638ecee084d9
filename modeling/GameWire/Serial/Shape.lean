import GameWire.Serial.Tree
import GameWire.Shape

/-!
# Shapes of serialized values

The shapes that packets are put together from: numbers, texts, byte strings, names and records.
-/

namespace GameWire

/-- How a value is outlined for writing and recognised in a serialized packet. -/
abbrev SerialShape (α : Type) := Shape Outline Tree α

namespace SerialShape

/-! ## Single values -/

def u8 : SerialShape UInt8 :=
  ⟨fun n => .number n.toNat, fun t => UInt8.ofNat <$> t.number? (2 ^ 8)⟩

def u16 : SerialShape UInt16 :=
  ⟨fun n => .number n.toNat, fun t => UInt16.ofNat <$> t.number? (2 ^ 16)⟩

def u32 : SerialShape UInt32 :=
  ⟨fun n => .number n.toNat, fun t => UInt32.ofNat <$> t.number? (2 ^ 32)⟩

def u64 : SerialShape UInt64 :=
  ⟨fun n => .number n.toNat, fun t => UInt64.ofNat <$> t.number? (2 ^ 64)⟩

def text : SerialShape String := ⟨.text, Tree.text?⟩

/-- The outline of a byte string: a list of its bytes. -/
def outlineBytes (bs : Bytes) : Outline := .list (bs.map u8.outline)

/-- A byte string, recognised as a list of bytes or as a blob. -/
def bytes : SerialShape Bytes where
  outline := outlineBytes
  read?
    | .blob bs => some bs
    | t => t.list?.bind (·.mapM u8.read?)

/-- A byte string of fixed length, recognised as a list of bytes only. -/
def fixed (n : Nat) : SerialShape (FixedBytes n) where
  outline f := outlineBytes f.bytes
  read? t := do FixedBytes.ofBytes? n (← (← t.list?).mapM u8.read?)

def choice {α : Type} (all : List α) (name : α → String) : SerialShape α where
  outline x := .text (name x)
  read? t := (t.choice? (all.map name)).bind (all[·]?)

/-! ## Records -/

def record {α : Type} (fields : Fields Outline Tree α) : SerialShape α where
  outline x := .record (fields.names.zip (fields.outlines x))
  read? t := (t.fields? fields.names).bind fields.read?

end SerialShape

end GameWire
